import TaskPool.Proofs.Arming

/-!
# Timers are punctual

While somebody holds on to the pool, an alarm is pending exactly if the records call for it, and it
is due when they say: the delay is counted from the message that gave rise to it.

* `Workday.Tidy`           the timers of a workday are those that the records call for
* `Tidy.step`              whatever happens, they stay so
* `Workday.CalledSince`    since when an alarm has been called for
* `Workday.Pending`        an alarm is armed for its time, or went off then and waits to be handled
* `Reachable.punctual`     every alarm that is called for is pending, and no other is

Why a record does not say when it began to call for its alarm: the pool keeps the timer and leaves
the time to it, so that the time is known only from the steps that led to the record.
-/

namespace TaskPool

open Function Relation

namespace Workday

variable {c : Config} {D E : Workday} {o : Option Message} {since : Alarm → Nat}

def diary (D : Workday) (since : Alarm → Nat) : Diary where
  timers := D.shop.timers
  rung := D.shop.rung
  next := D.shop.pool.nextTimer
  due := D.due
  clock := D.clock
  since := since
  want := D.shop.pool.want?
  past := D.shop.pool.Past (accepted D.shop.history)
  ticks := D.shop.pool.autoscaleTimer

structure Tidy (D : Workday) (since : Alarm → Nat) : Prop where
  bare : ∀ t k, D.shop.pool.ledger.find? t = some k → k.Bare
  live : ∀ w e, D.shop.pool.roster.find? w = some e → e.status ≠ .stopping → e.stopTimer = none
  right : (D.diary since).Right

/-- what is called for from the next step on, is called for since now -/
def renew (D : Workday) (since : Alarm → Nat) (a : Alarm) : Nat :=
  if (D.shop.pool.want? a).isSome then since a else D.clock

theorem renew_of_wanted {a : Alarm} (h : D.shop.pool.want? a ≠ none) : D.renew since a = since a :=
  if_pos (Option.isSome_iff_ne_none.mpr h)

theorem renew_of_unwanted {a : Alarm} (h : D.shop.pool.want? a = none) :
    D.renew since a = D.clock := by
  rw [renew, h]
  rfl

theorem tidy_new (c : Config) : (new c).Tidy fun _ => 0 where
  bare := fun t k hk => by cases hk
  live := fun w e he => by cases he
  right := by
    have hnone : ∀ a, (new c).shop.pool.want? a = none := by
      intro a
      cases a <;> rfl
    refine ⟨List.nodup_nil, fun x hx => (nomatch hx), fun i hi => (nomatch hi), fun a i d ha => ?_,
      fun a _ => ?_, rfl⟩
    · rw [show ((new c).diary _).want a = none from hnone a] at ha
      cases ha
    · rw [show ((new c).diary _).want a = none from hnone a]
      exact .idle rfl fun hr => (nomatch hr)

theorem Tidy.renewed (h : D.Tidy since) : (D.diary (D.renew since)).Right :=
  h.right.pass (Nat.le_refl _) fun a x hx => renew_of_wanted (by
    rw [show D.shop.pool.want? a = some x from hx]
    simp)

/-! ## a message is handled -/

section
variable (h : D.Tidy since) (hr : Reachable c D) (m : Moment)
include h hr

/-- a step begins -/
theorem Tidy.tends (msg : Message) :
    Pool.Tends m msg (D.diary (D.renew since)) (accepted D.shop.history) D.shop.pool := by
  have hin := hr.shop.inStep
  have hsound := hin.tuned.sound
  refine ⟨hsound, hr.shop.balanced.nodup hr.shop.nodup_accepted, fun t k hk => ⟨?_, h.bare t k hk⟩,
    fun w e he hst => ⟨h.live w e he hst, Pool.want?_of_live he hst⟩, fun w hw => ?_, ?_,
    fun a d hx => .inl ⟨d, hx⟩, fun a hx => .inl hx⟩
  · exact (hin.tuned.harmony.listed t _ (Ledger.sight_of_find? hk)).1
  · refine Nat.lt_of_not_le fun hle => hw ?_
    show (D.shop.pool.roster.find? w).bind _ = none
    rw [hsound.find?_of_le hle]
    rfl
  · have ho : D.shop.pool.outbox = [] := hin.tuned.outbox
    have heq : D.shop.pool.diary (D.diary (D.renew since)) (accepted D.shop.history)
        = D.diary (D.renew since) := by
      unfold Pool.diary
      rw [ho]
      rfl
    rw [heq]
    exact h.renewed

/-- a step is done -/
theorem Tidy.handled {W : Workshop} {msg : Message} (ht : D.shop.Takes msg W) :
    Pool.Tends m msg { D.diary (D.renew since) with rung := msg.leaves D.shop.rung }
      (accepted D.shop.history ++ accepted (D.shop.pool.receipt msg))
      (D.shop.pool.handle m msg) := by
  refine Pool.handle_tends (h.tends hr m msg) (fun a ha => renew_of_unwanted ha) (fun _ => rfl)
    (fun id k hk => (hr.shop.numbered hk).attempt) hr.shop.closed (fun a ha => ?_) ?_
  · subst ha
    cases ht with
    | alarm _ hmem => exact hmem
  · intro caller id kind payload options hmsg
    subst hmsg
    cases ht with
    | call _ _ hd => exact hd

theorem Tidy.hear {W : Workshop} {msg : Message} (ht : D.shop.Takes msg W) :
    (D.hear W m msg).Tidy (D.renew since) := by
  have hq := h.handled hr m ht
  have hin := hr.shop.inStep
  obtain ⟨hpool, htimers, hhist, _⟩ := ht.pool
  have hrung : W.rung = msg.leaves D.shop.rung := by cases ht <;> rfl
  have hacc : accepted (D.shop.history ++ (D.shop.pool.handle m msg).outbox)
      = accepted D.shop.history ++ accepted (D.shop.pool.receipt msg) := by
    rw [accepted_append, Pool.handle_accepted hin.tuned.sound hin.tuned.outbox]
  refine ⟨fun t k hk => ?_, fun w e he => ?_, ?_⟩
  · have hk' : (W.pool.handle m msg).ledger.find? t = some k := hk
    rw [hpool] at hk'
    exact (hq.tasks t k hk').2
  · have he' : (W.pool.handle m msg).roster.find? w = some e := he
    rw [hpool] at he'
    exact fun hst => (hq.entries w e he' hst).1
  · have hright := hq.right
    have heq : (D.hear W m msg).diary (D.renew since)
        = (D.shop.pool.handle m msg).diary
          { D.diary (D.renew since) with rung := msg.leaves D.shop.rung }
          (accepted D.shop.history ++ accepted (D.shop.pool.receipt msg)) := by
      rw [← hacc]
      unfold Workday.hear Workshop.deliver diary Pool.diary
      dsimp only
      rw [hpool, htimers, hrung, hhist]
      rfl
    rw [heq]
    exact hright

end

/-! ## any step -/

theorem Tidy.step (h : D.Tidy since) (hr : Reachable c D) (hs : D.Step o E) :
    E.Tidy (D.renew since) := by
  cases hs with
  | hear m msg W hm ht => exact h.hear hr m ht
  | ring t next ht hd => exact ⟨h.bare, h.live, h.renewed.ring ht hd next⟩
  | turn | letGo => exact ⟨h.bare, h.live, h.renewed⟩
  | pass clock hc => exact ⟨h.bare, h.live, h.renewed.pass hc fun _ _ _ => rfl⟩

/-- only a message makes the records call for an alarm -/
theorem Tidy.begun (h : D.Tidy since) (hr : Reachable c D) (hs : D.Step o E) {a : Alarm}
    (hD : D.shop.pool.want? a = none) (hE : E.shop.pool.want? a ≠ none) :
    ∃ msg, o = some msg ∧ msg.Begins a := by
  cases hs with
  | hear m msg W hm ht =>
    refine ⟨msg, rfl, ((h.handled hr m ht).origin a ?_).resolve_left fun hno => hno hD⟩
    have hE' : (W.pool.handle m msg).want? a ≠ none := hE
    rwa [ht.pool.1] at hE'
  | ring | turn | letGo | pass => exact absurd hD hE

/-- while somebody holds on to the pool, a timer is kept for every alarm that is called for -/
theorem Tidy.kept (h : D.Tidy since) (hr : Reachable c D) (hs : D.Step o E)
    (hh : E.shop.held = true) (hD : ∀ a d, D.shop.pool.want? a ≠ some ⟨none, d⟩) (a : Alarm)
    (d : Duration) : E.shop.pool.want? a ≠ some ⟨none, d⟩ := by
  intro hE
  have hheld := hs.held hh
  cases hs with
  | hear m msg W hm ht =>
    have hE' : (W.pool.handle m msg).want? a = some ⟨none, d⟩ := hE
    rw [ht.pool.1] at hE'
    rcases (h.handled hr m ht).unarmed a d hE' with ⟨d', hd'⟩ | hatt
    · exact hD a d' hd'
    · rw [hm.admits.attached hheld] at hatt
      cases hatt
  | ring | turn | letGo | pass => exact hD a d hE

/-! ## since when an alarm has been called for -/

/-- a message gave rise to the alarm at the time `time`, and it has been called for ever since -/
inductive CalledSince (c : Config) (a : Alarm) (time : Nat) : Workday → Prop where
  | begin {D E : Workday} {msg : Message} (hr : Reachable c D) (hs : D.Step (some msg) E)
      (hm : msg.Begins a) (hc : D.clock = time) (hD : D.shop.pool.want? a = none)
      (hE : E.shop.pool.want? a ≠ none) : CalledSince c a time E
  | stay {D E : Workday} {o : Option Message} (h : CalledSince c a time D) (hs : D.Step o E)
      (hE : E.shop.pool.want? a ≠ none) : CalledSince c a time E

theorem Reachable.tidy (h : Reachable c D) :
    ∃ since, D.Tidy since ∧
      ∀ a, D.shop.pool.want? a ≠ none → CalledSince c a (since a) D := by
  induction h with
  | new => exact ⟨_, tidy_new c, fun a ha => absurd (by cases a <;> rfl) ha⟩
  | @step D E o hr hs ih =>
    obtain ⟨since, h, hcalled⟩ := ih
    refine ⟨D.renew since, h.step hr hs, fun a hE => ?_⟩
    by_cases hD : D.shop.pool.want? a = none
    · obtain ⟨msg, rfl, hm⟩ := h.begun hr hs hD hE
      exact .begin hr hs hm (renew_of_unwanted hD).symm hD hE
    · rw [renew_of_wanted hD]
      exact (hcalled a hD).stay hs hE

theorem CalledSince.reachable {a : Alarm} {time : Nat} (h : CalledSince c a time D) :
    Reachable c D ∧ D.shop.pool.want? a ≠ none := by
  induction h with
  | begin hr hs _ _ _ hE => exact ⟨hr.step hs, hE⟩
  | stay _ hs hE ih => exact ⟨ih.1.step hs, hE⟩

theorem CalledSince.tidy {a : Alarm} {time : Nat} (h : CalledSince c a time D) :
    ∃ since, D.Tidy since ∧ since a = time := by
  induction h with
  | @begin D E msg hr hs _ hc hD _ =>
    obtain ⟨since, h, _⟩ := hr.tidy
    exact ⟨D.renew since, h.step hr hs, (renew_of_unwanted hD).trans hc⟩
  | @stay D E o h hs _ ih =>
    obtain ⟨since, htidy, rfl⟩ := ih
    obtain ⟨hr, hD⟩ := h.reachable
    exact ⟨D.renew since, htidy.step hr hs, renew_of_wanted hD⟩

/-! ## what is pending -/

def armed (D : Workday) (a : Alarm) : List Timer := D.shop.timers.filter fun x => x.alarm == a

/-- the timer `i` is armed for its time, or it went off then and the alarm waits to be handled -/
inductive Pending (D : Workday) (a : Alarm) (i : TimerId) (time : Nat) : Prop where
  | armed (ha : D.armed a = [⟨i, a, false⟩]) (hr : a ∉ D.shop.rung) (hd : D.due i = time)
  | rung (ha : D.armed a = []) (hr : D.shop.rung.count a = 1) (hd : time ≤ D.clock)

/-- the alarms that are pending are those that the records call for -/
structure Punctual (c : Config) (D : Workday) : Prop where
  pending : ∀ a x, D.shop.pool.want? a = some x →
    ∃ i, x.kept = some i ∧ (∃ time, CalledSince c a time D) ∧
      ∀ time, CalledSince c a time D → D.Pending a i (time + x.delay.nanos)
  others : ∀ a, a ≠ .autoscaleTick → D.shop.pool.want? a = none → D.armed a = []
  late : ∀ a, a ≠ .autoscaleTick → D.shop.pool.want? a = none →
    ∀ m, D.shop.pool.handle m (.ring a) = D.shop.pool

theorem Reachable.kept (h : Reachable c D) (hh : D.shop.held = true) (a : Alarm) (d : Duration) :
    D.shop.pool.want? a ≠ some ⟨none, d⟩ := by
  induction h generalizing a d with
  | new => cases a <;> exact fun hn => by cases hn
  | step hr hs ih =>
    obtain ⟨since, htidy, _⟩ := hr.tidy
    exact htidy.kept hr hs hh (fun a d => ih (hs.held hh) a d) a d

theorem Tidy.pending (h : D.Tidy since) {a : Alarm} (ha : a ≠ .autoscaleTick) {i : TimerId}
    {d : Duration} (hw : D.shop.pool.want? a = some ⟨some i, d⟩) :
    D.Pending a i (since a + d.nanos) := by
  have hslot := h.right.slot a ha
  rw [show (D.diary since).want a = _ from hw] at hslot
  cases hslot with
  | armed _ _ hone hr hd => exact .armed hone hr hd
  | rung _ _ hnil hr hd => exact .rung hnil hr hd

/-- **while somebody holds on to the pool, its timers are those that the records call for, each for
its time, and an alarm that comes too late changes nothing** -/
theorem Reachable.punctual (h : Reachable c D) (hh : D.shop.held = true) : D.Punctual c where
  pending := by
    rintro a ⟨kept, d⟩ hw
    have hna : a ≠ .autoscaleTick := by
      rintro rfl
      cases hw
    have hsome : D.shop.pool.want? a ≠ none := by
      rw [hw]
      exact Option.some_ne_none _
    cases kept with
    | none => exact absurd hw (h.kept hh a d)
    | some i =>
      obtain ⟨since, _, hcalled⟩ := h.tidy
      refine ⟨i, rfl, ⟨since a, hcalled a hsome⟩, fun time htime => ?_⟩
      obtain ⟨since', htidy, rfl⟩ := htime.tidy
      exact htidy.pending hna hw
  others := by
    intro a ha hw
    obtain ⟨since, htidy, _⟩ := h.tidy
    have hslot := htidy.right.slot a ha
    rw [show (D.diary since).want a = none from hw] at hslot
    exact hslot.none_armed
  late := fun a ha hw m => Pool.ring_of_unwanted ha hw m

open Workshop (calmMoment announced working oneChance)

theorem trusts_calmMoment (D : Workday) : D.Trusts calmMoment :=
  ⟨D.shop.admits_calmMoment, fun _ => rfl, fun _ _ _ _ => rfl⟩

/-- a pool whose only worker was handed a task at the time 0, and has begun it -/
def assigned : Workday :=
  let opened := (new Chronicle.single).hear (new Chronicle.single).shop calmMoment (.call 0 .start)
  let ready := { opened with shop := opened.shop.setBench 1 announced }
  let staffed := ready.hear (ready.shop.setBench 1 (announced.pop [])) calmMoment
    (.report 1 .ready)
  let handed := staffed.hear staffed.shop calmMoment
    (.call 1 (.submit ⟨7⟩ .cacheCleanup .null oneChance))
  { handed with shop := handed.shop.setBench 1 working }

theorem reachable_assigned : Reachable Chronicle.single assigned := by
  have hopened := Reachable.new.step
    (.hear calmMoment (.call 0 .start) _ (trusts_calmMoment (new Chronicle.single))
      (.call 0 .start trivial) (by decide))
  have hready := hopened.step
    (.turn 1 (.new 1 0) announced rfl (.step 0 0 (announced.worker, [.ready]) rfl))
  have hstaffed := hready.step (.hear calmMoment (.report 1 .ready) _ (trusts_calmMoment _)
    (.report 1 announced .ready [] rfl rfl) (by decide))
  have hhanded := hstaffed.step
    (.hear calmMoment (.call 1 (.submit ⟨7⟩ .cacheCleanup .null oneChance)) _
      (trusts_calmMoment _) (.call 1 _ List.not_mem_nil) (by decide))
  exact hhanded.step (.turn 1 ((announced.pop []).tell (.task ⟨7⟩ .cacheCleanup .null))
    working rfl (.step 0 0 (working.worker, [.busy ⟨7⟩]) rfl))

/-- that is reported at the time 5 -/
def waited : Workday := { assigned with clock := 5 }

def begun : Workday :=
  waited.hear (waited.shop.setBench 1 (working.pop [])) calmMoment (.report 1 (.busy ⟨7⟩))

theorem reachable_waited : Reachable Chronicle.single waited :=
  reachable_assigned.step (.pass 5 (Nat.zero_le 5))

theorem step_begun : waited.Step (some (.report 1 (.busy ⟨7⟩))) begun :=
  .hear calmMoment (.report 1 (.busy ⟨7⟩)) _ (trusts_calmMoment waited)
    (.report 1 working (.busy ⟨7⟩) [] rfl rfl) (by decide)

theorem reachable_begun : Reachable Chronicle.single begun := reachable_waited.step step_begun

/-- the time of the attempt is counted from then -/
theorem punctual_begun : Reachable Chronicle.single begun ∧ begun.shop.held = true ∧
    ∃ i x, begun.shop.pool.want? (.taskTimeout ⟨7⟩ 1) = some x ∧
      begun.Pending (.taskTimeout ⟨7⟩ 1) i (5 + x.delay.nanos) := by
  have hcalled : CalledSince Chronicle.single (.taskTimeout ⟨7⟩ 1) 5 begun :=
    .begin reachable_waited step_begun ⟨1, rfl⟩ rfl (by decide) (by decide)
  obtain ⟨x, hx⟩ := Option.ne_none_iff_exists'.mp hcalled.reachable.2
  obtain ⟨i, _, _, hp⟩ := (Reachable.punctual reachable_begun rfl).pending _ x hx
  exact ⟨reachable_begun, rfl, i, x, hx, hp 5 hcalled⟩

end Workday

end TaskPool
