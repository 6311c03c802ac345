import TaskPool.Proofs.Punctuality

/-!
# The grace of a stopping worker

A worker that was asked to stop is gone when its grace has passed, as soon as the pool has caught up
with what there is to hear of it.

* `Workshop.Heralded`      the end of a worker that has an entry is still to be heard of
* `Workday.Forgone`        a stopping worker has no deadline only if its end was reported
* `Workday.CaughtUp`       no message about the worker waits, and no deadline of it is overdue
* `CalledSince.in_grace`   whoever the pool has caught up with is stopping for less than its grace
* `CalledSince.follow`     as long as a stopping worker has an entry, its grace goes on
* `CalledSince.gone`       so it is gone when that has passed

Why there need not be a deadline: the pool arms none when nobody can send to it any more, and then
no worker can either.
-/

namespace TaskPool

open Function Relation

/-! ## what effects leave of a bench -/

/-- who is at a bench was started by these effects, or was there before and has reported as much -/
theorem stage_bench {now : Nat} {es : List Effect} {bench : WorkerId → Option Bench} {w : WorkerId}
    {b : Bench} (h : stage now bench es w = some b) :
    (b.reported = false ∧ w ∈ hired es) ∨
      ∃ b0, bench w = some b0 ∧ b.reported = b0.reported ∧ b.outgoing = b0.outgoing := by
  induction es generalizing bench with
  | nil => exact .inr ⟨b, h, rfl, rfl⟩
  | cons e es ih =>
    rw [← List.singleton_append, hired_append, List.mem_append]
    rcases ih h with ⟨hr, hw⟩ | ⟨b1, hb1, hr, ho⟩
    · exact .inl ⟨hr, .inr hw⟩
    · cases Effect.touch hb1 with
      | new => exact .inl ⟨hr, .inl (List.mem_singleton_self w)⟩
      | told b0 c hb0 =>
        refine .inr ⟨b0, hb0, ?_⟩
        rw [hr, ho]
        unfold Bench.tell
        split <;> exact ⟨rfl, rfl⟩
      | dismissed b0 hb0 => exact .inr ⟨b0, hb0, hr, ho⟩
      | kept _ _ hb0 => exact .inr ⟨b1, hb0, hr, ho⟩

namespace Pool

variable {m : Moment}

theorem Moves.unhired (ha : m.attached = false) {p q : Pool} (h : Moves m p q) :
    hired q.outbox = hired p.outbox := by
  induction h with
  | refl => rfl
  | tail _ h ih =>
    rcases h with h | rfl
    · exact h.modest.hired.trans ih
    · rw [hire_of_detached ha]
      exact ih

/-- nobody is started when nobody can send to the pool -/
theorem handle_unhired (ha : m.attached = false) {p : Pool} (hs : p.roster.Sound)
    (ho : p.outbox = []) (msg : Message) : hired (p.handle m msg).outbox = [] := by
  obtain ⟨p1, p2, hi, hm, _, h⟩ := handle_splits (m := m) hs msg
  rw [h]
  exact (Modest.receipt p p2 msg).hired.trans
    ((hm.unhired ha).trans (hi.modest.hired.trans (by rw [ho]; rfl)))

/-- whoever is started has a number that is new -/
theorem le_of_mem_hired {p : Pool} (hs : p.roster.Sound) (ho : p.outbox = []) {msg : Message}
    {w : WorkerId} (hw : w ∈ hired (p.handle m msg).outbox) : p.roster.nextId ≤ w := by
  obtain ⟨n, _, hn⟩ := handle_numbers (m := m) hs msg
  rw [hn, ho] at hw
  exact (List.mem_range'_1.mp hw).1

end Pool

namespace Workshop

variable {c : Config} {W V : Workshop}

/-! ## the end of a worker is heard of -/

/-- the end of a worker that has an entry is still to be heard of -/
def Heralded (W : Workshop) : Prop :=
  ∀ w b, W.bench w = some b → b.reported = true → W.pool.roster.find? w ≠ none →
    ∃ e ∈ b.outgoing, (Pool.crashDetail? e).isSome = true

theorem heralded_events (how : Ending) : ∃ e ∈ how.events, (Pool.crashDetail? e).isSome = true := by
  cases how with
  | stopped => exact ⟨.exited true, List.mem_singleton_self _, rfl⟩
  | aborted => exact ⟨.exited false, List.mem_singleton_self _, rfl⟩
  | panicked detail => exact ⟨.fatal detail, List.mem_cons_self .., rfl⟩

/-- an entry that is there after a message was there before, or its worker was started -/
theorem find?_before (hm : W.pool.Mustered) {m : Moment} {msg : Message} {w : WorkerId}
    (hlt : w < W.pool.roster.nextId) (h : (W.pool.handle m msg).roster.find? w ≠ none) :
    W.pool.roster.find? w ≠ none := by
  obtain ⟨k, running, hk⟩ := Pool.handle_shifts (m := m) hm msg
  exact fun hn => h (hk.fades.gone w hlt hn)

theorem heralded_deliver {m : Moment} {now : Nat} {msg : Message} (hm : V.pool.Mustered)
    (hlt : ∀ w b, V.bench w = some b → w < V.pool.roster.nextId)
    (h : ∀ w b, V.bench w = some b → b.reported = true → V.pool.roster.find? w ≠ none →
      (∃ e ∈ b.outgoing, (Pool.crashDetail? e).isSome = true) ∨
        ∃ e, msg = .report w e ∧ (Pool.crashDetail? e).isSome = true) :
    (V.deliver m now msg).Heralded := by
  intro w b hb hr hlisted
  have hlisted' : (V.pool.handle m msg).roster.find? w ≠ none := hlisted
  rcases stage_bench hb with ⟨hno, _⟩ | ⟨b0, hb0, hr0, ho⟩
  · rw [hr] at hno
    cases hno
  · rw [hr] at hr0
    rw [ho]
    rcases h w b0 hb0 hr0.symm (find?_before hm (hlt w b0 hb0) hlisted') with hout | ⟨e, rfl, he⟩
    · exact hout
    · refine absurd ?_ hlisted'
      cases e with
      | fatal detail => exact Pool.crash_gone hm.sound w detail
      | exited graceful => exact Pool.crash_gone hm.sound w _
      | _ => cases he

theorem Reachable.lt_nextId (h : Reachable c W) {w : WorkerId} {b : Bench}
    (hb : W.bench w = some b) : w < W.pool.roster.nextId := by
  refine Nat.lt_of_not_le fun hle => ?_
  have hnone : W.bench w = none := (h.inStep.tuned.harmony.fresh w hle).2
  rw [hnone] at hb
  cases hb

theorem Reachable.heralded (h : Reachable c W) : W.Heralded := by
  induction h with
  | new => exact fun w b hb => by cases hb
  | @step W W' h hs ih =>
    have hm := h.mustered
    cases hs with
    | call m now caller request =>
      exact heralded_deliver hm (fun w b hb => h.lt_nextId hb)
        fun w b hb hr he => .inl (ih w b hb hr he)
    | alarm m now a =>
      exact heralded_deliver hm (fun w b hb => h.lt_nextId hb)
        fun w b hb hr he => .inl (ih w b hb hr he)
    | report m now w0 b0 e rest _ hb0 ho =>
      refine heralded_deliver hm (fun w b hb => ?_) fun w b hb hr he => ?_
      · rcases bench_of_update hb with ⟨rfl, _⟩ | ⟨_, hb⟩
        · exact h.lt_nextId hb0
        · exact h.lt_nextId hb
      · rcases bench_of_update hb with ⟨rfl, hpop⟩ | ⟨_, hb⟩
        · cases hpop
          obtain ⟨x, hx, hclose⟩ := ih w b0 hb0 hr he
          rw [ho] at hx
          rcases List.mem_cons.mp hx with rfl | hx
          · exact .inr ⟨x, rfl, hclose⟩
          · exact .inl ⟨x, hx, hclose⟩
        · exact .inl (ih w b hb hr he)
    | ring | letGo => exact ih
    | turn w0 b0 b1 hb0 ht =>
      intro w b hb hr he
      rcases bench_of_update hb with ⟨rfl, hsome⟩ | ⟨_, hb⟩
      · cases hsome
        have hold (hr0 : b0.reported = true) (es : List Event) :
            ∃ e ∈ b0.outgoing ++ es, (Pool.crashDetail? e).isSome = true := by
          obtain ⟨x, hx, hclose⟩ := ih w b0 hb0 hr0 he
          exact ⟨x, List.mem_append_left _ hx, hclose⟩
        cases ht with
        | step => exact hold hr _
        | finish => exact hold hr _
        | abort => exact ih w b0 hb0 hr he
        | watch how =>
          obtain ⟨x, hx, hclose⟩ := heralded_events how
          exact ⟨x, List.mem_append_right _ hx, hclose⟩
      · exact ih w b hb hr he

end Workshop

namespace Workday

variable {c : Config} {D E : Workday} {o : Option Message}

/-! ## deadlines that were not armed -/

/-- a stopping worker has no deadline only if its end was reported -/
def Forgone (D : Workday) : Prop :=
  ∀ w d b, D.shop.pool.want? (.stopDeadline w) = some ⟨none, d⟩ → D.shop.bench w = some b →
    b.reported = true

theorem Reachable.forgone (h : Reachable c D) : D.Forgone := by
  induction h with
  | new => exact fun w d b hw => by cases hw
  | @step D E o hr hs ih =>
    intro w d b hw hb
    obtain ⟨since, htidy, _⟩ := hr.tidy
    cases hs with
    | hear m msg W hm ht =>
      have hin := hr.shop.inStep
      have hw' : (W.pool.handle m msg).want? (.stopDeadline w) = some ⟨none, d⟩ := hw
      rw [ht.pool.1] at hw'
      have hb' : stage D.clock W.bench (W.pool.handle m msg).outbox w = some b := hb
      rw [ht.pool.1] at hb'
      have hcases := (htidy.handled hr m ht).unarmed _ d hw'
      -- a worker that was started in this step is not stopping without a deadline
      have hold : w ∉ hired (D.shop.pool.handle m msg).outbox := by
        intro hin'
        rcases hcases with ⟨d', hd'⟩ | hatt
        · obtain ⟨e, he, _⟩ := Pool.want?_stopDeadline hd'
          exact Nat.not_lt.mpr (Pool.le_of_mem_hired hin.tuned.sound hin.tuned.outbox hin')
            (hin.tuned.sound.lt_of_find? he)
        · rw [Pool.handle_unhired hatt hin.tuned.sound hin.tuned.outbox] at hin'
          cases hin'
      rcases stage_bench hb' with ⟨_, hnew⟩ | ⟨b0, hb0, hr0, _⟩
      · exact absurd hnew hold
      · rw [hr0]
        obtain ⟨b1, hb1, hr1⟩ : ∃ b1, D.shop.bench w = some b1 ∧ b1.reported = b0.reported := by
          cases ht with
          | call | alarm => exact ⟨b0, hb0, rfl⟩
          | report v bv e rest hbv =>
            rcases bench_of_update hb0 with ⟨rfl, hpop⟩ | ⟨_, hb0⟩
            · cases hpop
              exact ⟨bv, hbv, rfl⟩
            · exact ⟨b0, hb0, rfl⟩
        rw [← hr1]
        rcases hcases with ⟨d', hd'⟩ | hatt
        · exact ih w d' b1 hd' hb1
        · cases hrep : b1.reported with
          | true => rfl
          | false =>
            rw [hm.benches w b1 hb1 hrep] at hatt
            cases hatt
    | turn v b0 b1 hb0 ht =>
      rcases bench_of_update hb with ⟨rfl, hsome⟩ | ⟨_, hb⟩
      · cases hsome
        have hold := ih w d b0 hw hb0
        cases ht with
        | watch => rfl
        | _ => exact hold
      · exact ih w d b hw hb
    | ring | letGo | pass => exact ih w d b hw hb

/-! ## the grace -/

/-- no message about the worker waits to be handled, and no deadline of it is overdue -/
structure CaughtUp (D : Workday) (w : WorkerId) : Prop where
  reports : ∀ b, D.shop.bench w = some b → b.outgoing = []
  rung : .stopDeadline w ∉ D.shop.rung
  timers : ∀ x ∈ D.shop.timers, x.alarm = .stopDeadline w → D.clock < D.due x.id

theorem CalledSince.le {a : Alarm} {time : Nat} (h : CalledSince c a time D) : time ≤ D.clock := by
  induction h with
  | begin _ hs _ hc => exact hc ▸ hs.clock
  | stay _ hs _ ih => exact Nat.le_trans ih hs.clock

/-- **a worker that the pool has caught up with is stopping for less than its grace** -/
theorem CalledSince.in_grace {w : WorkerId} {time : Nat}
    (h : CalledSince c (.stopDeadline w) time D) (hc : D.CaughtUp w) :
    D.clock < time + c.stopGrace.nanos := by
  obtain ⟨hr, hwant⟩ := h.reachable
  obtain ⟨since, htidy, rfl⟩ := h.tidy
  obtain ⟨x, hx⟩ := Option.ne_none_iff_exists'.mp hwant
  obtain ⟨e, he, _, rfl⟩ := Pool.want?_stopDeadline hx
  rw [hr.shop.manned.config] at hx
  cases hkept : e.stopTimer with
  | none =>
    rw [hkept] at hx
    obtain ⟨b, hb⟩ := hr.shop.inStep.tuned.harmony.seated w _ (Roster.post_of_find? he)
    obtain ⟨ev, hev, _⟩ := hr.shop.heralded w b hb (hr.forgone w _ b hx hb) (by rw [he]; simp)
    rw [hc.reports b hb] at hev
    cases hev
  | some i =>
    rw [hkept] at hx
    cases htidy.pending Alarm.noConfusion hx with
    | armed ha _ hd =>
      rw [← hd]
      have hmem : (⟨i, .stopDeadline w, false⟩ : Timer) ∈ D.armed (.stopDeadline w) := by
        rw [ha]
        exact List.mem_singleton_self _
      exact hc.timers _ (List.mem_filter.mp hmem).1 rfl
    | rung _ hr =>
      refine absurd (List.count_pos_iff.mp ?_) hc.rung
      rw [hr]
      exact Nat.zero_lt_one

/-! ## whoever is stopping stays so -/

theorem Step.fades (hr : Reachable c D) (hs : D.Step o E) :
    D.shop.pool.roster.Fades E.shop.pool.roster := by
  rcases hs.shop with hw | ⟨hw, _⟩
  · exact hw.fades hr.shop
  · rw [hw]
    exact .refl _

theorem Path.fades (hr : Reachable c D) {ms : List Message} (hp : D.Path ms E) :
    D.shop.pool.roster.Fades E.shop.pool.roster := by
  induction hp with
  | refl => exact .refl _
  | step hp hs ih => exact ih.trans (hs.fades (hr.path hp))

/-- as long as a stopping worker has an entry, its grace goes on -/
theorem CalledSince.follow {w : WorkerId} {time : Nat}
    (h : CalledSince c (.stopDeadline w) time D) {ms : List Message} (hp : D.Path ms E)
    (hE : E.shop.pool.roster.find? w ≠ none) : CalledSince c (.stopDeadline w) time E := by
  induction hp with
  | refl => exact h
  | @step F G ms o hp hs ih =>
    have hr := h.reachable.1
    have hfades := hs.fades (hr.path hp)
    have hlt : w < F.shop.pool.roster.nextId := by
      obtain ⟨x, hx⟩ := Option.ne_none_iff_exists'.mp h.reachable.2
      obtain ⟨e, he, _⟩ := Pool.want?_stopDeadline hx
      exact Nat.lt_of_lt_of_le (hr.shop.inStep.tuned.sound.lt_of_find? he) (hp.fades hr).next
    have hF := ih fun hn => hE (hfades.gone w hlt hn)
    obtain ⟨x, hx⟩ := Option.ne_none_iff_exists'.mp hF.reachable.2
    obtain ⟨e, he, hst, _⟩ := Pool.want?_stopDeadline hx
    obtain ⟨e', he'⟩ := Option.ne_none_iff_exists'.mp hE
    refine hF.stay hs ?_
    rw [Pool.want?_of_stopping he' (hfades.kept w hlt e e' he hst he').1]
    exact Option.some_ne_none _

/-- **whoever was asked to stop is gone when its grace has passed**, as soon as the pool has caught
up with it -/
theorem CalledSince.gone {w : WorkerId} {time : Nat}
    (h : CalledSince c (.stopDeadline w) time D) {ms : List Message} (hp : D.Path ms E)
    (hc : E.CaughtUp w) (ht : time + c.stopGrace.nanos ≤ E.clock) :
    E.shop.pool.roster.find? w = none := by
  refine Classical.byContradiction fun hE => ?_
  exact Nat.not_le.mpr ((h.follow hp hE).in_grace hc) ht

end Workday

end TaskPool
