import TaskPool.Proofs.Grace
import TaskPool.Proofs.Profile
import TaskPool.Proofs.Restart
import TaskPool.Proofs.Turns
import Mathlib.Algebra.BigOperators.Group.List.Basic
import Mathlib.Algebra.Group.Prod
import Mathlib.Algebra.GroupWithZero.Nat

/-!
# Two counts of the same attempts

A worker counts the attempts that it ran to their end, and the pool counts the reports of them.

* `Event.score`, `totals`   what reports add to the counts
* `Bench.Accounts b n`     a count of `n` comes to the count of the worker with the reports on their
                           way, and to each sample on its way with the reports before it
* `Pool.credit`            what a message adds to the count of an entry, before all else
* `Pool.Retains`           apart from that, entries keep their counts, and new ones begin at zero
* `Reachable.tallied`      so the two counts agree, sample by sample

Why nothing is lost when the pool gives up on an attempt: a report is counted before the pool asks
whether it still waits for it, and an entry is there until the worker behind it is gone.
-/

namespace TaskPool

open Function

/-! ## counts -/

/-- attempts that came to a value, and attempts that failed -/
abbrev Score := ℕ × ℕ

def Event.score : Event → Score
  | .result _ _ => (1, 0)
  | .error _ _ => (0, 1)
  | _ => 0

def totals (es : List Event) : Score := (es.map Event.score).sum

def Worker.score (w : Worker) : Score := (w.processed, w.failed)

def Metrics.score (s : Metrics) : Score := (s.processed, s.failed)

def Entry.score (e : Entry) : Score := (e.processed, e.failed)

theorem totals_append (es fs : List Event) : totals (es ++ fs) = totals es + totals fs := by
  rw [totals, List.map_append, List.sum_append]
  rfl

theorem totals_cons (e : Event) (es : List Event) : totals (e :: es) = e.score + totals es :=
  List.sum_cons

/-- the reports of attempts that came to a value -/
def Event.isResult : Event → Bool
  | .result _ _ => true
  | _ => false

/-- the reports of attempts that failed -/
def Event.isError : Event → Bool
  | .error _ _ => true
  | _ => false

theorem totals_eq (es : List Event) :
    totals es = (es.countP Event.isResult, es.countP Event.isError) := by
  induction es with
  | nil => rfl
  | cons e es ih =>
    rw [totals_cons, ih, List.countP_cons, List.countP_cons]
    cases e <;> simp [Event.score, Event.isResult, Event.isError, Nat.add_comm]

/-! ## a worker and its reports -/

/-- a worker had a count of `n`, goes on as `v` and reports `es`, counting what it reports -/
structure Worker.Counts (v : Worker) (n : Score) (es : List Event) : Prop where
  total : v.score = n + totals es
  /-- a sample has the counts of the moment in which it is taken -/
  samples : ∀ before s after, es = before ++ .metrics s :: after → s.score = n + totals before

namespace Worker

theorem Counts.plain {v : Worker} {n : Score} {es : List Event} (ht : v.score = n + totals es)
    (hes : ∀ e ∈ es, e.isNews = true) : v.Counts n es := by
  refine ⟨ht, fun before s after heq => ?_⟩
  have hs := hes (.metrics s) (heq ▸ List.mem_append_right _ (List.mem_cons_self ..))
  cases hs

theorem Counts.silent (v : Worker) : v.Counts v.score [] :=
  .plain (add_zero _).symm fun _ he => nomatch he

theorem counts_reportMetrics (w : Worker) (now memory : Nat) :
    (w.reportMetrics now memory).1.Counts w.score (w.reportMetrics now memory).2 := by
  refine ⟨(add_zero _).symm, fun before s after heq => ?_⟩
  cases before with
  | nil =>
    cases heq
    exact (add_zero _).symm
  | cons e before =>
    have htail := (List.cons.inj heq).2
    cases before <;> cases htail

theorem counts_obey (w : Worker) (now memory : Nat) (c : Command) :
    (w.obey now memory c).1.Counts w.score (w.obey now memory c).2 := by
  cases c with
  | task id kind payload =>
    refine .plain (add_zero _).symm fun e he => ?_
    rw [List.mem_singleton.mp he]
    rfl
  | reportMetrics => exact w.counts_reportMetrics now memory
  | terminate => exact .silent _

theorem counts_overhear (w : Worker) (now memory : Nat) (c : Command) :
    (w.overhear now memory c).1.Counts w.score (w.overhear now memory c).2 := by
  cases c with
  | reportMetrics => exact w.counts_reportMetrics now memory
  | _ => exact .silent _

theorem counts_step {w : Worker} {now memory : Nat} {r : Worker × List Event}
    (h : w.step now memory = some r) : r.1.Counts w.score r.2 := by
  unfold step at h
  split at h
  · cases h
    refine .plain (add_zero _).symm fun e he => ?_
    rw [List.mem_singleton.mp he]
    rfl
  · split at h
    · rename_i c rest _
      cases h
      exact counts_obey { w with deferred := rest } now memory c
    · rename_i c rest _ _
      cases h
      exact counts_obey { w with inbox := rest } now memory c
    · split at h
      · cases h
      · cases h
        exact .silent _
  · split at h
    · rename_i c rest _
      cases h
      exact counts_overhear { w with inbox := rest } now memory c
    · cases h
  · cases h

/-- a worker counts an attempt in the step in which it reports it -/
theorem counts_finish (w : Worker) (now : Nat) (how : Ended) :
    (w.finish now how).1.Counts w.score (w.finish now how).2 := by
  have hnews (e : Event) (he : e.isNews = true) : ∀ x ∈ [e, .idle], x.isNews = true := by
    intro x hx
    rcases List.mem_cons.mp hx with rfl | hx
    · exact he
    · rw [List.mem_singleton.mp hx]
      rfl
  unfold finish
  split
  · cases how with
    | value v => exact .plain rfl (hnews _ rfl)
    | error causes => exact .plain rfl (hnews _ rfl)
    | panic detail => exact .silent _
  · exact .silent _

end Worker

namespace Bench

/-- a count of `n` comes to the count of the worker with the reports on their way -/
structure Accounts (b : Bench) (n : Score) : Prop where
  total : n + totals b.outgoing = b.worker.score
  samples : ∀ before s after, b.outgoing = before ++ .metrics s :: after →
    n + totals before = s.score

variable {b b' : Bench} {n : Score}

theorem accounts_new (w : WorkerId) (now : Nat) : (Bench.new w now).Accounts 0 :=
  ⟨rfl, fun before _ _ h => by cases before <;> cases h⟩

/-- what is done to a worker from outside leaves its count and its reports alone -/
theorem Accounts.same (h : b.Accounts n) (ht : b'.worker.score = b.worker.score)
    (ho : b'.outgoing = b.outgoing) : b'.Accounts n := by
  refine ⟨?_, fun before s after => ?_⟩
  · rw [ho, ht]
    exact h.total
  · rw [ho]
    exact h.samples before s after

theorem Accounts.tell (h : b.Accounts n) (c : Command) : (b.tell c).Accounts n := by
  unfold Bench.tell
  split
  · exact h.same rfl rfl
  · exact h

/-- more reports come after those on their way -/
theorem Accounts.append {w : Worker} {es : List Event} (h : b.Accounts n)
    (hc : w.Counts b.worker.score es) (doomed reported : Bool) :
    Accounts ⟨w, b.outgoing ++ es, doomed, reported⟩ n := by
  refine ⟨?_, fun before s after heq => ?_⟩
  · show n + totals (b.outgoing ++ es) = w.score
    rw [totals_append, ← add_assoc, h.total, hc.total]
  · rcases List.append_eq_append_iff.mp heq with ⟨as, rfl, htail⟩ | ⟨as, hout, htail⟩
    · rw [hc.samples as s after htail, totals_append, ← add_assoc, h.total]
    · cases as with
      | nil =>
        rw [List.append_nil] at hout
        rw [hc.samples [] s after htail.symm, ← hout, h.total]
        rfl
      | cons x as =>
        obtain ⟨rfl, _⟩ := List.cons.inj htail
        exact h.samples before s as hout

theorem Accounts.turn (h : b.Accounts n) (ht : b.Turn b') : b'.Accounts n := by
  cases ht with
  | step now memory r hr => exact h.append (Worker.counts_step hr) _ _
  | finish now how => exact h.append (b.worker.counts_finish now how) _ _
  | abort =>
    refine h.same ?_ rfl
    show b.worker.abort.score = _
    unfold Worker.abort
    split <;> rfl
  | watch how =>
    refine h.append (.plain ?_ fun e he => ?_) _ _
    · cases how <;> exact (add_zero _).symm
    · cases how <;> simp only [Ending.events, List.mem_cons, List.not_mem_nil, or_false] at he
      · rw [he]
        rfl
      · rw [he]
        rfl
      · rcases he with rfl | rfl <;> rfl

theorem Accounts.pop {e : Event} {rest : List Event} (h : b.Accounts n)
    (ho : b.outgoing = e :: rest) : (b.pop rest).Accounts (n + e.score) := by
  refine ⟨?_, fun before s after heq => ?_⟩
  · show n + e.score + totals rest = b.worker.score
    rw [← h.total, ho, totals_cons, add_assoc]
  · have hrest : b.outgoing = (e :: before) ++ .metrics s :: after := by
      rw [ho, show rest = _ from heq]
      rfl
    rw [← h.samples (e :: before) s after hrest, totals_cons, add_assoc]

end Bench

/-! ## what effects do to a count -/

section
variable {now : Nat} {w : WorkerId} {n : Score}

theorem Effect.accounts {e : Effect} {bench : WorkerId → Option Bench}
    (hb : ∃ b, bench w = some b ∧ b.Accounts n) (hw : e.hires? ≠ some w) :
    ∃ b, e.onBench now bench w = some b ∧ b.Accounts n := by
  obtain ⟨b, hb, ha⟩ := hb
  have hsome {v : WorkerId} {f : Bench → Bench} (hf : (f b).Accounts n) :
      ∃ b', update bench v ((bench v).map f) w = some b' ∧ b'.Accounts n := by
    by_cases hv : w = v
    · subst hv
      rw [update_self, hb]
      exact ⟨f b, rfl, hf⟩
    · rw [update_of_ne hv]
      exact ⟨b, hb, ha⟩
  cases e with
  | hire v =>
    have hv : w ≠ v := fun h => hw (h ▸ rfl)
    show ∃ b, update bench v _ w = some b ∧ _
    rw [update_of_ne hv]
    exact ⟨b, hb, ha⟩
  | tell v c => exact hsome (ha.tell c)
  | dismiss v => exact hsome (f := Bench.dismiss) (ha.same rfl rfl)
  | _ => exact ⟨b, hb, ha⟩

theorem stage_accounts (es : List Effect) {bench : WorkerId → Option Bench}
    (hb : ∃ b, bench w = some b ∧ b.Accounts n) (hw : w ∉ hired es) :
    ∃ b, stage now bench es w = some b ∧ b.Accounts n := by
  induction es generalizing bench with
  | nil => exact hb
  | cons e es ih =>
    rw [← List.singleton_append, hired_append, List.mem_append, not_or] at hw
    refine ih (Effect.accounts hb fun he => hw.1 ?_) hw.2
    exact List.mem_filterMap.mpr ⟨e, List.mem_singleton_self e, he⟩

/-- a worker that is started has a count of zero -/
theorem stage_accounts_hired (es : List Effect) {bench : WorkerId → Option Bench}
    (hw : w ∈ hired es) : ∃ b, stage now bench es w = some b ∧ b.Accounts 0 := by
  induction es generalizing bench with
  | nil => cases hw
  | cons e es ih =>
    by_cases hlater : w ∈ hired es
    · exact ih hlater
    · rw [← List.singleton_append, hired_append, List.mem_append] at hw
      obtain ⟨x, hx, he⟩ := List.mem_filterMap.mp (hw.resolve_right hlater)
      obtain rfl := List.mem_singleton.mp hx
      refine stage_accounts es ?_ hlater
      cases x with
      | hire v =>
        cases he
        exact ⟨.new w now, update_self .., Bench.accounts_new w now⟩
      | _ => cases he

end

/-! ## the counts of the pool -/

namespace Roster

def score (r : Roster) (w : WorkerId) : Option Score := (r.find? w).map Entry.score

theorem score_modify (r : Roster) (f : Entry → Entry) (hf : ∀ e, (f e).worker = e.worker)
    (n : Score) (ht : ∀ e, (f e).score = e.score + n) (w x : WorkerId) :
    (r.modify w f).score x = if x = w then (r.score x).map (· + n) else r.score x := by
  rw [score, find?_modify r f hf]
  split
  · rw [score, Option.map_map, Option.map_map]
    congr 1
    exact funext ht
  · rfl

end Roster

namespace Pool

variable {m : Moment}

/-- what a message adds to the counts -/
def credit (p : Pool) : Message → Pool
  | .report w (.result _ _) => p.updateEntry w fun e => { e with processed := e.processed + 1 }
  | .report w (.error _ _) => p.updateEntry w fun e => { e with failed := e.failed + 1 }
  | _ => p

/-- from `p` to `q` entries keep their counts, and those that come new have counted nothing -/
structure Retains (p q : Pool) : Prop where
  sound : q.roster.Sound
  next : p.roster.nextId ≤ q.roster.nextId
  scores : ∀ w n, q.roster.score w = some n →
    p.roster.score w = some n ∨ (p.roster.nextId ≤ w ∧ n = 0)

theorem credit_nextId (p : Pool) (msg : Message) :
    (p.credit msg).roster.nextId = p.roster.nextId := by
  unfold credit
  split <;> rfl

/-- nothing else that a message tells about a worker is a count -/
theorem score_jot (p : Pool) (msg : Message) :
    (p.jot msg).roster.score = (p.credit msg).roster.score := by
  have hplain (w : WorkerId) (f : Entry → Entry) (hf : ∀ e, (f e).worker = e.worker)
      (ht : ∀ e, (f e).score = e.score) : (p.roster.modify w f).score = p.roster.score := by
    funext x
    rw [Roster.score_modify p.roster f hf 0 fun e => (ht e).trans (add_zero _).symm]
    simp
  cases msg with
  | call caller r =>
    cases r with
    | setAffinity w kinds =>
      apply hplain w fun e => { e with affinity := some kinds }
      all_goals exact fun _ => rfl
    | clearAffinity w =>
      apply hplain w fun e => { e with affinity := none }
      all_goals exact fun _ => rfl
    | _ => rfl
  | report w event =>
    cases event with
    | metrics sample =>
      apply hplain w fun e => e.recordMetrics sample
      all_goals exact fun _ => rfl
    | _ => rfl
  | ring => rfl

/-- **a message changes no count but by the report that it is** -/
theorem handle_retains {p : Pool} (h : p.roster.Sound) (msg : Message) :
    Retains (p.credit msg) (p.handle m msg) := by
  have hup := handle_upholds (m := m) h msg
  have hnext : (p.credit msg).roster.nextId = (p.jot msg).roster.nextId :=
    (credit_nextId p msg).trans (jot_nextId p msg).symm
  refine ⟨hup.sound, hnext ▸ hup.next, ?_⟩
  intro w n hn
  obtain ⟨e, he, rfl⟩ := Option.map_eq_some_iff.mp hn
  rcases hup.profiles w e.profile (Roster.profile_of_find? he) with hold | ⟨hle, hblank⟩
  · obtain ⟨e', he', hsame⟩ := Roster.profile_eq_some hold
    left
    rw [← score_jot, Roster.score, he']
    exact congrArg (fun x : Profile => some (x.processed, x.failed)) hsame
  · right
    refine ⟨hnext ▸ hle, ?_⟩
    exact congrArg (fun x : Profile => (x.processed, x.failed)) hblank

theorem score_credit_report (p : Pool) (w x : WorkerId) (e : Event) :
    (p.credit (.report w e)).roster.score x
      = if x = w then (p.roster.score x).map (· + e.score) else p.roster.score x := by
  have hsame : p.roster.score x
      = if x = w then (p.roster.score x).map (· + 0) else p.roster.score x := by
    split <;> simp
  cases e with
  | result t v =>
    exact Roster.score_modify p.roster (fun e => { e with processed := e.processed + 1 })
      (fun _ => rfl) (1, 0) (fun _ => rfl) w x
  | error t detail =>
    exact Roster.score_modify p.roster (fun e => { e with failed := e.failed + 1 })
      (fun _ => rfl) (0, 1) (fun _ => rfl) w x
  | _ => exact hsame

end Pool

/-! ## whole runs -/

namespace Workshop

variable {c : Config} {W V : Workshop}

/-- every count of the pool comes to that of its worker, with the reports on their way -/
def Booked (p : Pool) (bench : WorkerId → Option Bench) : Prop :=
  ∀ w n, p.roster.score w = some n → ∃ b, bench w = some b ∧ b.Accounts n

theorem booked_deliver (hs : V.pool.roster.Sound) (ho : V.pool.outbox = [])
    (hlt : ∀ w b, V.bench w = some b → w < V.pool.roster.nextId) (m : Moment) (now : Nat)
    (msg : Message) (h : Booked (V.pool.credit msg) V.bench) :
    Booked (V.deliver m now msg).pool (V.deliver m now msg).bench := by
  intro w n hn
  have hretains := Pool.handle_retains (m := m) hs msg
  obtain ⟨k, hnext, hhired⟩ := Pool.handle_numbers (m := m) hs msg
  rw [ho] at hhired
  have hmem : w ∈ hired (V.pool.handle m msg).outbox ↔
      V.pool.roster.nextId ≤ w ∧ w < V.pool.roster.nextId + k := by
    rw [hhired]
    exact List.mem_range'_1
  rcases hretains.scores w n hn with hold | ⟨hle, rfl⟩
  · obtain ⟨b, hb, ha⟩ := h w n hold
    refine stage_accounts _ ⟨b, hb, ha⟩ fun hw => ?_
    exact Nat.not_lt.mpr (hmem.mp hw).1 (hlt w b hb)
  · obtain ⟨e, he, _⟩ := Option.map_eq_some_iff.mp hn
    refine stage_accounts_hired _ (hmem.mpr ⟨by rwa [Pool.credit_nextId] at hle, ?_⟩)
    rw [← hnext]
    exact hretains.sound.lt_of_find? he

/-- a report that is taken is counted, so it is no longer on its way -/
theorem Booked.report (h : Booked W.pool W.bench) {w : WorkerId} {b : Bench} {e : Event}
    {rest : List Event} (hb : W.bench w = some b) (ho : b.outgoing = e :: rest) :
    Booked (W.pool.credit (.report w e)) (W.setBench w (b.pop rest)).bench := by
  intro x n hn
  rw [Pool.score_credit_report] at hn
  show ∃ b', update W.bench w (some (b.pop rest)) x = some b' ∧ _
  by_cases hx : x = w
  · subst hx
    rw [if_pos rfl] at hn
    obtain ⟨k, hk, rfl⟩ := Option.map_eq_some_iff.mp hn
    obtain ⟨b', hb', ha⟩ := h x k hk
    rw [hb] at hb'
    cases hb'
    exact ⟨b.pop rest, update_self .., ha.pop ho⟩
  · rw [if_neg hx] at hn
    rw [update_of_ne hx]
    exact h x n hn

theorem Reachable.booked (h : Reachable c W) : Booked W.pool W.bench := by
  induction h with
  | new => exact fun w n hn => nomatch hn
  | @step W W' h hs ih =>
    have hsound := h.inStep.tuned.sound
    have hempty := h.inStep.tuned.outbox
    have hlt (w : WorkerId) (b : Bench) (hb : W.bench w = some b) := h.lt_nextId hb
    cases hs with
    | call m now caller request =>
      exact booked_deliver hsound hempty hlt m now (.call caller request) ih
    | report m now w b e rest _ hb ho =>
      refine booked_deliver (V := W.setBench w (b.pop rest)) hsound hempty (fun x b' hb' => ?_) m
        now (.report w e) (ih.report hb ho)
      rcases bench_of_update hb' with ⟨rfl, _⟩ | ⟨_, hb'⟩
      · exact hlt x b hb
      · exact hlt x b' hb'
    | alarm m now a =>
      exact booked_deliver (V := { W with rung := W.rung.erase a }) hsound hempty hlt m now
        (.ring a) ih
    | turn w b b' hb ht =>
      intro x n hn
      show ∃ b'', update W.bench w (some b') x = some b'' ∧ _
      by_cases hx : x = w
      · subst hx
        obtain ⟨b0, hb0, ha⟩ := ih x n hn
        rw [hb] at hb0
        cases hb0
        exact ⟨b', update_self .., ha.turn ht⟩
      · rw [update_of_ne hx]
        exact ih x n hn
    | ring | letGo => exact ih

/-- what the pool and the workers have counted -/
structure Tallied (W : Workshop) : Prop where
  /-- the reports on their way make the difference -/
  entries : ∀ w e, W.pool.roster.find? w = some e → ∃ b, W.bench w = some b ∧
    e.processed + b.outgoing.countP Event.isResult = b.worker.processed ∧
    e.failed + b.outgoing.countP Event.isError = b.worker.failed
  /-- a sample that is handled says what the entry says -/
  samples : ∀ m now w b s rest e, W.bench w = some b → b.outgoing = .metrics s :: rest →
    W.pool.roster.find? w = some e →
      e.processed = s.processed ∧ e.failed = s.failed ∧
      ((W.setBench w (b.pop rest)).deliver m now (.report w (.metrics s))).pool.roster.find? w
        = some (e.recordMetrics s)

/-- **the two counts of attempts agree**, whatever became of the tasks, and whether or not the
worker is about to end -/
theorem Reachable.tallied (h : Reachable c W) : W.Tallied := by
  have hbooked (w : WorkerId) (e : Entry) (he : W.pool.roster.find? w = some e) :
      ∃ b, W.bench w = some b ∧ b.Accounts e.score := by
    refine h.booked w e.score ?_
    rw [Roster.score, he]
    rfl
  refine ⟨fun w e he => ?_, fun m now w b s rest e hb ho he => ?_⟩
  · obtain ⟨b, hb, ha⟩ := hbooked w e he
    have htotal := ha.total
    rw [totals_eq, Prod.ext_iff] at htotal
    exact ⟨b, hb, htotal⟩
  · obtain ⟨b', hb', ha⟩ := hbooked w e he
    rw [hb] at hb'
    cases hb'
    have hsample : e.score + 0 = s.score := ha.samples [] s rest ho
    rw [add_zero, Prod.ext_iff] at hsample
    refine ⟨hsample.1, hsample.2, ?_⟩
    show (W.pool.roster.modify w fun e => e.recordMetrics s).find? w = _
    rw [Roster.find?_modify _ (fun e => e.recordMetrics s) (fun _ => rfl), if_pos rfl, he]
    rfl

/-- a worker that has run its first task and is asked for news -/
def sampled : Bench :=
  let asked := relieved.tell .reportMetrics
  let answer := { asked.worker with inbox := [] }.reportMetrics 0 0
  { asked with
    worker := answer.1
    outgoing := asked.outgoing ++ answer.2 }

/-- the same worker after it was asked to end, and some of its reports were handled -/
def recalling (handled : Nat) : Bench :=
  let told := sampled.tell .terminate
  told.pop (told.outgoing.drop handled)

/-- the pool was stopped while the reports were on their way; all but the last one were handled -/
def recalled : Workshop :=
  let asked := ((oneHanded.setBench 1 working).setBench 1 relieved).deliver calmMoment 0
    (.call 2 (.requestMetrics none))
  let stopped := (asked.setBench 1 sampled).deliver calmMoment 0 (.call 3 .stop)
  let begun := (stopped.setBench 1 (recalling 1)).deliver calmMoment 0 (.report 1 (.busy ⟨7⟩))
  let ended := (begun.setBench 1 (recalling 2)).deliver calmMoment 0
    (.report 1 (.result ⟨7⟩ .null))
  (ended.setBench 1 (recalling 3)).deliver calmMoment 0 (.report 1 .idle)

theorem reachable_recalled : Reachable Chronicle.single recalled := by
  have hworking := reachable_oneHanded.step
    (.turn 1 ((announced.pop []).tell (.task ⟨7⟩ .cacheCleanup .null)) working rfl
      (.step 0 0 (working.worker, [.busy ⟨7⟩]) rfl))
  have hrelieved := hworking.step (.turn 1 working relieved rfl (.finish 0 (.value .null)))
  have hasked := hrelieved.step
    (.call calmMoment 0 2 (.requestMetrics none) (admits_calmMoment _) trivial)
  have hsampled := hasked.step
    (.turn 1 (relieved.tell .reportMetrics) sampled rfl (.step 0 0 _ rfl))
  have hstopped := hsampled.step (.call calmMoment 0 3 .stop (admits_calmMoment _) trivial)
  have hbegun := hstopped.step (.report calmMoment 0 1 (recalling 0) (.busy ⟨7⟩)
    (recalling 1).outgoing (admits_calmMoment _) rfl rfl)
  have hended := hbegun.step (.report calmMoment 0 1 (recalling 1) (.result ⟨7⟩ .null)
    (recalling 2).outgoing (admits_calmMoment _) rfl rfl)
  exact hended.step (.report calmMoment 0 1 (recalling 2) .idle (recalling 3).outgoing
    (admits_calmMoment _) rfl rfl)

/-- the worker is about to end and its task was given up, and yet both have counted the attempt -/
theorem tallied_recalled : Reachable Chronicle.single recalled ∧ recalled.Tallied ∧
    outcomes ⟨7⟩ recalled.history = [.error .shutdown] ∧
    ∃ b s e, recalled.bench 1 = some b ∧ b.outgoing = [.metrics s] ∧
      recalled.pool.roster.find? 1 = some e ∧ e.status = .stopping ∧ e.processed = 1 ∧
      s.processed = 1 := by
  obtain ⟨b, s, e, hb, ho, he, hs, hprocessed⟩ : ∃ b s e, recalled.bench 1 = some b ∧
      b.outgoing = [.metrics s] ∧ recalled.pool.roster.find? 1 = some e ∧
      e.status = .stopping ∧ e.processed = 1 := ⟨_, _, _, rfl, rfl, rfl, rfl, rfl⟩
  have h := reachable_recalled.tallied
  have hsample := (h.samples calmMoment 0 1 b s [] e hb ho he).1
  exact ⟨reachable_recalled, h, rfl, b, s, e, hb, ho, he, hs, hprocessed, hsample ▸ hprocessed⟩

end Workshop

end TaskPool
