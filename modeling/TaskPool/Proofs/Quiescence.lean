import TaskPool.Proofs.Grace
import TaskPool.Proofs.Pledge

/-!
# A stop, and its answer

A pool that was stopped has no task, no ticket and no live worker.  The stop is answered once, when
the last of the workers it has found is gone, and not later than their grace allows.

* `Chores.off`            a pool that was stopped starts nobody unless it is started again
* `Reachable.halted`      a pool that does not run has no live worker
* `Reachable.unpledged`   a call that was not made waits for nobody and was answered nothing
* `Path.pledged`          a stop waits for the workers that it has found, until they are gone
* `Reachable.quiescent`   all of that, for every stop of every run

Why the grace of a worker that was already stopping does not start again: its deadline is the one
that was armed when it was first asked, so that every stop is answered within one grace.
-/

namespace TaskPool

open Function Relation

namespace Pool

variable {m : Moment} {msg : Message} {k : CallId} {R : List WorkerId} {total : List Answer}
  {past : List Effect}

/-- what was asked for in a step is past when the next one begins -/
theorem Pledged.flush {p : Pool} (h : Pledged k R total past p) :
    Pledged k R total (past ++ p.outbox) { p with outbox := [] } := by
  refine ⟨h.sound, h.waiters, h.below, h.owes.stops, ?_⟩
  show answers k (past ++ p.outbox ++ []) ++ _ = total
  rw [List.append_nil]
  exact h.owes.answered

/-- a request that was made is answered when those it waits for are gone, and not before -/
theorem Pledged.answers {p : Pool} (h : Pledged k R [.done] past p) (ho : p.outbox = []) :
    ((∃ w ∈ R, p.roster.find? w ≠ none) → answers k past = []) ∧
      ((∀ w ∈ R, p.roster.find? w = none) → answers k past = [.done]) := by
  have hans := h.owes.answered
  rw [ho, List.append_nil] at hans
  refine ⟨fun ⟨w, hw, hn⟩ => ?_, fun hall => ?_⟩
  · have hleft : p.left R ≠ 0 := fun hz => hn (left_eq_zero.mp hz w hw)
    rw [if_neg hleft] at hans
    simpa using hans
  · rw [if_pos (left_eq_zero.mpr hall), List.append_nil] at hans
    exact hans

/-! ## a pool that is off -/

theorem Chore.off {p q : Pool} (h : Chore m msg p q) (hm : ∀ caller, msg ≠ .call caller .start)
    (hr : p.running = false) : q.running = false ∧ q.roster.nextId = p.roster.nextId := by
  cases h with
  | wake caller =>
    obtain ⟨stops, replies, hw, _⟩ := wake_eq p caller
    rw [hw]
    exact ⟨hr, rfl⟩
  | «open» hstart =>
    obtain ⟨caller, rfl⟩ := hstart
    exact absurd rfl (hm caller)
  | ticks =>
    unfold armTicks
    split <;> exact ⟨hr, rfl⟩
  | retire waiter w e he hs =>
    rw [stopWorker_of_live waiter he hs]
    exact ⟨hr, rfl⟩
  | remove w e =>
    obtain ⟨stops, replies, hd, _⟩ := dispose_eq (p.dropEntry w) e
    rw [hd]
    exact ⟨hr, rfl⟩
  | shut => exact ⟨rfl, rfl⟩
  | hire hrun =>
    rw [hr] at hrun
    cases hrun
  | _ => exact ⟨hr, rfl⟩

theorem Chores.off {p q : Pool} (h : Chores m msg p q) (hm : ∀ caller, msg ≠ .call caller .start)
    (hr : p.running = false) : q.running = false ∧ q.roster.nextId = p.roster.nextId := by
  induction h with
  | refl => exact ⟨hr, rfl⟩
  | tail _ hc ih =>
    have hq := hc.off hm ih.1
    exact ⟨hq.1, hq.2.trans ih.2⟩

/-- a pool that was stopped stays so and starts nobody, unless it is started again -/
theorem handle_off {p : Pool} (hs : p.roster.Sound) (hr : p.running = false)
    (hm : ∀ caller, msg ≠ .call caller .start) :
    (p.handle m msg).running = false ∧ (p.handle m msg).roster.nextId = p.roster.nextId := by
  obtain ⟨p1, p2, himp, hc, hq⟩ := handle_chores (m := m) hs msg
  obtain ⟨hoff, hnext⟩ := hc.off hm (himp.running.trans hr)
  rw [hq]
  exact ⟨hoff, hnext.trans himp.modest.next⟩

end Pool

namespace Workshop

variable {c : Config} {W : Workshop}

/-- a pool that does not run has no live worker -/
theorem Reachable.halted (h : Reachable c W) : W.pool.Halted := by
  induction h with
  | new => exact fun _ => rfl
  | step hr hs ih =>
    rcases hs.heard with ⟨hpool, _⟩ | ⟨m, msg, _, _, hpool, _⟩
    · rw [hpool]
      exact ih
    · rw [hpool]
      exact Pool.handle_halted (m := m) hr.mustered ih msg

/-- a pool that does not run has nothing to do and nobody to do it -/
theorem Reachable.idle (h : Reachable c W) (hr : W.pool.running = false) :
    W.pool.ledger.ids = [] ∧ W.pool.queue.waiting = [] ∧ W.pool.roster.live = [] := by
  refine ⟨h.closed hr, List.eq_nil_iff_forall_not_mem.mpr fun t ht => ?_,
    List.eq_nil_of_length_eq_zero (h.halted hr)⟩
  obtain ⟨task, htask⟩ := h.inStep.agreement.listed t ht
  rw [Pool.running_of_find? h.closed htask] at hr
  cases hr

end Workshop

namespace Workday

open Workshop (calmMoment)

variable {c : Config} {D E F : Workday} {o : Option Message} {k : CallId} {R : List WorkerId}
  {total : List Answer} {ms : List Message}

/-! ## pledges are kept -/

/-- the pledge of a call, over all that the pool ever asked for -/
def Pledged (D : Workday) (k : CallId) (R : List WorkerId) (total : List Answer) : Prop :=
  Pool.Pledged k R total D.shop.history D.shop.pool

theorem pledged_hear {W : Workshop} {m : Moment} {msg : Message} (ht : D.shop.Takes msg W)
    (h : Pool.Pledged k R total D.shop.history (D.shop.pool.handle m msg)) :
    (D.hear W m msg).Pledged k R total := by
  obtain ⟨hpool, _, hhist, _⟩ := ht.pool
  have hflush := h.flush
  rw [← hpool, ← hhist] at hflush
  exact hflush

theorem Step.pledged (hs : D.Step o E) (ho : ∀ r, o ≠ some (.call k r))
    (h : D.Pledged k R total) : E.Pledged k R total := by
  cases hs with
  | hear m msg W hm ht =>
    exact pledged_hear ht (Pool.handle_pledged h fun r hr => ho r (by rw [hr]))
  | ring | turn | letGo | pass => exact h

theorem Step.callers (hs : D.Step o E) : D.callers ⊆ E.callers := by
  cases hs with
  | hear => exact List.subset_append_left _ _
  | ring | turn | letGo | pass => exact List.Subset.refl _

/-- no call is made twice -/
theorem Step.fresh {r : Request} (hs : D.Step (some (.call k r)) E) :
    k ∉ D.callers ∧ k ∈ E.callers := by
  cases hs with
  | hear m msg W hm ht hc =>
    exact ⟨hc k (List.mem_singleton_self k), List.mem_append_right _ (List.mem_singleton_self k)⟩

/-- a call that was not made waits for nobody and was answered nothing -/
theorem Reachable.unpledged (h : Reachable c D) (hk : k ∉ D.callers) : D.Pledged k [] [] := by
  induction h with
  | new =>
    refine ⟨.empty, fun w e he => ?_, fun w hw => (nomatch hw), rfl, rfl⟩
    cases he
  | @step D E o _ hs ih =>
    refine hs.pledged (fun r hr => ?_) (ih fun hD => hk (hs.callers hD))
    subst hr
    exact hk hs.fresh.2

theorem Path.pledged (hp : E.Path ms F) (hk : k ∈ E.callers) (h : E.Pledged k R total) :
    F.Pledged k R total ∧ k ∈ F.callers := by
  induction hp with
  | refl => exact ⟨h, hk⟩
  | step _ hs ih =>
    refine ⟨hs.pledged (fun r hr => ?_) ih.1, hs.callers ih.2⟩
    subst hr
    exact hs.fresh.1 ih.2

/-- a stop waits for the workers that it has found -/
theorem Reachable.stop_pledged (h : Reachable c D) (hs : D.Step (some (.call k .stop)) E) :
    E.Pledged k D.shop.pool.roster.ids [.done] := by
  have hold := h.unpledged hs.fresh.1
  cases hs with
  | hear m msg W hm ht => exact pledged_hear ht (Pool.stop_pledged hold)

/-! ## nobody comes to a pool that was stopped -/

theorem Path.off (hr : Reachable c E) (hp : E.Path ms F) (hrun : E.shop.pool.running = false)
    (hms : ∀ caller, .call caller .start ∉ ms) :
    F.shop.pool.running = false ∧ F.shop.pool.roster.nextId = E.shop.pool.roster.nextId := by
  induction hp with
  | refl => exact ⟨hrun, rfl⟩
  | @step F G ms o hp hs ih =>
    obtain ⟨hoff, hnext⟩ := ih fun caller hin => hms caller (List.mem_append_left _ hin)
    cases o with
    | some msg =>
      obtain ⟨m, hpool, _⟩ := hs.heard
      have hno : ∀ caller, msg ≠ .call caller .start := by
        rintro caller rfl
        exact hms caller (List.mem_append_right _ (List.mem_singleton_self _))
      have hsound := (hr.path hp).shop.inStep.tuned.sound
      obtain ⟨hoff', hnext'⟩ := Pool.handle_off (m := m) hsound hoff hno
      rw [hpool]
      exact ⟨hoff', hnext'.trans hnext⟩
    | none => cases hs <;> exact ⟨hoff, hnext⟩

/-- what a stop leaves of the workers that it has found, and that the pool is off after it -/
theorem Reachable.stopped (h : Reachable c D) (hs : D.Step (some (.call k .stop)) E) :
    E.shop.pool.running = false ∧ E.shop.pool.roster.ids = D.shop.pool.roster.ids ∧
      E.clock = D.clock ∧
      ∀ w ∈ D.shop.pool.roster.ids, E.shop.pool.want? (.stopDeadline w) ≠ none := by
  have hm := h.shop.mustered
  cases hs with
  | hear m msg W _ ht =>
    cases ht with
    | call _ _ hd =>
      obtain ⟨j, hj⟩ := Pool.stop_shifts (m := m) hm k
      refine ⟨hj.running, Pool.stop_ids _ k, rfl, fun w hw => ?_⟩
      obtain ⟨e, he⟩ := Option.ne_none_iff_exists'.mp fun hn => Roster.find?_eq_none.mp hn hw
      obtain ⟨e', he', hst, _⟩ := Pool.stop_keeps (m := m) he k
      have he'' : (D.hear D.shop m (.call k .stop)).shop.pool.roster.find? w = some e' := he'
      rw [Pool.want?_of_stopping he'' hst]
      exact Option.some_ne_none _

/-- whoever a stop has found is gone when one grace has passed since, as soon as the pool has caught
up with it -/
theorem Reachable.gone_in_time (h : Reachable c D) (hs : D.Step (some (.call k .stop)) E)
    (hp : E.Path ms F) {w : WorkerId} (hw : w ∈ D.shop.pool.roster.ids) (hc : F.CaughtUp w)
    (ht : D.clock + c.stopGrace.nanos ≤ F.clock) : F.shop.pool.roster.find? w = none := by
  obtain ⟨_, _, hclock, hwant⟩ := h.stopped hs
  obtain ⟨since, _, hcalled⟩ := (h.step hs).tidy
  have hE := hcalled _ (hwant w hw)
  have hle := hE.le
  exact hE.gone hp hc (by omega)

/-! ## all of it -/

/-- `D` is idle if it does not run, and what becomes of a stop that is handled next, as `k` -/
structure Quiescent (c : Config) (D : Workday) : Prop where
  idle : D.shop.pool.running = false →
    D.shop.pool.ledger.ids = [] ∧ D.shop.pool.queue.waiting = [] ∧ D.shop.pool.roster.live = []
  /-- it is not answered as long as somebody is there whom it has found -/
  waits : ∀ k E ms F, D.Step (some (.call k .stop)) E → E.Path ms F →
    (∃ w ∈ D.shop.pool.roster.ids, F.shop.pool.roster.find? w ≠ none) →
      answers k F.shop.history = []
  /-- it is answered once when they are gone, and never again -/
  answered : ∀ k E ms F, D.Step (some (.call k .stop)) E → E.Path ms F →
    (∀ w ∈ D.shop.pool.roster.ids, F.shop.pool.roster.find? w = none) →
      answers k F.shop.history = [.done]
  /-- that is so when their grace has passed, as soon as the pool has caught up with them -/
  prompt : ∀ k E ms F, D.Step (some (.call k .stop)) E → E.Path ms F →
    (∀ w ∈ D.shop.pool.roster.ids, F.CaughtUp w) → D.clock + c.stopGrace.nanos ≤ F.clock →
      answers k F.shop.history = [.done]
  /-- unless the pool was started again, nobody else is there then -/
  emptied : ∀ k E ms F, D.Step (some (.call k .stop)) E → E.Path ms F →
    (∀ caller, .call caller .start ∉ ms) → answers k F.shop.history ≠ [] →
      F.shop.pool.roster.ids = []

/-- **a stop quiesces the pool, and is answered exactly once**, when all are gone whom it found -/
theorem Reachable.quiescent (h : Reachable c D) : D.Quiescent c := by
  have hkept {k : CallId} {E F : Workday} {ms : List Message}
      (hs : D.Step (some (.call k .stop)) E) (hp : E.Path ms F) :=
    ((hp.pledged hs.fresh.2 (h.stop_pledged hs)).1).answers
      ((h.step hs).path hp).shop.inStep.tuned.outbox
  refine ⟨h.shop.idle, fun k E ms F hs hp => (hkept hs hp).1, fun k E ms F hs hp => (hkept hs hp).2,
    fun k E ms F hs hp hc ht => ?_, fun k E ms F hs hp hms hans => ?_⟩
  · exact (hkept hs hp).2 fun w hw => h.gone_in_time hs hp hw (hc w hw) ht
  · have hgone : ∀ w ∈ D.shop.pool.roster.ids, F.shop.pool.roster.find? w = none := by
      intro w hw
      exact Classical.byContradiction fun hn => hans ((hkept hs hp).1 ⟨w, hw, hn⟩)
    obtain ⟨hoff, hids, _, _⟩ := h.stopped hs
    have hE := h.step hs
    obtain ⟨_, hnext⟩ := hp.off hE hoff hms
    refine List.eq_nil_iff_forall_not_mem.mpr fun w hw => ?_
    have hF : F.shop.pool.roster.find? w ≠ none := fun hn => Roster.find?_eq_none.mp hn hw
    by_cases hlt : w < E.shop.pool.roster.nextId
    · -- it was there before the stop
      by_cases hold : w ∈ E.shop.pool.roster.ids
      · exact hF (hgone w (hids ▸ hold))
      · exact hF ((hp.fades hE).gone w hlt (Roster.find?_eq_none.mpr hold))
    · refine hF ((hE.path hp).shop.inStep.tuned.sound.find?_of_le ?_)
      rw [hnext]
      exact Nat.le_of_not_lt hlt

/-- the pool is stopped while its worker runs a task -/
def interrupted : Workday := begun.hear begun.shop calmMoment (.call 2 .stop)

/-- the worker goes on, and the deadline of its grace goes off -/
def outstayed : Workday :=
  let later := { interrupted with clock := 5 + Chronicle.single.stopGrace.nanos }
  { later with
    shop :=
      { later.shop with
        timers := later.shop.timers.filter fun x => x.id != 1
        rung := [.stopDeadline 1] } }

def dismissed : Workday :=
  outstayed.hear { outstayed.shop with rung := [] } calmMoment (.ring (.stopDeadline 1))

theorem step_interrupted : begun.Step (some (.call 2 .stop)) interrupted :=
  .hear calmMoment (.call 2 .stop) _ (trusts_calmMoment begun) (.call 2 .stop trivial) (by decide)

theorem path_dismissed : interrupted.Path [.ring (.stopDeadline 1)] dismissed := by
  have hlater := Path.refl.step
    (.pass (D := interrupted) (5 + Chronicle.single.stopGrace.nanos) (Nat.le_add_right 5 _))
  have hrung := hlater.step (.ring ⟨1, .stopDeadline 1, false⟩ 0 (.head _) (by decide))
  exact hrung.step (.hear calmMoment (.ring (.stopDeadline 1)) _ (trusts_calmMoment outstayed)
    (.alarm (.stopDeadline 1) (List.mem_singleton_self _)) (by decide))

/-- the stop is answered when the worker is gone -/
theorem quiescent_begun : Reachable Chronicle.single begun ∧
    answers 2 interrupted.shop.history = [] ∧ answers 2 dismissed.shop.history = [.done] ∧
    dismissed.shop.pool.roster.ids = [] := by
  have hq := Reachable.quiescent reachable_begun
  have hdone := hq.answered 2 _ _ _ step_interrupted path_dismissed (by decide)
  refine ⟨reachable_begun, ?_, hdone, ?_⟩
  · exact hq.waits 2 _ _ _ step_interrupted .refl ⟨1, by decide, by decide⟩
  · refine hq.emptied 2 _ _ _ step_interrupted path_dismissed (fun caller hin => ?_) ?_
    · cases List.mem_singleton.mp hin
    · rw [hdone]
      exact List.cons_ne_nil _ _

end Workday

end TaskPool
