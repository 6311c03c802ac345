import TaskPool.Proofs.Agreement

/-!
# The course of one task

What a step does about one task, whatever else it does.

* `told`, `outcomes`   the workers that were told to run a task, and the outcomes delivered of it
* `Course`             how a task goes on: it is handed to a worker, its attempt is begun, fails ...
* `Move.follows`       a move hands it to a worker, ends it mildly or leaves it alone
* `InStep.follows_report`, `follows_call`, `Impact.follows_alarm`   what a message does about it at
                       once
* `stage_names`, `stage_began`   which benches have to do with it after that
* `Harmony.sight_of_names`   a task that is on a bench was accepted, and is over or at that worker

Everything that is said of attempts is said along these cases.
-/

namespace TaskPool

open Function Relation

namespace Effect

/-- the worker that is told to run the task -/
def told? (id : TaskId) : Effect → Option WorkerId
  | .tell w (.task t _ _) => if t = id then some w else none
  | _ => none

def outcome? (id : TaskId) : Effect → Option Outcome
  | .deliver t o => if t = id then some o else none
  | _ => none

/-- it tells nobody to run the task and delivers no outcome of it -/
def Omits (id : TaskId) (e : Effect) : Prop := e.told? id = none ∧ e.outcome? id = none

end Effect

/-- the workers that were told to run the task, one after the other -/
def told (id : TaskId) (es : List Effect) : List WorkerId := es.filterMap (Effect.told? id)

def outcomes (id : TaskId) (es : List Effect) : List Outcome := es.filterMap (Effect.outcome? id)

theorem told_append (id : TaskId) (es fs : List Effect) :
    told id (es ++ fs) = told id es ++ told id fs := List.filterMap_append

theorem outcomes_append (id : TaskId) (es fs : List Effect) :
    outcomes id (es ++ fs) = outcomes id es ++ outcomes id fs := List.filterMap_append

theorem told_eq_nil {id : TaskId} {es : List Effect} (h : ∀ e ∈ es, e.Omits id) :
    told id es = [] := List.filterMap_eq_nil_iff.mpr fun e he => (h e he).1

theorem outcomes_eq_nil {id : TaskId} {es : List Effect} (h : ∀ e ∈ es, e.Omits id) :
    outcomes id es = [] := List.filterMap_eq_nil_iff.mpr fun e he => (h e he).2

theorem mem_outcomes {id : TaskId} {es : List Effect} {o : Outcome} :
    o ∈ outcomes id es ↔ .deliver id o ∈ es := by
  constructor
  · intro h
    obtain ⟨e, he, ho⟩ := List.mem_filterMap.mp h
    cases e with
    | deliver t o' =>
      obtain ⟨ht, ho⟩ := Option.ite_none_right_eq_some.mp ho
      rw [← ht, ← Option.some.inj ho]
      exact he
    | _ => cases ho
  · intro h
    exact List.mem_filterMap.mpr ⟨_, h, if_pos rfl⟩

theorem told_consequences (id : TaskId) (cs : List Consequence) :
    told id (cs.map Consequence.effect) = [] := by
  refine List.filterMap_eq_nil_iff.mpr fun e he => ?_
  obtain ⟨c, _, rfl⟩ := List.mem_map.mp he
  cases c <;> rfl

theorem omits_disarm (id : TaskId) (t : Task) :
    ∀ e ∈ t.disarm.map Consequence.effect, e.Omits id := by
  intro e he
  obtain ⟨c, hc, rfl⟩ := List.mem_map.mp he
  obtain ⟨timer, _, rfl⟩ := List.mem_map.mp hc
  exact ⟨rfl, rfl⟩

theorem omits_farewell (id : TaskId) (entry : Entry) {replies : List Effect}
    (hr : ∀ x ∈ replies, ∃ c, x = Effect.reply c .done) :
    ∀ e ∈ Pool.farewell entry ++ replies, e.Omits id := by
  intro e he
  rcases List.mem_append.mp he with he | he
  · rcases List.mem_append.mp he with he | he
    · obtain ⟨timer, _, rfl⟩ := List.mem_map.mp he
      exact ⟨rfl, rfl⟩
    · rw [List.mem_singleton.mp he]
      exact ⟨rfl, rfl⟩
  · obtain ⟨c, rfl⟩ := hr e he
    exact ⟨rfl, rfl⟩

theorem outcomes_deliver {id : TaskId} {t : Task} (ht : t.id = id) (o : Outcome) :
    outcomes id [.deliver t.id o] = [o] :=
  List.filterMap_cons_some (if_pos ht)

/-! ## how a task goes on -/

/-- the worker at which the attempt failed this way -/
def FailureCause.By (w : WorkerId) : FailureCause → Prop
  | .handler _ => True
  | .crash v _ => v = w

/-- it does not come of an attempt that failed -/
def Mild : Outcome → Prop
  | .error (.failed _ _) | .error (.workerCrashed _ _) => False
  | _ => True

/-- from one ledger to another, while these workers are told to run the task and these outcomes of
it are delivered; `heard` are the workers that report just now that they have begun it -/
inductive Course (heard : WorkerId → Prop) (id : TaskId) (l l' : Ledger) :
    List WorkerId → List Outcome → Prop where
  | apart (hl : l'.find? id = l.find? id) : Course heard id l l' [] []
  | closed (t : Task) (os : List Outcome) (ht : l.find? id = some t) (hl : l'.find? id = none)
      (ho : ∀ o ∈ os, Mild o) : Course heard id l l' [] os
  | handed (t : Task) (w : WorkerId) (ht : l.find? id = some t) (hs : t.status = .queued)
      (hw : t.worker = none) (hl : l'.find? id = some { t with worker := some w }) :
      Course heard id l l' [w] []
  | begun (t : Task) (w : WorkerId) (now : Timestamp) (timer : Option TimerId)
      (ht : l.find? id = some t) (hs : t.status = .queued) (hw : t.worker = some w)
      (hh : heard w) (hl : l'.find? id = some (Pool.begun w now timer t)) :
      Course heard id l l' [] []
  | retried (t : Task) (w : WorkerId) (cause : FailureCause) (now : Timestamp)
      (timer : Option TimerId) (ht : l.find? id = some t) (hs : t.status = .running)
      (hw : t.worker = some w) (hr : t.retries < t.terms.maxRetries)
      (hl : l'.find? id = some (Pool.retryLater cause now timer t)) : Course heard id l l' [] []
  | exhausted (t : Task) (w : WorkerId) (cause : FailureCause) (ht : l.find? id = some t)
      (hs : t.status = .running) (hw : t.worker = some w)
      (hr : ¬ t.retries < t.terms.maxRetries) (hc : cause.By w) (hl : l'.find? id = none) :
      Course heard id l l' [] [.error (t.failure cause).unchecked]
  | reset (t : Task) (ht : l.find? id = some t) (hs : t.status = .retrying)
      (hl : l'.find? id = some (Ledger.reset t)) : Course heard id l l' [] []

namespace Ledger

theorem find?_modify_self (l : Ledger) (f : Task → Task) (hf : ∀ t, (f t).id = t.id) {id : TaskId}
    {t : Task} (ht : l.find? id = some t) : (l.modify id f).find? id = some (f t) := by
  rw [find?_modify l f hf, if_pos rfl, ht]
  rfl

theorem find?_modify_of_ne (l : Ledger) {f : Task → Task} (hf : ∀ t, (f t).id = t.id)
    {id x : TaskId} (hx : x ≠ id) : (l.modify id f).find? x = l.find? x := by
  rw [find?_modify l f hf, if_neg hx]

theorem find?_erase_self (l : Ledger) (id : TaskId) : (l.erase id).find? id = none := by
  rw [find?_erase, if_pos rfl]

theorem find?_erase_of_ne (l : Ledger) {id x : TaskId} (hx : x ≠ id) :
    (l.erase id).find? x = l.find? x := by
  rw [find?_erase, if_neg hx]

end Ledger

namespace Pool

variable {m : Moment} {heard : WorkerId → Prop} {id : TaskId}

/-- what `q` does about the task beyond `p` -/
def Follows (heard : WorkerId → Prop) (id : TaskId) (p q : Pool) : Prop :=
  ∃ es, q.outbox = p.outbox ++ es ∧
    Course heard id p.ledger q.ledger (told id es) (outcomes id es)

namespace Follows

theorem apart {p q : Pool} (es : List Effect) (ho : q.outbox = p.outbox ++ es)
    (hs : ∀ e ∈ es, e.Omits id) (hl : q.ledger.find? id = p.ledger.find? id) :
    Follows heard id p q := by
  refine ⟨es, ho, ?_⟩
  rw [told_eq_nil hs, outcomes_eq_nil hs]
  exact .apart hl

theorem silent {p q : Pool} (ho : q.outbox = p.outbox)
    (hl : q.ledger.find? id = p.ledger.find? id) : Follows heard id p q :=
  .apart [] (ho.trans (List.append_nil _).symm) (fun _ h => by cases h) hl

theorem one {p q : Pool} (e : Effect) (ho : q.outbox = p.outbox ++ [e]) (he : e.Omits id)
    (hl : q.ledger.find? id = p.ledger.find? id) : Follows heard id p q := by
  refine .apart [e] ho (fun x hx => ?_) hl
  rw [List.mem_singleton.mp hx]
  exact he

/-- what comes before says nothing about the task -/
theorem after {p p1 q : Pool} (ds : List Effect) (ho : p1.outbox = p.outbox ++ ds)
    (hs : ∀ e ∈ ds, e.Omits id) (hl : p1.ledger = p.ledger) (h : Follows heard id p1 q) :
    Follows heard id p q := by
  obtain ⟨es, he, hc⟩ := h
  refine ⟨ds ++ es, ?_, ?_⟩
  · rw [he, ho, List.append_assoc]
  · rw [told_append, outcomes_append, told_eq_nil hs, outcomes_eq_nil hs, ← hl]
    exact hc

/-- a task is taken out and its outcome delivered -/
theorem settle {p q : Pool} {x : TaskId} {t : Task} (ht : p.ledger.find? x = some t)
    (es : List Effect) (o : Outcome) (ho : q.outbox = p.outbox ++ (es ++ [.deliver t.id o]))
    (hs : ∀ e ∈ es, e.Omits id) (hl : q.ledger = p.ledger.erase x)
    (hc : x = id → q.ledger.find? id = none → Course heard id p.ledger q.ledger [] [o]) :
    Follows heard id p q := by
  have hid : t.id = x := Ledger.id_of_find? ht
  by_cases hx : x = id
  · refine ⟨_, ho, ?_⟩
    have htold : told id [.deliver t.id o] = [] := rfl
    rw [told_append, outcomes_append, told_eq_nil hs, outcomes_eq_nil hs, htold,
      outcomes_deliver (hid.trans hx)]
    refine hc hx ?_
    rw [hl, ← hx]
    exact p.ledger.find?_erase_self x
  · refine .apart _ ho (fun e he => ?_) ?_
    · rcases List.mem_append.mp he with he | he
      · exact hs e he
      · rw [List.mem_singleton.mp he]
        exact ⟨rfl, if_neg fun h => hx (hid.symm.trans h)⟩
    · rw [hl]
      exact p.ledger.find?_erase_of_ne fun h => hx h.symm

/-- a task is changed, and nothing is said about it -/
theorem change {p q : Pool} {x : TaskId} {t : Task} (ht : p.ledger.find? x = some t)
    (f : Task → Task) (hf : ∀ t, (f t).id = t.id) (es : List Effect)
    (ho : q.outbox = p.outbox ++ es) (hs : ∀ e ∈ es, e.Omits id)
    (hl : q.ledger = p.ledger.modify x f)
    (hc : x = id → q.ledger.find? id = some (f t) → Course heard id p.ledger q.ledger [] []) :
    Follows heard id p q := by
  by_cases hx : x = id
  · refine ⟨es, ho, ?_⟩
    rw [told_eq_nil hs, outcomes_eq_nil hs]
    refine hc hx ?_
    rw [hl, ← hx]
    exact p.ledger.find?_modify_self f hf ht
  · refine .apart es ho hs ?_
    rw [hl]
    exact p.ledger.find?_modify_of_ne hf fun h => hx h.symm

/-- an attempt of some task failed -/
theorem failTask {p : Pool} {x : TaskId} {w : WorkerId} {cause : FailureCause} (hb : cause.By w)
    (hx : p.ledger.sight x = none ∨ p.ledger.sight x = some (.running, some w)) :
    Follows heard id p (failTask m p x cause) := by
  have hrun {t : Task} (ht : p.ledger.find? x = some t) :
      t.status = .running ∧ t.worker = some w := by
    rw [Ledger.sight_of_find? ht] at hx
    exact Prod.mk.inj (Option.some.inj (hx.resolve_left fun h => by cases h))
  have h := failTask_cases (m := m) p x cause
  generalize Pool.failTask m p x cause = q at h
  cases h with
  | skipped => exact .silent rfl rfl
  | exhausted t ht _ hr =>
    refine .settle ht (t.disarm.map Consequence.effect) (.error (t.failure cause).unchecked) ?_
      (omits_disarm id t) rfl ?_
    · show p.outbox ++ _ = _
      rw [resolve_effects]
    · rintro rfl hq
      exact .exhausted t w cause ht (hrun ht).1 (hrun ht).2 hr hb hq
  | stranded t ht _ hr =>
    refine .change ht (retryLater cause m.now none) (fun _ => rfl)
      (t.disarm.map Consequence.effect) rfl (omits_disarm id t) rfl ?_
    rintro rfl hq
    exact .retried t w cause m.now none ht (hrun ht).1 (hrun ht).2 hr hq
  | retried t ht _ hr =>
    refine .change ht (retryLater cause m.now (some p.nextTimer)) (fun _ => rfl) _ rfl
      (fun e he => ?_) rfl ?_
    · rcases List.mem_append.mp he with he | he
      · exact omits_disarm id t e he
      · rw [List.mem_singleton.mp he]
        exact ⟨rfl, rfl⟩
    · rintro rfl hq
      exact .retried t w cause m.now (some p.nextTimer) ht (hrun ht).1 (hrun ht).2 hr hq

/-- an attempt of some task is begun -/
theorem startAttempt {p : Pool} {x : TaskId} {w : WorkerId} (hh : x = id → heard w)
    (hx : p.ledger.sight x = none ∨ p.ledger.sight x = some (.queued, some w)) :
    Follows heard id p (startAttempt m p x w) := by
  have hat {t : Task} (ht : p.ledger.find? x = some t) : t.worker = some w := by
    rw [Ledger.sight_of_find? ht] at hx
    exact (Prod.mk.inj (Option.some.inj (hx.resolve_left fun h => by cases h))).2
  have h := startAttempt_cases (m := m) p x w
  generalize Pool.startAttempt m p x w = q at h
  cases h with
  | skipped => exact .silent rfl rfl
  | untimed t ht hs =>
    refine .change ht (fun t => begun w m.now t.timer t) (fun _ => rfl) []
      (List.append_nil _).symm (fun _ h => by cases h) rfl fun hid hq => ?_
    have hw := hh hid
    subst hid
    exact .begun t w m.now t.timer ht hs (hat ht) hw hq
  | timed t ht hs =>
    refine .change ht (begun w m.now (some p.nextTimer)) (fun _ => rfl) _ rfl (fun e he => ?_)
      rfl fun hid hq => ?_
    · rcases List.mem_cons.mp he with rfl | he
      · exact ⟨rfl, rfl⟩
      · exact omits_disarm id t e he
    · have hw := hh hid
      subst hid
      exact .begun t w m.now (some p.nextTimer) ht hs (hat ht) hw hq

/-! ## moves -/

theorem dispose (p : Pool) (w : WorkerId) (e : Entry) :
    Follows heard id p ((p.dropEntry w).dispose e) := by
  obtain ⟨stops, replies, hd, hr⟩ := dispose_eq (p.dropEntry w) e
  rw [hd]
  exact .apart (farewell e ++ replies) rfl (omits_farewell id e hr) rfl

theorem retire {p : Pool} {w : WorkerId} {e : Entry} (waiter : Option CallId)
    (he : p.roster.find? w = some e) (hs : e.status ≠ .stopping) :
    Follows heard id p (stopWorker m waiter p w) := by
  rw [stopWorker_of_live waiter he hs]
  refine .apart (retirement m p w) rfl (fun x hx => ?_) rfl
  rcases List.mem_append.mp hx with hx | hx
  · split at hx
    · rw [List.mem_singleton.mp hx]
      exact ⟨rfl, rfl⟩
    · cases hx
  · split at hx
    · rw [List.mem_singleton.mp hx]
      exact ⟨rfl, rfl⟩
    · cases hx

theorem cancel (p : Pool) (x : TaskId) : Follows heard id p (p.cancel x).2 := by
  unfold Pool.cancel Ledger.cancel
  cases ht : p.ledger.find? x with
  | none => exact .silent (List.append_nil _) rfl
  | some t =>
    by_cases hs : t.status.isTerminal = true
    · simp only [if_pos hs]
      exact .silent (List.append_nil _) rfl
    · simp only [if_neg hs]
      refine .settle ht (t.disarm.map Consequence.effect) (.error .cancelled) ?_
        (omits_disarm id t) rfl ?_
      · show p.outbox ++ _ = _
        rw [resolve_effects]
      · rintro rfl hq
        refine .closed t _ ht hq fun o ho => ?_
        rw [List.mem_singleton.mp ho]
        trivial

theorem shut (p : Pool) : Follows heard id p p.shut := by
  set ds := p.autoscaleTimer.toList.map Effect.disarm
  set cs := p.ledger.tasks.flatMap fun t => t.resolve (.error .shutdown)
  have ho : p.shut.outbox = p.outbox ++ (ds ++ cs.map Consequence.effect) := by
    rw [← List.append_assoc]
    rfl
  have hdisarm : ∀ e ∈ ds, e.Omits id := by
    intro e he
    obtain ⟨timer, _, rfl⟩ := List.mem_map.mp he
    exact ⟨rfl, rfl⟩
  have hnone : p.shut.ledger.find? id = none := Ledger.find?_empty id
  have hdrained : ∀ o ∈ outcomes id (cs.map Consequence.effect), o = .error .shutdown ∧
      ∃ t ∈ p.ledger.tasks, t.id = id := by
    intro o ho
    obtain ⟨c, hc, he⟩ := List.mem_map.mp (mem_outcomes.mp ho)
    obtain ⟨t, ht, hres⟩ := List.mem_flatMap.mp hc
    rcases List.mem_append.mp hres with hres | hres
    · obtain ⟨timer, _, rfl⟩ := List.mem_map.mp hres
      cases he
    · rw [List.mem_singleton.mp hres] at he
      cases he
      exact ⟨rfl, t, ht, rfl⟩
  refine ⟨_, ho, ?_⟩
  rw [told_append, outcomes_append, told_eq_nil hdisarm, outcomes_eq_nil hdisarm,
    told_consequences]
  show Course heard id p.ledger p.shut.ledger [] (outcomes id (cs.map Consequence.effect))
  cases ht : p.ledger.find? id with
  | some t =>
    refine .closed t _ ht hnone fun o ho => ?_
    rw [(hdrained o ho).1]
    trivial
  | none =>
    have hempty : outcomes id (cs.map Consequence.effect) = [] := by
      refine List.eq_nil_iff_forall_not_mem.mpr fun o ho => ?_
      obtain ⟨_, t, ht', hid⟩ := hdrained o ho
      exact Ledger.find?_eq_none.mp ht (List.mem_map.mpr ⟨t, ht', hid⟩)
    rw [hempty]
    exact .apart (hnone.trans ht.symm)

theorem hire (p : Pool) : Follows heard id p (p.hire m) := by
  by_cases ha : m.attached = true
  · rw [hire_of_attached ha]
    exact .one _ rfl ⟨rfl, rfl⟩ rfl
  · rw [hire_of_detached (by simpa using ha)]
    exact .silent rfl rfl

end Follows

/-- **what a move does about a task** -/
theorem Move.follows {now : Nat} {bench : WorkerId → Option Bench} {taken : List TaskId}
    {p q : Pool} (h : Staged m now bench taken p) (hm : Move m p q) : Follows heard id p q := by
  cases hm with
  | reply | ask | unknown | bounce => exact .one _ rfl ⟨rfl, rfl⟩ rfl
  | wake caller =>
    obtain ⟨stops, replies, hw, hr⟩ := wake_eq p caller
    rw [hw]
    refine .apart replies rfl (fun x hx => ?_) rfl
    obtain ⟨c, rfl⟩ := hr x hx
    exact ⟨rfl, rfl⟩
  | promise | note | «open» => exact .silent rfl rfl
  | ticks =>
    unfold armTicks
    split
    · exact .one _ rfl ⟨rfl, rfl⟩ rfl
    · exact .silent rfl rfl
  | dispatch w e affinity t rest task he hi hq ht =>
    obtain ⟨task', ht', hst, hw⟩ := h.task_of_popFor hq
    rw [ht] at ht'
    cases ht'
    by_cases hx : t.task = id
    · refine ⟨_, rfl, ?_⟩
      have htold : told id [.tell w (.task t.task t.kind task.terms.payload)] = [w] :=
        List.filterMap_cons_some (if_pos hx)
      rw [htold]
      subst hx
      exact .handed task w ht hst hw
        (p.ledger.find?_modify_self (fun t => { t with worker := some w }) (fun _ => rfl) ht)
    · refine .one _ rfl ⟨if_neg hx, rfl⟩ ?_
      exact p.ledger.find?_modify_of_ne (f := fun t => { t with worker := some w })
        (fun _ => rfl) fun h => hx h.symm
  | retire waiter w e he hs => exact .retire waiter he hs
  | remove w e => exact .dispose p w e
  | cancel x => exact .cancel p x
  | expire x attempt worker ledger consequences hx =>
    obtain ⟨t, ht, _, _, _, rfl, rfl⟩ := Ledger.timeOut_eq_some hx
    refine .settle ht [] _ rfl (fun _ h => by cases h) rfl ?_
    rintro rfl hq
    refine .closed t _ ht hq fun o ho => ?_
    rw [List.mem_singleton.mp ho]
    trivial
  | shut => exact .shut p

/-! ## impacts -/

theorem Impact.follows_alarm {p q : Pool} {a : Alarm} (hi : Impact m p (.ring a) q) :
    Follows heard id p q := by
  cases hi with
  | none => exact .silent rfl rfl
  | retry x ticket ledger hr hreset =>
    obtain ⟨t, ht, hst, _, rfl⟩ := Ledger.resetForRetry_eq_some hreset
    refine .change ht Ledger.reset (fun _ => rfl) [] (List.append_nil _).symm
      (fun _ h => by cases h) rfl ?_
    rintro rfl hq
    exact .reset t ht hst hq

end Pool

namespace Workshop

section
variable {W : Workshop} (h : W.InStep) {w : WorkerId} {b : Bench} {rest : List Event}
  (hb : W.bench w = some b)
include h

/-- a task that was not accepted is not in flight -/
theorem InStep.find?_eq_none {id : TaskId} (hid : id ∉ accepted W.history) :
    W.pool.ledger.find? id = none := by
  cases ht : W.pool.ledger.find? id with
  | none => rfl
  | some t => exact absurd (h.tuned.harmony.listed id _ (Ledger.sight_of_find? ht)).1 hid

include hb

theorem InStep.sight_of_busy {t : TaskId} (ho : b.outgoing = .busy t :: rest) :
    W.pool.ledger.sight t = none ∨ W.pool.ledger.sight t = some (.queued, some w) := by
  cases h.tuned.harmony.hears hb ho rfl with
  | stale _ _ hst => exact .inl (hst t rfl)
  | busy _ _ _ _ _ ht => exact ht

theorem InStep.sight_of_error {t : TaskId} {detail : String}
    (ho : b.outgoing = .error t detail :: rest) :
    W.pool.ledger.sight t = none ∨ W.pool.ledger.sight t = some (.running, some w) := by
  cases h.tuned.harmony.hears hb ho rfl with
  | stale _ _ hst => exact .inl (hst t rfl)
  | error _ _ _ _ _ _ ht => exact ht

theorem InStep.sight_of_crash {event : Event} {detail : String} {e : Entry} {t : TaskId}
    (ho : b.outgoing = event :: rest) (hd : Pool.crashDetail? event = some detail)
    (he : W.pool.roster.find? w = some e) (hs : e.status ≠ .stopping) (ht : e.task = some t) :
    W.pool.ledger.sight t = none ∨ W.pool.ledger.sight t = some (.running, some w) := by
  have hpost : W.pool.roster.post w = some (e.status, some t) := by
    rw [Roster.post_of_find? he, ht]
  cases event with
  | fatal detail' =>
    cases h.tuned.harmony.hears hb ho rfl with
    | stale _ hp => exact (Pool.not_stale he hs hp).elim
    | fatal t' _ hp _ _ hsight =>
      have heq := (Prod.mk.inj (Option.some.inj (hpost.symm.trans hp))).2
      cases heq
      exact hsight
  | exited graceful =>
    cases h.tuned.harmony.hears hb ho rfl with
    | stale _ hp => exact (Pool.not_stale he hs hp).elim
  | _ => cases hd

end

section
variable {W : Workshop} {m : Moment} {q : Pool} {heard : WorkerId → Prop} {id : TaskId}
  (h : W.InStep)
include h

theorem InStep.follows_call {caller : CallId} {request : Request} (hd : W.Draws request)
    (hid : id ∉ accepted (W.pool.receipt (.call caller request)))
    (hi : Pool.Impact m W.pool (.call caller request) q) : Pool.Follows heard id W.pool q := by
  cases hi with
  | none => exact .silent rfl rfl
  | accept _ x kind payload options hr =>
    rw [Pool.accepted_receipt hr] at hid
    have hnew : W.pool.ledger.find? x = none := h.find?_eq_none hd
    refine .silent rfl ?_
    show (W.pool.ledger.insert _).find? id = _
    rw [Ledger.find?_insert W.pool.ledger hnew]
    exact if_neg fun hx => hid (List.mem_singleton.mpr hx)

theorem InStep.follows_report {w : WorkerId} {b : Bench} {e : Event} {rest : List Event}
    (hb : W.bench w = some b) (ho : b.outgoing = e :: rest)
    (hi : Pool.Impact m W.pool (.report w e) q) :
    Pool.Follows (fun v => v = w ∧ e = .busy id) id W.pool q := by
  cases hi with
  | none => exact .silent rfl rfl
  | ready | idle => exact .silent rfl rfl
  | busy _ t _ =>
    refine .after [] (List.append_nil _).symm (fun _ h => by cases h) rfl
      (.startAttempt (fun ht => ?_) (h.sight_of_busy hb ho))
    exact ⟨rfl, by rw [ht]⟩
  | busyLate _ t _ =>
    refine .startAttempt (fun ht => ?_) (h.sight_of_busy hb ho)
    exact ⟨rfl, by rw [ht]⟩
  | result _ t v ledger cs _ hc =>
    obtain ⟨task, ht, _, rfl, rfl⟩ := Ledger.complete_eq_some hc
    refine .settle ht (task.disarm.map Consequence.effect) (.ok v) ?_ (omits_disarm id task) rfl ?_
    · show W.pool.outbox ++ _ = _
      rw [resolve_effects]
    · rintro rfl hq
      refine .closed task _ ht hq fun o ho => ?_
      rw [List.mem_singleton.mp ho]
      trivial
  | error _ t detail =>
    refine .after [] (List.append_nil _).symm (fun _ h => by cases h) rfl
      (.failTask trivial (h.sight_of_error hb ho))
  | crash _ _ _ e => exact .dispose W.pool w e
  | crashBusy _ _ detail e t hd he hs ht =>
    obtain ⟨stops, replies, hdis, hr⟩ := Pool.dispose_eq (W.pool.dropEntry w) e
    have hsight := h.sight_of_crash hb ho hd he hs ht
    refine .after (Pool.farewell e ++ replies) (by rw [hdis]; rfl) (omits_farewell id e hr)
      (by rw [hdis]; rfl) (.failTask rfl ?_)
    rw [hdis]
    exact hsight

end

end Workshop

/-! ## the benches -/

namespace Bench

/-- the worker runs the task, or has reported that it does -/
def Began (b : Bench) (t : TaskId) : Prop := b.Executing t ∨ .busy t ∈ b.outgoing

theorem Began.names {b : Bench} {t : TaskId} (h : b.Began t) : b.Names t := by
  rcases h with h | h
  · refine .inl ?_
    rw [show b.worker.phase = .running t from h]
    rfl
  · exact .inr (.inr ⟨_, h, rfl⟩)

theorem began_pop {b : Bench} {e : Event} {rest : List Event} {t : TaskId}
    (ho : b.outgoing = e :: rest) (h : (b.pop rest).Began t) : b.Began t := by
  rcases h with h | h
  · exact .inl h
  · refine .inr ?_
    rw [ho]
    exact List.mem_cons_of_mem e h

theorem began_tell {b : Bench} {c : Command} {t : TaskId} (h : (b.tell c).Began t) :
    b.Began t := by
  unfold tell at h
  split at h <;> exact h

theorem names_of_unfinished {b : Bench} {t : TaskId} (h : t ∈ b.unfinished) : b.Names t := by
  rcases List.mem_append.mp h with h | h
  · exact .inl (Option.mem_toList.mp h)
  · obtain ⟨c, hc, ht⟩ := List.mem_filterMap.mp h
    exact .inr (.inl ⟨c, hc, ht⟩)

theorem count_unfinished_tell (b : Bench) (c : Command) (t : TaskId) (w : WorkerId) :
    (b.tell c).unfinished.count t ≤ b.unfinished.count t + (told t [.tell w c]).count w := by
  unfold tell
  split
  · have hsend : unfinished { b with worker := b.worker.send c }
        = b.unfinished ++ c.task?.toList := by
      show _ ++ (b.worker.deferred ++ (b.worker.inbox ++ [c])).filterMap Command.task? = _
      rw [← List.append_assoc, List.filterMap_append, ← List.append_assoc]
      cases c <;> rfl
    rw [hsend, List.count_append]
    refine Nat.add_le_add_left ?_ _
    cases c with
    | task x kind payload =>
      by_cases hx : x = t
      · have htold : told t [.tell w (.task x kind payload)] = [w] :=
          List.filterMap_cons_some (if_pos hx)
        rw [htold, List.count_singleton_self]
        exact List.count_le_length
      · have hnone : ([x] : List TaskId).count t = 0 :=
          List.count_eq_zero.mpr fun h => hx (List.mem_singleton.mp h).symm
        show ([x] : List TaskId).count t ≤ _
        rw [hnone]
        exact Nat.zero_le _
    | _ => exact Nat.zero_le _
  · exact Nat.le_add_right _ _

/-- a worker does not take up anything that it was not told -/
theorem Turn.sublist {b b' : Bench} (h : Turn b b') : b'.unfinished.Sublist b.unfinished := by
  have hdrop {p : Phase} {cs : List Command} (hc : cs = b.commands)
      (hp : p.task?.toList.Sublist b.worker.phase.task?.toList) :
      (p.task?.toList ++ cs.filterMap Command.task?).Sublist b.unfinished := by
    rw [hc]
    exact hp.append (.refl _)
  cases h with
  | step now memory r h =>
    cases Worker.step_cases h with
    | ready => exact hdrop rfl (List.nil_sublist _)
    | close => exact List.nil_sublist _
    | obey c v hp hc hv =>
      have hb : b.unfinished = (c :: (v.deferred ++ v.inbox)).filterMap Command.task? := by
        unfold unfinished commands
        rw [hp, hc]
        rfl
      rw [hb]
      cases c with
      | task x kind payload => exact .refl _
      | reportMetrics =>
        show (v.phase.task?.toList ++ _).Sublist _
        rw [hv]
        exact .refl _
      | terminate => exact List.nil_sublist _
    | overhear x c rest hp hi =>
      have hlater : b.worker.deferred ++ [c] ++ rest = b.commands := by
        unfold commands
        rw [hi, List.append_assoc]
        rfl
      cases c with
      | task | terminate => exact hdrop hlater (.refl _)
      | reportMetrics =>
        have hb : b.unfinished = b.worker.phase.task?.toList
            ++ (b.worker.deferred ++ rest).filterMap Command.task? := by
          unfold unfinished
          rw [← hlater, List.append_assoc, List.filterMap_append, List.filterMap_append,
            List.filterMap_append]
          rfl
        rw [hb]
        exact .refl _
  | finish now how =>
    have hclose := b.worker.finish_cases now how
    generalize b.worker.finish now how = r at hclose
    have hcommands {w : Worker} (hd : w.deferred = b.worker.deferred)
        (hi : w.inbox = b.worker.inbox) : w.deferred ++ w.inbox = b.commands := by
      rw [hd, hi]
      rfl
    cases hclose with
    | skipped => exact .refl _
    | value t v w hp hw hd hi | error t detail w hp hw hd hi =>
      refine hdrop (hcommands hd hi) ?_
      rw [hw]
      exact List.nil_sublist _
    | panic => exact List.nil_sublist _
  | abort =>
    show (unfinished ⟨b.worker.abort, _, _, _⟩).Sublist _
    unfold Worker.abort
    split
    · exact .refl _
    · exact List.nil_sublist _
  | watch => exact .refl _

/-- a worker reports that it has begun a task while it runs it -/
theorem Turn.began {b b' : Bench} {t : TaskId} (h : Turn b b') (hb : b'.Began t) :
    b.Began t ∨ b'.Executing t := by
  rcases hb with hx | hm
  · exact .inr hx
  have hnew {es : List Event} (hm : Event.busy t ∈ b.outgoing ++ es) (hes : Event.busy t ∉ es) :
      b.Began t := .inr ((List.mem_append.mp hm).resolve_right hes)
  cases h with
  | step now memory r h =>
    cases Worker.step_cases h with
    | ready => exact .inl (hnew hm (by simp))
    | close => exact .inl (hnew hm (by simp))
    | obey c v =>
      cases c with
      | task x kind payload =>
        rcases List.mem_append.mp hm with hm | hm
        · exact .inl (.inr hm)
        · cases List.mem_singleton.mp hm
          exact .inr rfl
      | reportMetrics => exact .inl (hnew hm (by simp [Worker.obey, Worker.reportMetrics]))
      | terminate => exact .inl (hnew hm (by simp [Worker.obey]))
    | overhear x c =>
      refine .inl (hnew hm ?_)
      cases c <;> simp [Worker.overhear, Worker.reportMetrics]
  | finish now how =>
    refine .inl (hnew hm ?_)
    have hclose := b.worker.finish_cases now how
    generalize b.worker.finish now how = r at hclose
    cases hclose <;> simp
  | abort => exact .inl (.inr hm)
  | watch how =>
    refine .inl (hnew hm ?_)
    cases how <;> simp [Ending.events]

end Bench

/-- who is at a bench after one bench was changed -/
theorem bench_of_update {bench : WorkerId → Option Bench} {w v : WorkerId} {o : Option Bench}
    {b : Bench} (h : update bench w o v = some b) :
    (v = w ∧ o = some b) ∨ (v ≠ w ∧ bench v = some b) := by
  by_cases hv : v = w
  · subst hv
    rw [update_self] at h
    exact .inl ⟨rfl, h⟩
  · rw [update_of_ne hv] at h
    exact .inr ⟨hv, h⟩

/-- what an effect makes of one bench -/
inductive Effect.Touch (now : Nat) (bench : WorkerId → Option Bench) (w : WorkerId) :
    Effect → Bench → Prop where
  | new : Touch now bench w (.hire w) (.new w now)
  | told (b : Bench) (c : Command) (hb : bench w = some b) :
      Touch now bench w (.tell w c) (b.tell c)
  | dismissed (b : Bench) (hb : bench w = some b) : Touch now bench w (.dismiss w) b.dismiss
  | kept (b : Bench) (e : Effect) (hb : bench w = some b) : Touch now bench w e b

theorem Effect.touch {now : Nat} {bench : WorkerId → Option Bench} {w : WorkerId} {e : Effect}
    {b : Bench} (h : e.onBench now bench w = some b) : Touch now bench w e b := by
  cases e with
  | hire v =>
    rcases bench_of_update h with ⟨rfl, hb⟩ | ⟨_, hb⟩
    · cases hb
      exact .new
    · exact .kept b _ hb
  | tell v c =>
    rcases bench_of_update h with ⟨rfl, hb⟩ | ⟨_, hb⟩
    · obtain ⟨b0, hb0, rfl⟩ := Option.map_eq_some_iff.mp hb
      exact .told b0 c hb0
    · exact .kept b _ hb
  | dismiss v =>
    rcases bench_of_update h with ⟨rfl, hb⟩ | ⟨_, hb⟩
    · obtain ⟨b0, hb0, rfl⟩ := Option.map_eq_some_iff.mp hb
      exact .dismissed b0 hb0
    · exact .kept b _ hb
  | _ => exact .kept b _ h

section
variable {now : Nat} {es : List Effect} {bench : WorkerId → Option Bench}
  {w : WorkerId} {b : Bench} (hb : stage now bench es w = some b)
include hb

/-- whoever has to do with the task after these effects was told so, or had to before -/
theorem stage_names {id : TaskId} (hn : b.Names id) :
    w ∈ told id es ∨ ∃ b0, bench w = some b0 ∧ b0.Names id := by
  induction es generalizing bench with
  | nil => exact .inr ⟨b, hb, hn⟩
  | cons e es ih =>
    rw [← List.singleton_append, told_append, List.mem_append]
    rcases ih hb with hw | ⟨b1, hb1, hn1⟩
    · exact .inl (.inr hw)
    · cases Effect.touch hb1 with
      | new => rcases hn1 with hn1 | ⟨c, hc, _⟩ | ⟨x, hx, _⟩ <;> contradiction
      | told b0 c hb0 =>
        rcases Bench.names_tell hn1 with hn0 | hc
        · exact .inr ⟨b0, hb0, hn0⟩
        · cases c with
          | task t kind payload =>
            cases hc
            exact .inl (.inl (List.mem_filterMap.mpr ⟨_, List.mem_singleton_self _, if_pos rfl⟩))
          | _ => cases hc
      | dismissed b0 hb0 => exact .inr ⟨b0, hb0, hn1⟩
      | kept _ _ hb0 => exact .inr ⟨b1, hb0, hn1⟩

/-- no effect begins a task -/
theorem stage_began {id : TaskId} (hn : b.Began id) : ∃ b0, bench w = some b0 ∧ b0.Began id := by
  induction es generalizing bench with
  | nil => exact ⟨b, hb, hn⟩
  | cons e es ih =>
    obtain ⟨b1, hb1, hn1⟩ := ih hb
    cases Effect.touch hb1 with
    | new => rcases hn1 with hn1 | hn1 <;> contradiction
    | told b0 c hb0 => exact ⟨b0, hb0, Bench.began_tell hn1⟩
    | dismissed b0 hb0 => exact ⟨b0, hb0, hn1⟩
    | kept _ _ hb0 => exact ⟨b1, hb0, hn1⟩

/-- a worker has as many attempts of a task before it as it had, and was told of -/
theorem stage_unfinished (id : TaskId) : ∃ prior : List TaskId,
    (prior = [] ∨ ∃ b0, bench w = some b0 ∧ prior = b0.unfinished) ∧
    b.unfinished.count id ≤ prior.count id + (told id es).count w := by
  induction es generalizing bench with
  | nil => exact ⟨b.unfinished, .inr ⟨b, hb, rfl⟩, Nat.le_add_right _ _⟩
  | cons e es ih =>
    obtain ⟨prior, hprior, hle⟩ := ih hb
    rw [← List.singleton_append, told_append, List.count_append]
    rcases hprior with rfl | ⟨b1, hb1, rfl⟩
    · refine ⟨[], .inl rfl, ?_⟩
      omega
    · cases Effect.touch hb1 with
      | new =>
        refine ⟨[], .inl rfl, ?_⟩
        have hnone : (Bench.new w now).unfinished = [] := rfl
        rw [hnone] at hle
        omega
      | told b0 c hb0 =>
        refine ⟨b0.unfinished, .inr ⟨b0, hb0, rfl⟩, ?_⟩
        have htell := Bench.count_unfinished_tell b0 c id w
        omega
      | dismissed b0 hb0 =>
        refine ⟨b0.unfinished, .inr ⟨b0, hb0, rfl⟩, ?_⟩
        have hsame : b0.dismiss.unfinished = b0.unfinished := rfl
        rw [hsame] at hle
        omega
      | kept _ _ hb0 =>
        refine ⟨b1.unfinished, .inr ⟨b1, hb0, rfl⟩, ?_⟩
        omega

end

/-- whoever has to do with a task, it was accepted, and is over or at that worker -/
theorem Scene.Harmony.sight_of_names {s : Scene} (h : s.Harmony) {t : TaskId} {w : WorkerId}
    {b : Bench} (hb : s.bench w = some b) (hn : b.Names t) :
    t ∈ s.taken ∧
      (s.sight t = none ∨ s.sight t = some (.queued, some w) ∨ s.sight t = some (.running, some w)) := by
  have hfit := h.fits w b hb
  generalize s.post w = x at hfit
  cases hfit with
  | gone hst | stopping hst =>
    obtain ⟨hk, hsight⟩ := hst t hn
    exact ⟨hk, .inl hsight⟩
  | starting _ hf => exact (hf.names hn).elim
  | idle _ hr => exact (hr.names hn).elim
  | pending t' _ hk hp hsight =>
    rw [hp.names hn]
    exact ⟨hk, hsight.imp_right .inl⟩
  | acked t' _ hk ha hsight =>
    rw [ha.names hn]
    exact ⟨hk, hsight.imp_right .inr⟩
  | spent _ _ _ hsp => exact (hsp.names hn).elim

/-- whoever has to do with a task, it was accepted, and it does not wait -/
theorem Scene.Harmony.of_names {s : Scene} (h : s.Harmony) {t : TaskId} {w : WorkerId}
    {b : Bench} (hb : s.bench w = some b) (hn : b.Names t) :
    t ∈ s.taken ∧ s.sight t ≠ some (.queued, none) := by
  obtain ⟨hk, hsight⟩ := h.sight_of_names hb hn
  refine ⟨hk, fun hq => ?_⟩
  rw [hq] at hsight
  rcases hsight with hsight | hsight | hsight <;> cases hsight

end TaskPool
