import TaskPool.Proofs.Move
import TaskPool.Proofs.Plan
import Mathlib.Tactic.Set

/-!
# What a message makes the pool do

`Move` says what may happen in the course of any step.  A `Chore` is a move together with the
message it is done for: only a cancellation takes a task out that way, only the timeout of an
attempt ends it so, and only the news that a worker is gone removes its entry.

* `Chore m msg p q`        one thing that is done for the message `msg`
* `Chores.moves`, `steady`   every chore is a move, or starts a worker for a message that is not calm
* `stopWorker_chores`      a worker may be told to end when nobody waits for it
* `idle_of_mem_stopped`, `idle_of_mem_evict`   the autoscaler stops workers that are idle
* `autoscale_of_running`   a tick asks for news, carries a decision out and lets workers go
* `call_divides`, `report_divides`, `ring_divides`   the three forms of a message
* `handle_chores`          a message has its impact, then there are chores of its own, and last comes
                           the receipt

Why moves are not enough: that a report cancels nothing, or that only its own deadline ends a worker
that hangs, cannot be read off a relation that allows every move in every step.
-/

namespace TaskPool

open Relation

namespace Pool

inductive Chore (m : Moment) (msg : Message) : Pool → Pool → Prop where
  | reply (p : Pool) (caller : CallId) (a : Answer) (ha : ∀ id, a ≠ .accepted id)
      (hm : ∃ r, msg = .call caller r) : Chore m msg p (p.reply caller a)
  | ask (p : Pool) (w : WorkerId) : Chore m msg p (p.emit (.tell w .reportMetrics))
  | wake (p : Pool) (caller : CallId) (hm : msg = .call caller .stop) : Chore m msg p (p.wake caller)
  | promise (p : Pool) (caller : CallId) (n : Nat) (hm : msg = .call caller .stop) :
      Chore m msg p { p with stops := p.stops ++ [⟨caller, n⟩] }
  | note (p : Pool) (w : WorkerId) (f : Entry → Entry) (hf : Entry.Keeps f)
      (hw : ∀ e, (f e).waiters = e.waiters) : Chore m msg p (p.updateEntry w f)
  | await (p : Pool) (w : WorkerId) (caller : CallId) (hm : msg = .call caller .stop) :
      Chore m msg p (p.updateEntry w fun e => { e with waiters := e.waiters ++ [caller] })
  | open (p : Pool) (hm : ∃ caller, msg = .call caller .start) :
      Chore m msg p { p with running := true }
  | ticks (p : Pool) (ha : p.config.autoscaling = true) : Chore m msg p (p.armTicks m)
  | dispatch (p : Pool) (w : WorkerId) (e : Entry) (affinity : Option KindSet) (t : Ticket)
      (rest : Queue) (task : Task) (he : p.roster.find? w = some e) (hs : e.status = .idle)
      (hq : p.queue.popFor affinity = some (t, rest)) (ht : p.ledger.find? t.task = some task)
      (hr : m.reaches w = true) :
      Chore m msg p
        { p with
          queue := rest
          roster := p.roster.modify w fun e => e.setBusy t.task m.now
          ledger := p.ledger.markDispatched t.task w
          outbox := p.outbox ++ [.tell w (.task t.task t.kind task.terms.payload)] }
  | unknown (p : Pool) (affinity : Option KindSet) (t : Ticket) (rest : Queue)
      (hq : p.queue.popFor affinity = some (t, rest)) (ht : p.ledger.find? t.task = none) :
      Chore m msg p
        { p with
          queue := rest
          outbox := p.outbox ++ [.warn (.unknownTask t.task)] }
  | bounce (p : Pool) (w : WorkerId) (e : Entry) (affinity : Option KindSet) (t : Ticket)
      (rest : Queue) (he : p.roster.find? w = some e) (hs : e.status = .idle)
      (hq : p.queue.popFor affinity = some (t, rest)) (hr : m.reaches w = false) :
      Chore m msg p
        { p with
          queue := rest.push t
          outbox := p.outbox ++ [.warn (.workerGone w t.task)] }
  | retire (p : Pool) (waiter : Option CallId) (w : WorkerId) (e : Entry)
      (he : p.roster.find? w = some e) (hs : e.status ≠ .stopping) (hf : p.Free e)
      (hm : ∀ caller, waiter = some caller → msg = .call caller .stop) :
      Chore m msg p (stopWorker m waiter p w)
  | remove (p : Pool) (w : WorkerId) (e : Entry) (he : p.roster.find? w = some e)
      (hs : e.status = .stopping) (hm : msg.leaver? = some w) :
      Chore m msg p ((p.dropEntry w).dispose e)
  | cancel (p : Pool) (id : TaskId) (hm : ∃ caller, msg = .call caller (.cancel id)) :
      Chore m msg p (p.cancel id).2
  | expire (p : Pool) (id : TaskId) (attempt : UInt32) (worker : Option WorkerId)
      (ledger : Ledger) (consequences : List Consequence)
      (h : p.ledger.timeOut id attempt = some (worker, ledger, consequences))
      (hm : msg = .ring (.taskTimeout id attempt)) : Chore m msg p (p.post ledger consequences)
  | shut (p : Pool) (hm : ∃ caller, msg = .call caller .stop) : Chore m msg p p.shut
  | hire (p : Pool) (hr : p.running = true) (hm : ¬ msg.IsCalm) : Chore m msg p (p.hire m)

abbrev Chores (m : Moment) (msg : Message) : Pool → Pool → Prop := ReflTransGen (Chore m msg)

variable {m : Moment} {msg : Message}

/-- every chore is a move, or starts a worker -/
theorem Chore.move {p q : Pool} (h : Chore m msg p q) :
    Move m p q ∨ (q = p.hire m ∧ ¬ msg.IsCalm) := by
  cases h with
  | reply caller a ha => exact .inl (.reply p caller a ha)
  | ask w => exact .inl (.ask p w)
  | wake caller => exact .inl (.wake p caller)
  | promise caller n => exact .inl (.promise p ⟨caller, n⟩)
  | note w f hf => exact .inl (.note p w f hf)
  | await w =>
    exact .inl (.note p w _ ⟨fun _ => rfl, fun _ => rfl, fun _ => rfl, fun _ => rfl⟩)
  | «open» => exact .inl (.open p)
  | ticks ha => exact .inl (.ticks p ha)
  | dispatch w e affinity t rest task he hs hq ht hr =>
    exact .inl (.dispatch p w e affinity t rest task he hs hq ht hr)
  | unknown affinity t rest hq ht => exact .inl (.unknown p affinity t rest hq ht)
  | bounce w e affinity t rest he hs hq hr =>
    exact .inl (.bounce p w e affinity t rest he hs hq hr)
  | retire waiter w e he hs hf => exact .inl (.retire p waiter w e he hs hf)
  | remove w e he hs => exact .inl (.remove p w e he hs)
  | cancel id => exact .inl (.cancel p id)
  | expire id attempt worker ledger consequences h =>
    exact .inl (.expire p id attempt worker ledger consequences h)
  | shut => exact .inl (.shut p)
  | hire hr hm => exact .inr ⟨rfl, hm⟩

theorem Chores.moves {p q : Pool} (h : Chores m msg p q) : Moves m p q :=
  ReflTransGen.mono (fun _ _ h => h.move.imp_right And.left) _ _ h

/-- with a calm message no worker is started -/
theorem Chores.steady {p q : Pool} (h : Chores m msg p q) (hc : msg.IsCalm) : Steady m p q := by
  exact ReflTransGen.mono (fun _ _ h => h.move.resolve_right fun hn => hn.2 hc) _ _ h

/-! ## handing out tasks -/

theorem assign_chores (p : Pool) (w : WorkerId) : Chores m msg p (assign m p w) := by
  unfold assign
  split
  · exact .refl
  · rename_i e he
    split
    · rename_i hs
      split
      · exact .refl
      · rename_i t rest hq
        split
        · rename_i ht
          exact .single (.unknown p _ t rest hq ht)
        · rename_i task ht
          split
          · rename_i hr
            exact .single (.dispatch p w e _ t rest task he hs hq ht hr)
          · rename_i hr
            exact .single (.bounce p w e _ t rest he hs hq (by simpa using hr))
    · exact .refl

theorem assignEach_chores (ws : List WorkerId) (p : Pool) :
    Chores m msg p (assignEach m ws p) := by
  induction ws generalizing p with
  | nil => exact .refl
  | cons w ws ih =>
    rw [assignEach]
    split
    · exact .refl
    · exact (assign_chores p w).trans (ih _)

/-! ## workers that come and go -/

theorem hire_running (p : Pool) : (p.hire m).running = p.running := by
  unfold hire
  split <;> rfl

theorem hireMany_chores (n : Nat) {p : Pool} (hr : p.running = true) (hm : ¬ msg.IsCalm) :
    Chores m msg p (hireMany m n p) := by
  induction n generalizing p with
  | zero => exact .refl
  | succ n ih => exact .head (.hire p hr hm) (ih ((hire_running p).trans hr))

theorem stopWorker_chores {waiter : Option CallId} {p : Pool} {w : WorkerId}
    (h : ∀ e, p.roster.find? w = some e → e.status ≠ .stopping → p.Free e)
    (hm : ∀ caller, waiter = some caller → msg = .call caller .stop) :
    Chores m msg p (stopWorker m waiter p w) := by
  cases he : p.roster.find? w with
  | none =>
    rw [stopWorker_of_gone waiter he]
    cases waiter with
    | none => exact .refl
    | some caller => exact .single (.wake p caller (hm caller rfl))
  | some e =>
    by_cases hs : e.status = .stopping
    · rw [stopWorker_of_stopping waiter he hs]
      cases waiter with
      | none =>
        refine .single (.note p w _ ⟨fun _ => rfl, fun _ => rfl, fun _ => rfl, fun _ => rfl⟩ ?_)
        exact fun e => List.append_nil e.waiters
      | some caller => exact .single (.await p w caller (hm caller rfl))
    · exact .single (.retire p waiter w e he hs (h e he hs) hm)

/-- the worker is idle or on its way out, if it is there at all -/
def Spare (p : Pool) (w : WorkerId) : Prop :=
  ∀ e, p.roster.find? w = some e → e.status = .idle ∨ e.status = .stopping

theorem stopWorker_spare (waiter : Option CallId) {p : Pool} {x : WorkerId} (w : WorkerId)
    (h : p.Spare x) : (stopWorker m waiter p w).Spare x := by
  cases he : p.roster.find? w with
  | none =>
    rw [stopWorker_of_gone waiter he]
    obtain ⟨s, r, hw, _⟩ := foldl_wake_eq waiter.toList p
    rw [hw]
    exact h
  | some e =>
    intro e' he'
    by_cases hs : e.status = .stopping
    · rw [stopWorker_of_stopping waiter he hs] at he'
      rcases Roster.find?_modify_some he' (fun _ => rfl) with ⟨_, e0, h0, rfl⟩ | ⟨_, h0⟩
      · exact h e0 h0
      · exact h e' h0
    · rw [stopWorker_of_live waiter he hs] at he'
      rcases Roster.find?_modify_some he' (fun _ => rfl) with ⟨_, e0, _, rfl⟩ | ⟨_, h0⟩
      · exact .inr rfl
      · exact h e' h0

theorem Spare.free {p : Pool} {w : WorkerId} (h : p.Spare w) (e : Entry)
    (he : p.roster.find? w = some e) (hs : e.status ≠ .stopping) : p.Free e := by
  rcases h e he with hi | hi
  · exact .inl hi
  · exact absurd hi hs

theorem stopAll_chores (ws : List WorkerId) (p : Pool) (h : ∀ w ∈ ws, p.Spare w) :
    Chores m msg p (ws.foldl (stopWorker m none) p) := by
  induction ws generalizing p with
  | nil => exact .refl
  | cons w ws ih =>
    have hw := h w (List.mem_cons_self ..)
    refine (stopWorker_chores hw.free fun _ hn => by cases hn).trans (ih _ fun x hx => ?_)
    exact stopWorker_spare none w (h x (List.mem_cons_of_mem _ hx))

theorem stopAll_spare (waiter : Option CallId) (ws : List WorkerId) {p : Pool} {x : WorkerId}
    (h : p.Spare x) : (ws.foldl (stopWorker m waiter) p).Spare x := by
  induction ws generalizing p with
  | nil => exact h
  | cons w ws ih => exact ih (stopWorker_spare waiter w h)

/-- with nothing in flight any worker may be told to end -/
theorem stopAll_chores_of_empty (caller : CallId) (ws : List WorkerId) (p : Pool)
    (h : p.ledger = .empty) :
    Chores m (.call caller .stop) p (ws.foldl (stopWorker m (some caller)) p) := by
  induction ws generalizing p with
  | nil => exact .refl
  | cons w ws ih =>
    have hf : ∀ e, p.roster.find? w = some e → e.status ≠ .stopping → p.Free e := by
      intro e _ _
      exact .inr fun t _ => by rw [h]; rfl
    refine (stopWorker_chores hf fun _ hc => ?_).trans
      (ih _ ((stopWorker_ledger (some caller) p w).trans h))
    rw [Option.some.inj hc]

theorem finishStop_chores {p : Pool} {w : WorkerId} {e : Entry} (he : p.roster.find? w = some e)
    (hs : e.status = .stopping) (hm : msg.leaver? = some w) (hc : ¬ msg.IsCalm) :
    Chores m msg p (finishStop m p w) := by
  unfold finishStop
  rw [he]
  refine .head (.remove p w e he hs hm) ?_
  show Chores m msg _ (if _ then _ else _)
  split
  · rename_i hr
    exact .single (.hire _ hr.2 hc)
  · exact .refl

/-! ## the autoscaler -/

/-- the worker is there and idle -/
def Idle (p : Pool) (w : WorkerId) : Prop := ∃ e, p.roster.find? w = some e ∧ e.status = .idle

theorem Idle.spare {p : Pool} {w : WorkerId} (h : p.Idle w) : p.Spare w := by
  obtain ⟨e, he, hi⟩ := h
  intro e' he'
  rw [he] at he'
  cases he'
  exact .inl hi

theorem hire_idle {p : Pool} (hs : p.roster.Sound) {w : WorkerId} (h : p.Idle w) :
    (p.hire m).Idle w := by
  by_cases ha : m.attached = true
  · obtain ⟨e, he, hi⟩ := h
    have hw : w ≠ p.roster.nextId := Nat.ne_of_lt (hs.lt_of_find? he)
    refine ⟨e, ?_, hi⟩
    rw [hire_of_attached ha]
    show (p.roster.enrol m.now).find? w = some e
    rw [Roster.find?_enrol, if_neg hw, he]
  · rw [hire_of_detached (by simpa using ha)]
    exact h

theorem hireMany_idle (n : Nat) {p : Pool} (hs : p.roster.Sound) {w : WorkerId} (h : p.Idle w) :
    (hireMany m n p).Idle w := by
  induction n generalizing p with
  | zero => exact h
  | succ n ih => exact ih (hire_sound hs) (hire_idle hs h)

theorem idle_of_mem_idleByAge {p : Pool} (hs : p.roster.Sound) {w : WorkerId}
    (h : w ∈ p.gauge.idleByAge.map Load.worker) : p.Idle w := by
  obtain ⟨l, hl, rfl⟩ := List.mem_map.mp h
  obtain ⟨hl, hi⟩ := List.mem_filter.mp (List.mem_mergeSort.mp hl)
  obtain ⟨e, he, rfl⟩ := List.mem_map.mp hl
  have he' := (List.mem_filter.mp he).1
  exact ⟨e, hs.find?_of_mem he', by simpa [Load.isIdle] using hi⟩

/-- the workers that a tick stops because there are too many are idle -/
theorem idle_of_mem_stopped {p : Pool} (hs : p.roster.Sound) (c : Config) (s : Signals)
    {w : WorkerId} (h : w ∈ (p.gauge.decision c s).stopped) : p.Idle w :=
  idle_of_mem_idleByAge hs ((p.gauge.stopped_sublist c s).subset h)

/-- so are the workers it lets go because they waited for too long -/
theorem idle_of_mem_evict {p : Pool} (hs : p.roster.Sound) (now : Timestamp) {w : WorkerId}
    (h : w ∈ (p.gauge.plan p.config now).evict) : p.Idle w :=
  idle_of_mem_idleByAge hs ((Gauge.evictions_sublist p.config now _ _ _).subset h)

theorem askAll_chores (ws : List WorkerId) (p : Pool) :
    Chores m msg p (p.emitAll (ws.map fun w => .tell w .reportMetrics)) := by
  induction ws generalizing p with
  | nil =>
    rw [List.map_nil, emitAll, List.append_nil]
  | cons w ws ih =>
    refine .head (.ask p w) ?_
    have h := ih (p.emit (.tell w .reportMetrics))
    simpa [emitAll, emit] using h

theorem requestMetrics_chores (p : Pool) (w : Option WorkerId) :
    Chores m msg p (requestMetrics m p w).2 := askAll_chores _ p

/-- what the plan says of the number of workers is done -/
def carryOut (m : Moment) (p : Pool) : Decision → Pool
  | .up count => hireMany m count p
  | .down workers => workers.foldl (stopWorker m none) p
  | .hold => p

theorem carryOut_chores {p : Pool} {d : Decision} (hr : p.running = true)
    (hm : ¬ msg.IsCalm) (h : ∀ w ∈ d.stopped, p.Idle w) : Chores m msg p (carryOut m p d) := by
  cases d with
  | up count => exact hireMany_chores count hr hm
  | down workers => exact stopAll_chores workers p fun w hw => (h w hw).spare
  | hold => exact .refl

theorem carryOut_spare {p : Pool} (hs : p.roster.Sound) (d : Decision) {w : WorkerId}
    (h : p.Idle w) : (carryOut m p d).Spare w := by
  cases d with
  | up count => exact (hireMany_idle count hs h).spare
  | down workers => exact stopAll_spare none workers h.spare
  | hold => exact h.spare

/-- the decision is carried out after the pool has asked for news, and before it lets go of those
that waited for too long -/
theorem autoscale_of_running {p : Pool} (hr : p.running = true) :
    autoscale m p = (p.gauge.plan p.config m.now).evict.foldl (stopWorker m none)
      (carryOut m (requestMetrics m p none).2 (p.gauge.plan p.config m.now).decision) := by
  unfold autoscale
  rw [if_pos hr]
  rfl

theorem autoscale_of_stopped {p : Pool} (hr : p.running = false) : autoscale m p = p := by
  unfold autoscale
  rw [if_neg (by simp [hr])]

/-- nobody that the plan takes has a task -/
theorem idle_of_plan {p : Pool} (hs : p.roster.Sound) (m : Moment) :
    (∀ w ∈ (p.gauge.plan p.config m.now).decision.stopped, (requestMetrics m p none).2.Idle w) ∧
    ∀ w ∈ (p.gauge.plan p.config m.now).evict, (requestMetrics m p none).2.Idle w :=
  ⟨fun _ hw => idle_of_mem_stopped hs _ _ hw, fun _ hw => idle_of_mem_evict hs m.now hw⟩

theorem evict_chores {p : Pool} (hs : p.roster.Sound) :
    Chores m msg (carryOut m (requestMetrics m p none).2 (p.gauge.plan p.config m.now).decision)
      ((p.gauge.plan p.config m.now).evict.foldl (stopWorker m none)
        (carryOut m (requestMetrics m p none).2 (p.gauge.plan p.config m.now).decision)) := by
  have hq : (requestMetrics m p none).2.roster.Sound := hs
  exact stopAll_chores _ _ fun w hw => carryOut_spare hq _ ((idle_of_plan hs m).2 w hw)

theorem autoscale_chores {p : Pool} (hs : p.roster.Sound) :
    Chores m (.ring .autoscaleTick) p (autoscale m p) := by
  cases hr : p.running with
  | false => rw [autoscale_of_stopped hr]
  | true =>
    rw [autoscale_of_running hr]
    have hask : Chores m (.ring .autoscaleTick) p (requestMetrics m p none).2 :=
      requestMetrics_chores p none
    exact (hask.trans (carryOut_chores hr id (idle_of_plan hs m).1)).trans (evict_chores hs)

/-! ## calls and alarms -/

theorem start_chores (p : Pool) (caller : CallId) :
    Chores m (.call caller .start) p (start m p) := by
  unfold start
  split
  · exact .refl
  · refine .head (.open p ⟨caller, rfl⟩) ?_
    set q := { p with running := true }
    show Chores m _ q (if (hireMany m (q.config.minWorkers - q.roster.live.length) q).config.autoscaling
      then _ else _)
    have hm : Chores m (.call caller .start) q _ :=
      hireMany_chores (q.config.minWorkers - q.roster.live.length) rfl id
    split
    · rename_i hauto
      exact hm.tail (.ticks _ hauto)
    · exact hm

theorem stop_eq (p : Pool) (caller : CallId) :
    stop m p caller
      = match p.shut.roster.ids with
        | [] => p.shut.reply caller .done
        | workers => workers.foldl (stopWorker m (some caller))
            { p.shut with stops := p.shut.stops ++ [⟨caller, workers.length⟩] } := rfl

theorem stop_chores (p : Pool) (caller : CallId) :
    Chores m (.call caller .stop) p (stop m p caller) := by
  rw [stop_eq]
  refine .head (.shut p ⟨caller, rfl⟩) ?_
  have hl : p.shut.ledger = .empty := rfl
  set q := p.shut
  cases q.roster.ids with
  | nil => exact .single (.reply q caller .done (by simp) ⟨_, rfl⟩)
  | cons w ws =>
    exact .head (.promise q caller (w :: ws).length rfl) (stopAll_chores_of_empty _ _ _ hl)

theorem task_of_isStuckOn {p : Pool} {w : WorkerId} {task : TaskId}
    (h : p.isStuckOn w task = true) :
    ∃ e, p.roster.find? w = some e ∧ e.status = .busy ∧ e.task = some task := by
  unfold isStuckOn at h
  split at h
  · rename_i e he
    rw [Bool.and_eq_true] at h
    exact ⟨e, he, eq_of_beq h.1, eq_of_beq h.2⟩
  · cases h

theorem timeOut_chores (p : Pool) (task : TaskId) (attempt : UInt32) :
    Chores m (.ring (.taskTimeout task attempt)) p (timeOut m p task attempt) := by
  unfold timeOut
  cases h : p.ledger.timeOut task attempt with
  | none => exact .refl
  | some r =>
    obtain ⟨worker, ledger, consequences⟩ := r
    have hl : ledger.find? task = none := by
      obtain ⟨t, _, _, _, _, rfl, _⟩ := Ledger.timeOut_eq_some h
      rw [Ledger.find?_erase, if_pos rfl]
    refine .head (.expire p task attempt worker ledger consequences h rfl) ?_
    set q := p.post ledger consequences
    cases worker with
    | none => exact .refl
    | some w =>
      show Chores m _ q (if q.isStuckOn w task then stopWorker m none
        (q.updateEntry w fun e => { e with replaceOnExit := true }) w else q)
      split
      · rename_i hst
        refine .head (.note q w (fun e => { e with replaceOnExit := true })
          ⟨fun _ => rfl, fun _ => rfl, fun _ => rfl, fun _ => rfl⟩ fun _ => rfl) ?_
        refine stopWorker_chores (fun e he _ => .inr fun t ht => ?_) fun _ hn => by cases hn
        obtain ⟨e1, h1, _, htask⟩ := task_of_isStuckOn hst
        rcases Roster.find?_modify_some he (fun _ => rfl) with ⟨_, e0, h0, rfl⟩ | ⟨hne, _⟩
        · rw [h1] at h0
          cases h0
          rw [← Option.some.inj (htask.symm.trans ht)]
          exact hl
        · exact absurd rfl hne
      · exact .refl

/-! ## the whole step -/

theorem emitAll_nil (p : Pool) : p.emitAll [] = p := by
  unfold emitAll
  rw [List.append_nil]

/-- `p` becomes `q` by the impact of a message, then by its chores, and `receipt` is emitted last -/
def Divides (m : Moment) (p : Pool) (msg : Message) (q : Pool) : Prop :=
  ∃ p1 p2, Impact m p msg p1 ∧ Chores m msg p1 p2 ∧ q = p2.emitAll (p.receipt msg)

theorem Divides.of_impact {p p1 q : Pool} (h : Impact m p msg p1) (hq : Chores m msg p1 q)
    (hr : p.receipt msg = []) : Divides m p msg q :=
  ⟨p1, q, h, hq, by rw [hr, emitAll_nil]⟩

theorem Divides.of_chores {p q : Pool} (h : p.Unmoved msg) (hq : Chores m msg p q)
    (hr : p.receipt msg = []) : Divides m p msg q := .of_impact (.none msg h) hq hr

theorem call_divides (p : Pool) (caller : CallId) (r : Request) :
    Divides m p (.call caller r) (call m p caller r) := by
  have hreply {q : Pool} (h : Chores m (.call caller r) p q) {a : Answer}
      (ha : ∀ id, a ≠ .accepted id) : Chores m (.call caller r) p (q.reply caller a) :=
    h.tail (.reply q caller a ha ⟨r, rfl⟩)
  cases r with
  | start => exact .of_chores trivial (hreply (start_chores p caller) (by simp)) rfl
  | stop => exact .of_chores trivial (stop_chores p caller) rfl
  | submit id kind payload options =>
    cases hr : p.refusal? with
    | some why =>
      refine .of_chores (by simp [Unmoved, hr]) ?_ (by simp [receipt, hr])
      have h : call m p caller (.submit id kind payload options) = p.reply caller (.refused why) := by
        simp only [call, hr]
      rw [h]
      exact hreply .refl (by simp)
    | none =>
      have h : call m p caller (.submit id kind payload options)
          = (p.submit m id (terms p.config kind payload options)).reply caller (.accepted id) := by
        simp only [call, hr]
      refine ⟨_, p.submit m id (terms p.config kind payload options),
        .accept caller id kind payload options hr, assignEach_chores _ _, ?_⟩
      rw [h]
      simp only [receipt, hr]
      rfl
  | cancel id =>
    exact .of_chores trivial (hreply (.single (.cancel p id ⟨caller, rfl⟩)) (by simp)) rfl
  | status | statuses | workers | stats | getAffinity =>
    exact .of_chores trivial (hreply .refl (by simp)) rfl
  | setAffinity w kinds =>
    refine .of_chores trivial (hreply (.single (.note p w (fun e => { e with affinity := some kinds })
      ⟨fun _ => rfl, fun _ => rfl, fun _ => rfl, fun _ => rfl⟩ fun _ => rfl)) (by simp)) rfl
  | clearAffinity w =>
    refine .of_chores trivial (hreply (.single (.note p w (fun e => { e with affinity := none })
      ⟨fun _ => rfl, fun _ => rfl, fun _ => rfl, fun _ => rfl⟩ fun _ => rfl)) (by simp)) rfl
  | requestMetrics w =>
    exact .of_chores trivial (hreply (requestMetrics_chores p w) (by simp)) rfl

theorem crash_divides {p : Pool} {w : WorkerId} {event : Event} {detail : String}
    (hd : crashDetail? event = some detail)
    (hu : (∀ e, p.roster.find? w = some e → e.status = .stopping) → p.Unmoved (.report w event)) :
    Divides m p (.report w event) (crash m p w detail) := by
  have hleaves : (Message.report w event).leaver? = some w ∧ ¬ (Message.report w event).IsCalm := by
    cases event with
    | fatal | exited => exact ⟨rfl, id⟩
    | _ => cases hd
  cases he : p.roster.find? w with
  | none =>
    rw [show crash m p w detail = p by unfold crash; rw [he]]
    exact .of_chores (hu fun e h => by rw [he] at h; cases h) .refl rfl
  | some e =>
    by_cases hs : e.status = .stopping
    · have h : crash m p w detail = finishStop m p w := by
        unfold crash
        rw [he]
        simp only [if_pos hs]
      rw [h]
      refine .of_chores (hu fun e' h => ?_) (finishStop_chores he hs hleaves.1 hleaves.2) rfl
      rw [he] at h
      cases h
      exact hs
    · have hire (q : Pool) :
          Chores m (.report w event) q (if q.running then q.hire m else q) := by
        split
        · rename_i hr
          exact .single (.hire q hr hleaves.2)
        · exact .refl
      unfold crash
      rw [he]
      simp only [if_neg hs]
      cases ht : e.task with
      | none => exact .of_impact (.crash w event detail e hd he hs ht) (hire _) rfl
      | some t => exact .of_impact (.crashBusy w event detail e t hd he hs ht) (hire _) rfl

theorem report_divides (p : Pool) (w : WorkerId) (event : Event) :
    Divides m p (.report w event) (report m p w event) := by
  cases event with
  | ready =>
    unfold report
    cases he : p.roster.find? w with
    | none => exact .of_chores (fun e h => by rw [he] at h; cases h) .refl rfl
    | some e =>
      by_cases hs : e.status = .starting
      · simp only [if_pos hs]
        exact .of_impact (.ready w e he hs) (assign_chores _ w) rfl
      · simp only [if_neg hs]
        refine .of_chores (fun e' h => ?_) .refl rfl
        rw [he] at h
        cases h
        exact hs
  | busy t =>
    unfold report
    cases he : p.roster.find? w with
    | none => exact .of_chores he .refl rfl
    | some e =>
      by_cases hs : e.status = .stopping
      · simp only [if_pos hs]
        exact .of_impact (.busyLate w t e he hs) .refl rfl
      · simp only [if_neg hs]
        exact .of_impact (.busy w t e he hs) .refl rfl
  | idle =>
    unfold report
    cases he : p.roster.find? w with
    | none => exact .of_chores (fun e h => by rw [he] at h; cases h) .refl rfl
    | some e =>
      by_cases hs : e.status = .busy
      · simp only [if_pos hs]
        exact .of_impact (.idle w e he hs) (assign_chores _ w) rfl
      · simp only [if_neg hs]
        refine .of_chores (fun e' h => ?_) .refl rfl
        rw [he] at h
        cases h
        exact hs
  | result t v =>
    have note : Chore m (.report w (.result t v)) p
        (p.updateEntry w fun e => { e with processed := e.processed + 1 }) :=
      .note p w _ ⟨fun _ => rfl, fun _ => rfl, fun _ => rfl, fun _ => rfl⟩ fun _ => rfl
    by_cases ha : p.isAssignedTo t w = true
    · have ha' : (p.updateEntry w fun e =>
          { e with processed := e.processed + 1 }).isAssignedTo t w = true := ha
      have hl : (p.updateEntry w fun e => { e with processed := e.processed + 1 }).ledger
          = p.ledger := rfl
      unfold report
      simp only [if_pos ha', hl]
      cases hc : p.ledger.complete t v with
      | none => exact .of_chores (fun _ => hc) (.single note) rfl
      | some r => exact .of_impact (.result w t v r.1 r.2 ha hc) .refl rfl
    · have ha' : ¬ (p.updateEntry w fun e =>
          { e with processed := e.processed + 1 }).isAssignedTo t w = true := ha
      unfold report
      simp only [if_neg ha']
      exact .of_chores (fun h => absurd h ha) (.single note) rfl
  | error t detail =>
    have note : Chore m (.report w (.error t detail)) p
        (p.updateEntry w fun e => { e with failed := e.failed + 1 }) :=
      .note p w _ ⟨fun _ => rfl, fun _ => rfl, fun _ => rfl, fun _ => rfl⟩ fun _ => rfl
    by_cases ha : p.isAssignedTo t w = true
    · have ha' : (p.updateEntry w fun e =>
          { e with failed := e.failed + 1 }).isAssignedTo t w = true := ha
      unfold report
      simp only [if_pos ha']
      exact .of_impact (.error w t detail ha) .refl rfl
    · have ha' : ¬ (p.updateEntry w fun e =>
          { e with failed := e.failed + 1 }).isAssignedTo t w = true := ha
      unfold report
      simp only [if_neg ha']
      exact .of_chores (by simpa [Unmoved] using ha) (.single note) rfl
  | fatal detail => exact crash_divides rfl id
  | metrics sample =>
    exact .of_chores trivial (.single (.note p w _
      ⟨fun _ => rfl, fun _ => rfl, fun _ => rfl, fun _ => rfl⟩ fun _ => rfl)) rfl
  | exited graceful => exact crash_divides rfl id

theorem ring_divides {p : Pool} (hs : p.roster.Sound) (alarm : Alarm) :
    Divides m p (.ring alarm) (ring m p alarm) := by
  cases alarm with
  | taskTimeout t attempt => exact .of_chores trivial (timeOut_chores p t attempt) rfl
  | retryDue t =>
    show Divides m p _ (retry m p t)
    unfold retry
    by_cases hr : p.running = true
    · simp only [if_pos hr]
      cases h : p.ledger.resetForRetry t with
      | none => exact .of_chores (fun _ => h) .refl rfl
      | some r => exact .of_impact (.retry t r.1 r.2 hr h) (assignEach_chores _ _) rfl
    · simp only [if_neg hr]
      exact .of_chores (fun h => absurd h hr) .refl rfl
  | stopDeadline w =>
    refine .of_chores trivial ?_ rfl
    cases he : p.roster.find? w with
    | none =>
      simp only [ring, he]
      exact .refl
    | some e =>
      by_cases hst : e.status = .stopping
      · simp only [ring, he, if_pos hst]
        exact finishStop_chores he hst rfl id
      · simp only [ring, he, if_neg hst]
        exact .refl
  | autoscaleTick => exact .of_chores trivial (autoscale_chores hs) rfl

/-- **a message has its impact, then there are its chores, and the receipt comes last** -/
theorem handle_chores {p : Pool} (hs : p.roster.Sound) (msg : Message) :
    Divides m p msg (p.handle m msg) := by
  cases msg with
  | call caller r => exact call_divides p caller r
  | report w event => exact report_divides p w event
  | ring alarm => exact ring_divides hs alarm

end Pool

end TaskPool
