import TaskPool.Proofs.Bench
import TaskPool.Proofs.Size

/-!
# What the pool does not look at

The pool keeps points in time and the last samples of its workers in order to tell them.  A pool
that does not scale itself looks at none of them.

* `Veil`               other points in time, and other samples, in place of those there are
* `Veil.roster`, `Veil.ledger`, `Veil.pool`   the records seen through a veil
* `Effect.isOrdinary`  what is asked for neither on behalf of an observer nor of the autoscaler
* `Veil.handle`        what a message does is the same before and behind a veil, and ordinary
* `Pool.handle_alike`   two pools that differ in points in time and in samples only do the same
* `Pool.handle_observer`   a message of an observer does nothing that shows behind a dense veil

Why one statement for every veil: a veil that leaves all as it is says that what is asked for is
ordinary, and one that covers all says that two pools that differ in times and samples only do the
same.
-/

namespace TaskPool

/-! ## observers -/

/-- a caller asks for something to be told, and for nothing to be done -/
def Request.observes : Request → Bool
  | .status _ | .statuses | .workers | .stats | .getAffinity _ | .requestMetrics _ => true
  | _ => false

/-- what only an observer is answered -/
def Answer.observes : Answer → Bool
  | .task _ | .tasks _ | .workers _ | .stats _ | .affinity _ | .asked _ => true
  | _ => false

/-- a caller asks for something to be told, or a worker tells what it was asked for -/
def Message.observes : Message → Bool
  | .call _ r => r.observes
  | .report _ e => !e.isNews
  | .ring _ => false

/-- asked for on behalf of an observer -/
def Effect.observes : Effect → Bool
  | .reply _ a => a.observes
  | .tell _ c => !c.isOrder
  | _ => false

/-- a timer of the autoscaler is set -/
def Effect.ticks : Effect → Bool
  | .arm _ _ a => a == .autoscaleTick
  | .armEvery _ _ _ => true
  | _ => false

/-- asked for neither on behalf of an observer nor of the autoscaler -/
def Effect.isOrdinary (e : Effect) : Bool := !e.observes && !e.ticks

theorem ordinary_consequences (cs : List Consequence) :
    ∀ e ∈ cs.map Consequence.effect, e.isOrdinary = true := by
  intro e he
  obtain ⟨c, _, rfl⟩ := List.mem_map.mp he
  cases c <;> rfl

theorem filter_ordinary {es : List Effect} (h : ∀ e ∈ es, e.isOrdinary = true)
    (past : List Effect) :
    (past ++ es).filter Effect.isOrdinary = past.filter Effect.isOrdinary ++ es := by
  rw [List.filter_append, List.filter_eq_self.mpr h]

theorem filter_ordinary_one {e : Effect} (h : e.isOrdinary = true) (past : List Effect) :
    (past ++ [e]).filter Effect.isOrdinary = past.filter Effect.isOrdinary ++ [e] :=
  filter_ordinary (fun _ hx => List.mem_singleton.mp hx ▸ h) past

/-! ## veils -/

structure Veil where
  time : Timestamp → Timestamp
  cpu : Option Float → Option Float
  memory : Option Nat → Option Nat
  /-- a worker that was not heard of yet has no sample behind a veil, either -/
  cpu_none : cpu none = none
  memory_none : memory none = none

namespace Veil

/-- it leaves all as it is -/
def clear : Veil := ⟨id, id, id, rfl, rfl⟩

/-- it leaves nothing to be seen -/
def dense : Veil := ⟨fun _ => ⟨0, 0⟩, fun _ => none, fun _ => none, rfl, rfl⟩

variable (v : Veil)

def moment (m : Moment) : Moment := { m with now := v.time m.now }

def entry (e : Entry) : Entry :=
  { e with
    created := v.time e.created
    lastActivity := v.time e.lastActivity
    cpu := v.cpu e.cpu
    memory := v.memory e.memory }

def task (t : Task) : Task :=
  { t with
    created := v.time t.created
    started := t.started.map v.time
    completed := t.completed.map v.time }

def roster (r : Roster) : Roster := { r with entries := r.entries.map v.entry }

def ledger (l : Ledger) : Ledger := ⟨l.tasks.map v.task⟩

/-- only what is ordinary is seen of what the pool asks for -/
def pool (p : Pool) : Pool :=
  { p with
    roster := v.roster p.roster
    ledger := v.ledger p.ledger
    outbox := p.outbox.filter Effect.isOrdinary }

/-! ## the roster behind a veil -/

theorem entry_new (w : WorkerId) (seat : Nat) (now : Timestamp) :
    v.entry (.new w seat now) = .new w seat (v.time now) := by
  unfold entry Entry.new
  rw [v.cpu_none, v.memory_none]

theorem find?_roster (r : Roster) (w : WorkerId) :
    (v.roster r).find? w = (r.find? w).map v.entry := List.find?_map

theorem roster_modify (r : Roster) (w : WorkerId) {f g : Entry → Entry}
    (h : ∀ e, v.entry (f e) = g (v.entry e)) :
    v.roster (r.modify w f) = (v.roster r).modify w g := by
  unfold roster Roster.modify
  rw [List.map_map, List.map_map]
  congr 1
  refine List.map_congr_left fun e _ => ?_
  show v.entry (if e.worker = w then f e else e) = if e.worker = w then g (v.entry e) else v.entry e
  split
  · exact h e
  · rfl

theorem roster_erase (r : Roster) (w : WorkerId) :
    v.roster (r.erase w) = (v.roster r).erase w := by
  unfold roster Roster.erase
  rw [List.filter_map]
  rfl

theorem place_entry (e : Entry) (xs : List Entry) :
    (Roster.place e xs).map v.entry = Roster.place (v.entry e) (xs.map v.entry) := by
  induction xs with
  | nil => rfl
  | cons x xs ih =>
    show List.map _ (if e.worker < x.worker then _ else if e.worker = x.worker then _ else _)
      = if e.worker < x.worker then _ else if e.worker = x.worker then _ else _
    split
    · rfl
    · split
      · rfl
      · rw [List.map_cons, ih]

theorem roster_enrol (r : Roster) (now : Timestamp) :
    v.roster (r.enrol now) = (v.roster r).enrol (v.time now) := by
  have hplace := v.place_entry (.new r.nextId r.nextId now) r.entries
  rw [entry_new] at hplace
  exact congrArg (Roster.mk (r.nextId + 1)) hplace

theorem withStatus_roster (r : Roster) (s : WorkerStatus) :
    (v.roster r).withStatus s = r.withStatus s := by
  unfold roster Roster.withStatus
  rw [List.filter_map, List.map_map]
  rfl

theorem ids_roster (r : Roster) : (v.roster r).ids = r.ids := by
  unfold roster Roster.ids
  rw [List.map_map]
  rfl

theorem length_live_roster (r : Roster) : (v.roster r).live.length = r.live.length := by
  unfold roster Roster.live
  rw [List.filter_map, List.length_map]
  rfl

/-! ## the ledger behind a veil -/

theorem find?_ledger (l : Ledger) (id : TaskId) :
    (v.ledger l).find? id = (l.find? id).map v.task := List.find?_map

theorem modify_ledger (l : Ledger) (id : TaskId) {f g : Task → Task}
    (h : ∀ t, g (v.task t) = v.task (f t)) :
    (v.ledger l).modify id g = v.ledger (l.modify id f) := by
  unfold ledger Ledger.modify
  rw [List.map_map, List.map_map]
  congr 1
  refine List.map_congr_left fun t _ => ?_
  show (if t.id = id then g (v.task t) else v.task t) = v.task (if t.id = id then f t else t)
  split
  · exact h t
  · rfl

theorem ledger_erase (l : Ledger) (id : TaskId) :
    v.ledger (l.erase id) = (v.ledger l).erase id := by
  unfold ledger Ledger.erase
  rw [List.filter_map]
  rfl

theorem ledger_insert (l : Ledger) (t : Task) :
    v.ledger (l.insert t) = (v.ledger l).insert (v.task t) := by
  unfold ledger Ledger.insert
  rw [List.map_append]
  rfl

theorem markDispatched_ledger (l : Ledger) (id : TaskId) (w : WorkerId) :
    (v.ledger l).markDispatched id w = v.ledger (l.markDispatched id w) :=
  v.modify_ledger l id fun _ => rfl

theorem startAttempt_ledger (l : Ledger) (id : TaskId) (w : WorkerId) (now : Timestamp) :
    (v.ledger l).startAttempt id w (v.time now)
      = (l.startAttempt id w now).map (Option.map fun r => (r.1, v.ledger r.2)) := by
  unfold Ledger.startAttempt
  rw [find?_ledger]
  cases l.find? id with
  | none => rfl
  | some t =>
    by_cases hs : t.status = .queued
    · have hs' : (v.task t).status = .queued := hs
      simp only [Option.map_some, if_pos hs, if_pos hs']
      refine congrArg (fun r => (Overflowing.succ t.attempt).map fun n => some (_, r)) ?_
      exact v.modify_ledger l id fun _ => rfl
    · have hs' : (v.task t).status ≠ .queued := hs
      simp only [Option.map_some, if_neg hs, if_neg hs']
      rfl

theorem setTimer_ledger (l : Ledger) (id : TaskId) (timer : TimerId) :
    (v.ledger l).setTimer id timer
      = (v.ledger (l.setTimer id timer).1, (l.setTimer id timer).2) := by
  unfold Ledger.setTimer
  rw [find?_ledger]
  cases l.find? id with
  | none => rfl
  | some t =>
    simp only [Option.map_some]
    refine congrArg (fun r => (r, t.disarm)) ?_
    exact v.modify_ledger l id fun _ => rfl

theorem complete_ledger (l : Ledger) (id : TaskId) (value : Json) :
    (v.ledger l).complete id value
      = (l.complete id value).map fun r => (v.ledger r.1, r.2) := by
  unfold Ledger.complete
  rw [find?_ledger]
  cases l.find? id with
  | none => rfl
  | some t =>
    by_cases hs : t.status = .retrying
    · have hs' : (v.task t).status = .retrying := hs
      simp only [Option.map_some, if_pos hs, if_pos hs']
      rfl
    · have hs' : (v.task t).status ≠ .retrying := hs
      simp only [Option.map_some, if_neg hs, if_neg hs', ledger_erase]
      rfl

theorem fail_ledger (l : Ledger) (id : TaskId) (cause : FailureCause) (now : Timestamp) :
    (v.ledger l).fail id cause (v.time now)
      = (l.fail id cause now).map (Option.map fun r => (r.1, v.ledger r.2.1, r.2.2)) := by
  unfold Ledger.fail
  rw [find?_ledger]
  cases l.find? id with
  | none => rfl
  | some t =>
    by_cases hs : t.status = .retrying
    · have hs' : (v.task t).status = .retrying := hs
      simp only [Option.map_some, if_pos hs, if_pos hs']
      rfl
    · have hs' : (v.task t).status ≠ .retrying := hs
      by_cases hr : t.retries < t.terms.maxRetries
      · have hr' : (v.task t).retries < (v.task t).terms.maxRetries := hr
        simp only [Option.map_some, if_neg hs, if_neg hs', if_pos hr, if_pos hr']
        refine congrArg (fun r => (t.failure cause).map fun _ =>
          some (Verdict.retry t.terms.retryDelay, r, t.disarm)) ?_
        exact v.modify_ledger l id fun _ => rfl
      · have hr' : ¬ (v.task t).retries < (v.task t).terms.maxRetries := hr
        simp only [Option.map_some, if_neg hs, if_neg hs', if_neg hr, if_neg hr', ← ledger_erase]
        cases cause <;> rfl

theorem resetForRetry_ledger (l : Ledger) (id : TaskId) :
    (v.ledger l).resetForRetry id
      = (l.resetForRetry id).map fun r => (r.1, v.ledger r.2) := by
  unfold Ledger.resetForRetry
  rw [find?_ledger]
  cases l.find? id with
  | none => rfl
  | some t =>
    by_cases hs : t.status = .retrying
    · have hs' : (v.task t).status = .retrying := hs
      simp only [Option.map_some, if_pos hs, if_pos hs']
      refine congrArg (fun r => some (_, r)) ?_
      exact v.modify_ledger l id fun _ => rfl
    · have hs' : (v.task t).status ≠ .retrying := hs
      simp only [Option.map_some, if_neg hs, if_neg hs']
      rfl

theorem timeOut_ledger (l : Ledger) (id : TaskId) (attempt : UInt32) :
    (v.ledger l).timeOut id attempt
      = (l.timeOut id attempt).map fun r => (r.1, v.ledger r.2.1, r.2.2) := by
  unfold Ledger.timeOut
  rw [find?_ledger]
  cases l.find? id with
  | none => rfl
  | some t =>
    by_cases hs : t.status = .running ∧ t.attempt = attempt
    · have hs' : (v.task t).status = .running ∧ (v.task t).attempt = attempt := hs
      simp only [Option.map_some, if_pos hs, if_pos hs', ledger_erase]
      rfl
    · have hs' : ¬ ((v.task t).status = .running ∧ (v.task t).attempt = attempt) := hs
      simp only [Option.map_some, if_neg hs, if_neg hs']
      rfl

theorem cancel_ledger (l : Ledger) (id : TaskId) :
    (v.ledger l).cancel id
      = ((l.cancel id).1, v.ledger (l.cancel id).2.1, (l.cancel id).2.2) := by
  unfold Ledger.cancel
  rw [find?_ledger]
  cases l.find? id with
  | none => rfl
  | some t =>
    by_cases hs : t.status.isTerminal = true
    · have hs' : (v.task t).status.isTerminal = true := hs
      simp only [Option.map_some, if_pos hs, if_pos hs']
    · have hs' : ¬ (v.task t).status.isTerminal = true := hs
      simp only [Option.map_some, if_neg hs, if_neg hs', ledger_erase]
      rfl

theorem drain_ledger (l : Ledger) (why : Failure) :
    (v.ledger l).drain why = (v.ledger (l.drain why).1, (l.drain why).2) := by
  unfold Ledger.drain ledger
  rw [List.flatMap_map]
  rfl

/-! ## the pool behind a veil -/

section
variable (m : Moment) (p : Pool)

theorem find?_pool_roster (w : WorkerId) :
    (v.pool p).roster.find? w = (p.roster.find? w).map v.entry :=
  v.find?_roster p.roster w

theorem find?_pool_ledger (id : TaskId) :
    (v.pool p).ledger.find? id = (p.ledger.find? id).map v.task :=
  v.find?_ledger p.ledger id

theorem setTimer_pool (id : TaskId) (timer : TimerId) :
    (v.pool p).ledger.setTimer id timer
      = (v.ledger (p.ledger.setTimer id timer).1, (p.ledger.setTimer id timer).2) :=
  v.setTimer_ledger p.ledger id timer

theorem pool_emitAll {es : List Effect} (h : ∀ e ∈ es, e.isOrdinary = true) :
    v.pool (p.emitAll es) = (v.pool p).emitAll es := by
  unfold pool Pool.emitAll
  rw [filter_ordinary h]

theorem pool_emit {e : Effect} (h : e.isOrdinary = true) :
    v.pool (p.emit e) = (v.pool p).emit e :=
  v.pool_emitAll p fun _ hx => List.mem_singleton.mp hx ▸ h

theorem pool_post (ledger : Ledger) (cs : List Consequence) :
    v.pool (p.post ledger cs) = (v.pool p).post (v.ledger ledger) cs := by
  unfold pool Pool.post
  rw [filter_ordinary (ordinary_consequences cs)]

theorem pool_updateEntry (w : WorkerId) {f g : Entry → Entry}
    (h : ∀ e, v.entry (f e) = g (v.entry e)) :
    v.pool (p.updateEntry w f) = (v.pool p).updateEntry w g := by
  unfold pool Pool.updateEntry
  rw [v.roster_modify p.roster w h]

theorem pool_dropEntry (w : WorkerId) :
    v.pool (p.dropEntry w) = (v.pool p).dropEntry w := by
  unfold pool Pool.dropEntry
  rw [v.roster_erase]

theorem arm_pool (d : Duration) {a : Alarm} (ha : a ≠ .autoscaleTick) :
    (v.pool p).arm (v.moment m) d a = ((p.arm m d a).1, v.pool (p.arm m d a).2) := by
  unfold Pool.arm
  by_cases hm : m.attached = true
  · have hm' : (v.moment m).attached = true := hm
    have hone : (Effect.arm p.nextTimer d a).isOrdinary = true := by
      simp [Effect.isOrdinary, Effect.observes, Effect.ticks, ha]
    rw [if_pos hm, if_pos hm']
    unfold pool
    rw [filter_ordinary_one hone]
  · have hm' : ¬ (v.moment m).attached = true := hm
    rw [if_neg hm, if_neg hm']

theorem pool_tell (w : WorkerId) {c : Command} (hc : c.isOrder = true) :
    v.pool (p.tell m w c) = (v.pool p).tell (v.moment m) w c := by
  unfold Pool.tell
  show v.pool (if m.reaches w then _ else _) = if m.reaches w then _ else _
  split
  · refine v.pool_emit p ?_
    simp [Effect.isOrdinary, Effect.observes, Effect.ticks, hc]
  · rfl

theorem pool_hire : v.pool (p.hire m) = (v.pool p).hire (v.moment m) := by
  by_cases hm : m.attached = true
  · have hm' : (v.moment m).attached = true := hm
    rw [Pool.hire_of_attached hm, Pool.hire_of_attached hm']
    unfold pool
    rw [filter_ordinary_one rfl, roster_enrol]
    rfl
  · have hm' : m.attached = false := by simpa using hm
    have hv : (v.moment m).attached = false := hm'
    rw [Pool.hire_of_detached hm', Pool.hire_of_detached hv]

theorem pool_hireMany (n : Nat) :
    v.pool (Pool.hireMany m n p) = Pool.hireMany (v.moment m) n (v.pool p) := by
  induction n generalizing p with
  | zero => rfl
  | succ n ih =>
    rw [Pool.hireMany, Pool.hireMany, ih, pool_hire]

theorem pool_wake (caller : CallId) : v.pool (p.wake caller) = (v.pool p).wake caller := by
  have hstops : (v.pool p).stops = p.stops := rfl
  unfold Pool.wake
  rw [hstops]
  split
  · rfl
  · split
    · unfold pool
      rw [filter_ordinary_one rfl]
    · rfl

theorem pool_wakeAll (callers : List CallId) :
    v.pool (callers.foldl Pool.wake p) = callers.foldl Pool.wake (v.pool p) := by
  induction callers generalizing p with
  | nil => rfl
  | cons c cs ih => rw [List.foldl_cons, List.foldl_cons, ih, pool_wake]

theorem pool_dispose (e : Entry) : v.pool (p.dispose e) = (v.pool p).dispose (v.entry e) := by
  unfold Pool.dispose
  rw [pool_wakeAll, pool_emitAll]
  · rfl
  · intro x hx
    rcases List.mem_append.mp hx with hx | hx
    · obtain ⟨timer, _, rfl⟩ := List.mem_map.mp hx
      rfl
    · rw [List.mem_singleton.mp hx]
      rfl

/-! ## handing out tasks behind a veil -/

theorem pool_assign (w : WorkerId) :
    v.pool (Pool.assign m p w) = Pool.assign (v.moment m) (v.pool p) w := by
  unfold Pool.assign
  rw [find?_pool_roster]
  cases p.roster.find? w with
  | none => rfl
  | some e =>
    simp only [Option.map_some]
    show v.pool (if e.status = .idle then _ else _) = if e.status = .idle then _ else _
    split
    · rw [show (v.pool p).queue.popFor (if (v.pool p).config.affinity then (v.entry e).affinity
        else none) = p.queue.popFor (if p.config.affinity then e.affinity else none) from rfl]
      cases p.queue.popFor (if p.config.affinity then e.affinity else none) with
      | none => rfl
      | some r =>
        obtain ⟨t, rest⟩ := r
        dsimp only
        rw [find?_pool_ledger]
        cases p.ledger.find? t.task with
        | none =>
          unfold pool
          simp only [Option.map_none]
          rw [filter_ordinary_one rfl]
        | some k =>
          simp only [Option.map_some]
          show v.pool (if m.reaches w then _ else _) = if m.reaches w then _ else _
          split
          · have hroster : v.roster (p.roster.modify w fun e => e.setBusy t.task m.now)
                = (v.roster p.roster).modify w fun e => e.setBusy t.task (v.time m.now) :=
              v.roster_modify p.roster w fun _ => rfl
            unfold pool
            rw [filter_ordinary_one rfl, hroster, ← markDispatched_ledger]
            rfl
          · unfold pool
            rw [filter_ordinary_one rfl]
    · rfl

theorem pool_assignEach (ws : List WorkerId) :
    v.pool (Pool.assignEach m ws p) = Pool.assignEach (v.moment m) ws (v.pool p) := by
  induction ws generalizing p with
  | nil => rfl
  | cons w ws ih =>
    rw [Pool.assignEach, Pool.assignEach]
    show v.pool (if p.queue.isEmpty then _ else _) = if p.queue.isEmpty then _ else _
    split
    · rfl
    · rw [ih, pool_assign]

theorem pool_enqueue (t : Ticket) :
    v.pool (Pool.enqueue m p t) = Pool.enqueue (v.moment m) (v.pool p) t := by
  unfold Pool.enqueue
  rw [pool_assignEach]
  exact congrArg (fun ws => Pool.assignEach (v.moment m) ws _)
    (v.withStatus_roster p.roster .idle).symm

/-! ## workers that go, behind a veil -/

theorem pool_stopWorker (waiter : Option CallId) (w : WorkerId) :
    v.pool (Pool.stopWorker m waiter p w) = Pool.stopWorker (v.moment m) waiter (v.pool p) w := by
  unfold Pool.stopWorker
  rw [find?_pool_roster]
  cases p.roster.find? w with
  | none => exact v.pool_wakeAll p waiter.toList
  | some e =>
    simp only [Option.map_some]
    show v.pool (if e.status = .stopping then _ else _) = if e.status = .stopping then _ else _
    split
    · exact v.pool_updateEntry p w fun _ => rfl
    · have harm : (v.pool p).arm (v.moment m) (v.pool p).config.stopGrace (.stopDeadline w) = _ :=
        v.arm_pool m p p.config.stopGrace Alarm.noConfusion
      simp only [harm]
      rw [v.pool_tell m _ w rfl]
      refine congrArg (fun q => Pool.tell q (v.moment m) w .terminate) ?_
      exact v.pool_updateEntry _ w fun _ => rfl

theorem pool_stopAll (waiter : Option CallId) (ws : List WorkerId) :
    v.pool (ws.foldl (Pool.stopWorker m waiter) p)
      = ws.foldl (Pool.stopWorker (v.moment m) waiter) (v.pool p) := by
  induction ws generalizing p with
  | nil => rfl
  | cons w ws ih => rw [List.foldl_cons, List.foldl_cons, ih, pool_stopWorker]

theorem pool_removed (w : WorkerId) (e : Entry) :
    v.pool ((p.dropEntry w).dispose e) = ((v.pool p).dropEntry w).dispose (v.entry e) := by
  rw [pool_dispose, pool_dropEntry]

theorem pool_finishStop (w : WorkerId) :
    v.pool (Pool.finishStop m p w) = Pool.finishStop (v.moment m) (v.pool p) w := by
  have hfind := v.find?_pool_roster p w
  cases he : p.roster.find? w with
  | none =>
    rw [he] at hfind
    unfold Pool.finishStop
    rw [he, hfind]
    rfl
  | some e =>
    rw [he] at hfind
    rw [Pool.finishStop_eq he, Pool.finishStop_eq hfind, ← pool_removed]
    show v.pool (if e.replaceOnExit ∧ p.running then _ else _)
      = if e.replaceOnExit ∧ p.running then _ else _
    split
    · exact v.pool_hire m _
    · rfl

theorem pool_failTask (id : TaskId) (cause : FailureCause) :
    v.pool (Pool.failTask m p id cause) = Pool.failTask (v.moment m) (v.pool p) id cause := by
  unfold Pool.failTask
  rw [show (v.pool p).ledger.fail id cause (v.moment m).now = _ from
    v.fail_ledger p.ledger id cause m.now]
  rw [Overflowing.unchecked_map]
  cases (p.ledger.fail id cause m.now).unchecked with
  | none => rfl
  | some r =>
    obtain ⟨verdict, ledger, cs⟩ := r
    cases verdict with
    | exhausted => exact v.pool_post p ledger cs
    | retry d =>
      have harm := v.arm_pool m (p.post ledger cs) d (a := .retryDue id) Alarm.noConfusion
      simp only [Option.map_some]
      rw [← v.pool_post p ledger cs, harm]
      generalize (p.post ledger cs).arm m d (.retryDue id) = armed
      obtain ⟨timer, q⟩ := armed
      cases timer with
      | none => rfl
      | some timer =>
        dsimp only
        rw [setTimer_pool]
        exact v.pool_post q _ _

theorem pool_crash (w : WorkerId) (detail : String) :
    v.pool (Pool.crash m p w detail) = Pool.crash (v.moment m) (v.pool p) w detail := by
  unfold Pool.crash
  rw [find?_pool_roster]
  cases p.roster.find? w with
  | none => rfl
  | some e =>
    simp only [Option.map_some]
    show v.pool (if e.status = .stopping then _ else _) = if e.status = .stopping then _ else _
    split
    · exact v.pool_finishStop m p w
    · have hfill (q : Pool) : v.pool (if q.running then q.hire m else q)
          = if (v.pool q).running then (v.pool q).hire (v.moment m) else v.pool q := by
        show _ = if q.running then _ else _
        split
        · exact v.pool_hire m q
        · rfl
      rw [show (v.entry e).task = e.task from rfl, ← pool_removed]
      cases e.task with
      | none => exact hfill _
      | some t =>
        simp only [← pool_failTask]
        exact hfill _

/-! ## calls, reports and alarms behind a veil -/

theorem hireMany_config (n : Nat) : (Pool.hireMany m n p).config = p.config := by
  induction n generalizing p with
  | zero => rfl
  | succ n ih =>
    rw [Pool.hireMany, ih]
    unfold Pool.hire
    split <;> rfl

theorem pool_start (hc : p.config.autoscaling = false) :
    v.pool (p.start m) = (v.pool p).start (v.moment m) := by
  have hc' : (v.pool p).config.autoscaling = false := hc
  unfold Pool.start
  show v.pool (if p.running then _ else _) = if p.running then _ else _
  split
  · rfl
  · simp only [hireMany_config, hc, hc', Bool.false_eq_true, if_false]
    rw [pool_hireMany]
    have hlive : (v.pool p).roster.live.length = p.roster.live.length :=
      v.length_live_roster p.roster
    show Pool.hireMany _ (p.config.minWorkers - p.roster.live.length) _
      = Pool.hireMany _ (p.config.minWorkers - (v.pool p).roster.live.length) _
    rw [hlive]
    rfl

theorem pool_shut : v.pool p.shut = (v.pool p).shut := by
  have hdrain := v.drain_ledger p.ledger .shutdown
  have hdisarm : ∀ e ∈ p.autoscaleTimer.toList.map Effect.disarm, e.isOrdinary = true := by
    intro e he
    obtain ⟨timer, _, rfl⟩ := List.mem_map.mp he
    rfl
  unfold Pool.shut
  rw [pool_post]
  show _ = Pool.post _ ((v.ledger p.ledger).drain .shutdown).1
    ((v.ledger p.ledger).drain .shutdown).2
  rw [hdrain]
  refine congrArg (fun q => Pool.post q _ _) ?_
  unfold Pool.disarmTicks pool
  dsimp only
  rw [filter_ordinary hdisarm]

theorem pool_stop (caller : CallId) :
    v.pool (p.stop m caller) = (v.pool p).stop (v.moment m) caller := by
  rw [Pool.stop_eq, Pool.stop_eq, ← pool_shut]
  generalize p.shut = q
  rw [show (v.pool q).roster.ids = q.roster.ids from v.ids_roster q.roster]
  cases q.roster.ids with
  | nil => exact v.pool_emit q rfl
  | cons w ws => exact v.pool_stopAll m _ (some caller) (w :: ws)

theorem pool_cancel (id : TaskId) :
    (p.cancel id).1 = ((v.pool p).cancel id).1 ∧
      v.pool (p.cancel id).2 = ((v.pool p).cancel id).2 := by
  have hcancel : (v.pool p).ledger.cancel id = _ := v.cancel_ledger p.ledger id
  unfold Pool.cancel
  rw [hcancel]
  exact ⟨rfl, v.pool_post _ _ _⟩

/-- the affinity of a worker is set or cleared, and the caller hears whether the worker is there -/
theorem pool_affinity (caller : CallId) (w : WorkerId) (affinity : Option KindSet) :
    v.pool ((p.updateEntry w fun e => { e with affinity := affinity }).reply caller
        (.found (p.roster.find? w).isSome))
      = ((v.pool p).updateEntry w fun e => { e with affinity := affinity }).reply caller
        (.found ((v.pool p).roster.find? w).isSome) := by
  rw [find?_pool_roster, Option.isSome_map]
  refine (v.pool_emit _ rfl).trans (congrArg (fun q => Pool.reply q caller _) ?_)
  exact v.pool_updateEntry p w fun _ => rfl

theorem pool_call (hc : p.config.autoscaling = false) (caller : CallId) {r : Request}
    (hr : r.observes = false) :
    v.pool (p.call m caller r) = (v.pool p).call (v.moment m) caller r := by
  cases r with
  | start =>
    show v.pool ((p.start m).reply caller .done)
      = ((v.pool p).start (v.moment m)).reply caller .done
    rw [← v.pool_start m p hc]
    exact v.pool_emit _ rfl
  | stop => exact v.pool_stop m p caller
  | submit id kind payload options =>
    have hrefusal : (v.pool p).refusal? = p.refusal? := rfl
    unfold Pool.call
    dsimp only
    rw [hrefusal]
    split
    · exact v.pool_emit _ rfl
    · refine (v.pool_emit _ rfl).trans (congrArg (fun q => Pool.reply q caller (.accepted id)) ?_)
      unfold Pool.submit
      rw [pool_enqueue]
      refine congrArg (fun q => Pool.enqueue (v.moment m) q _) ?_
      unfold pool
      dsimp only
      rw [v.ledger_insert]
      rfl
  | cancel id =>
    obtain ⟨houtcome, hpool⟩ := v.pool_cancel p id
    show v.pool ((p.cancel id).2.reply caller (.cancelled (p.cancel id).1))
      = ((v.pool p).cancel id).2.reply caller (.cancelled ((v.pool p).cancel id).1)
    rw [← houtcome, ← hpool]
    exact v.pool_emit _ rfl
  | setAffinity w kinds => exact v.pool_affinity p caller w (some kinds)
  | clearAffinity w => exact v.pool_affinity p caller w none
  | status | statuses | workers | stats | getAffinity | requestMetrics => cases hr

theorem isAssignedTo_pool (id : TaskId) (w : WorkerId) :
    (v.pool p).isAssignedTo id w = p.isAssignedTo id w := by
  unfold Pool.isAssignedTo
  rw [find?_pool_ledger]
  cases p.ledger.find? id <;> rfl

theorem isStuckOn_pool (w : WorkerId) (id : TaskId) :
    (v.pool p).isStuckOn w id = p.isStuckOn w id := by
  unfold Pool.isStuckOn
  rw [find?_pool_roster]
  cases p.roster.find? w <;> rfl

theorem pool_startAttempt (id : TaskId) (w : WorkerId) :
    v.pool (Pool.startAttempt m p id w) = Pool.startAttempt (v.moment m) (v.pool p) id w := by
  unfold Pool.startAttempt
  rw [show (v.pool p).ledger.startAttempt id w (v.moment m).now = _ from
    v.startAttempt_ledger p.ledger id w m.now]
  rw [Overflowing.unchecked_map]
  cases (p.ledger.startAttempt id w m.now).unchecked with
  | none => rfl
  | some r =>
    obtain ⟨attempt, ledger⟩ := r
    have harm : ({ v.pool p with ledger := v.ledger ledger } : Pool).arm (v.moment m) attempt.limit
        (.taskTimeout id attempt.number) = _ :=
      v.arm_pool m { p with ledger := ledger } attempt.limit Alarm.noConfusion
    simp only [Option.map_some]
    rw [harm]
    generalize Pool.arm { p with ledger := ledger } m attempt.limit
      (.taskTimeout id attempt.number) = armed
    obtain ⟨timer, q⟩ := armed
    cases timer with
    | none => rfl
    | some timer =>
      dsimp only
      rw [setTimer_pool]
      exact v.pool_post q _ _

/-- a worker that is ready, or idle again, may be handed a ticket at once -/
theorem pool_rest (w : WorkerId) (s : WorkerStatus) :
    v.pool (match p.roster.find? w with
      | none => p
      | some e =>
        if e.status = s then Pool.assign m (p.updateEntry w fun e => e.setIdle m.now) w else p)
      = match (v.pool p).roster.find? w with
        | none => v.pool p
        | some e =>
          if e.status = s then
            Pool.assign (v.moment m)
              ((v.pool p).updateEntry w fun e => e.setIdle (v.moment m).now) w
          else v.pool p := by
  rw [find?_pool_roster]
  cases p.roster.find? w with
  | none => rfl
  | some e =>
    show v.pool (if e.status = s then _ else _) = if e.status = s then _ else _
    split
    · rw [pool_assign]
      refine congrArg (fun q => Pool.assign (v.moment m) q w) ?_
      exact v.pool_updateEntry p w fun _ => rfl
    · rfl

theorem pool_report (w : WorkerId) {e : Event} (he : e.isNews = true) :
    v.pool (p.report m w e) = (v.pool p).report (v.moment m) w e := by
  cases e with
  | ready => exact v.pool_rest m p w .starting
  | idle => exact v.pool_rest m p w .busy
  | busy id =>
    simp only [Pool.report]
    rw [find?_pool_roster]
    cases p.roster.find? w with
    | none => rfl
    | some e =>
      simp only [Option.map_some]
      rw [pool_startAttempt]
      refine congrArg (fun q => Pool.startAttempt (v.moment m) q id w) ?_
      show v.pool (if e.status = .stopping then _ else _) = if e.status = .stopping then _ else _
      split
      · rfl
      · exact v.pool_updateEntry p w fun _ => rfl
  | result id value =>
    have hset : v.pool (p.updateEntry w fun e => { e with processed := e.processed + 1 })
        = (v.pool p).updateEntry w fun e => { e with processed := e.processed + 1 } :=
      v.pool_updateEntry p w fun _ => rfl
    simp only [Pool.report, ← hset]
    generalize p.updateEntry w (fun e => { e with processed := e.processed + 1 }) = q
    rw [isAssignedTo_pool]
    split
    · rw [show (v.pool q).ledger.complete id value = _ from v.complete_ledger q.ledger id value]
      cases q.ledger.complete id value with
      | none => rfl
      | some r => exact v.pool_post q _ _
    · rfl
  | error id detail =>
    have hset : v.pool (p.updateEntry w fun e => { e with failed := e.failed + 1 })
        = (v.pool p).updateEntry w fun e => { e with failed := e.failed + 1 } :=
      v.pool_updateEntry p w fun _ => rfl
    simp only [Pool.report, ← hset]
    generalize p.updateEntry w (fun e => { e with failed := e.failed + 1 }) = q
    rw [isAssignedTo_pool]
    split
    · exact v.pool_failTask m q id _
    · rfl
  | fatal detail => exact v.pool_crash m p w detail
  | metrics => cases he
  | exited graceful => exact v.pool_crash m p w _

theorem pool_timeOut (id : TaskId) (attempt : UInt32) :
    v.pool (p.timeOut m id attempt) = (v.pool p).timeOut (v.moment m) id attempt := by
  unfold Pool.timeOut
  rw [show (v.pool p).ledger.timeOut id attempt = _ from v.timeOut_ledger p.ledger id attempt]
  cases p.ledger.timeOut id attempt with
  | none => rfl
  | some r =>
    obtain ⟨worker, ledger, cs⟩ := r
    simp only [Option.map_some, ← v.pool_post]
    generalize p.post ledger cs = q
    cases worker with
    | none => rfl
    | some w =>
      dsimp only
      rw [isStuckOn_pool]
      split
      · rw [pool_stopWorker]
        refine congrArg (fun q => Pool.stopWorker (v.moment m) none q w) ?_
        exact v.pool_updateEntry q w fun _ => rfl
      · rfl

theorem pool_retry (id : TaskId) : v.pool (p.retry m id) = (v.pool p).retry (v.moment m) id := by
  unfold Pool.retry
  show v.pool (if p.running then _ else _) = if p.running then _ else _
  split
  · rw [show (v.pool p).ledger.resetForRetry id = _ from v.resetForRetry_ledger p.ledger id]
    cases p.ledger.resetForRetry id with
    | none => rfl
    | some r => exact v.pool_enqueue m _ _
  · rfl

theorem pool_ring {a : Alarm} (ha : a ≠ .autoscaleTick) :
    v.pool (p.ring m a) = (v.pool p).ring (v.moment m) a := by
  cases a with
  | taskTimeout id attempt => exact v.pool_timeOut m p id attempt
  | retryDue id => exact v.pool_retry m p id
  | stopDeadline w =>
    simp only [Pool.ring]
    rw [find?_pool_roster]
    cases p.roster.find? w with
    | none => rfl
    | some e =>
      show v.pool (if e.status = .stopping then _ else _) = if e.status = .stopping then _ else _
      split
      · exact v.pool_finishStop m p w
      · rfl
  | autoscaleTick => exact absurd rfl ha

/-- **the pool looks at no point in time and at no sample**, unless it scales itself, and what it
asks for is ordinary -/
theorem handle (hc : p.config.autoscaling = false) {msg : Message} (ho : msg.observes = false)
    (ht : msg ≠ .ring .autoscaleTick) :
    v.pool (p.handle m msg) = (v.pool p).handle (v.moment m) msg := by
  cases msg with
  | call caller r => exact v.pool_call m p hc caller ho
  | report w e => exact v.pool_report m p w (by simpa [Message.observes] using ho)
  | ring a => exact v.pool_ring m p fun ha => ht (ha ▸ rfl)

end

end Veil

/-- a sample does not show behind a dense veil -/
theorem Veil.dense_recordMetrics (r : Roster) (w : WorkerId) (s : Metrics) :
    dense.roster (r.modify w fun e => e.recordMetrics s) = dense.roster r := by
  unfold roster Roster.modify
  rw [List.map_map]
  refine congrArg (Roster.mk r.nextId) (List.map_congr_left fun e _ => ?_)
  show dense.entry (if e.worker = w then e.recordMetrics s else e) = dense.entry e
  split <;> rfl

namespace Pool

variable {m : Moment} {p q : Pool} {msg : Message}

/-! ## the two veils that matter -/

theorem clear_pool (ho : p.outbox = []) : Veil.clear.pool p = p := by
  have hentry : Veil.clear.entry = id := rfl
  have htask : Veil.clear.task = id := by
    funext t
    show { t with
      started := t.started.map id
      completed := t.completed.map id } = t
    rw [Option.map_id, id, id]
  unfold Veil.pool Veil.roster Veil.ledger
  rw [hentry, htask, List.map_id, List.map_id, ho]
  cases p
  cases ho
  rfl

/-- what a message makes a pool ask for is ordinary if no observer sent it, and the pool does not
scale itself -/
theorem ordinary_handle (hc : p.config.autoscaling = false) (hout : p.outbox = [])
    (ho : msg.observes = false) (ht : msg ≠ .ring .autoscaleTick) :
    ∀ e ∈ (p.handle m msg).outbox, e.isOrdinary = true := by
  have h := Veil.clear.handle m p hc ho ht
  rw [clear_pool hout] at h
  have hfilter : (p.handle m msg).outbox.filter Effect.isOrdinary = (p.handle m msg).outbox :=
    congrArg Pool.outbox h
  exact List.filter_eq_self.mp hfilter

/-- two pools that differ in points in time and in samples only do the same -/
theorem handle_alike (h : Veil.dense.pool p = Veil.dense.pool q)
    (hc : p.config.autoscaling = false) (hp : p.outbox = []) (hq : q.outbox = [])
    (ho : msg.observes = false) (ht : msg ≠ .ring .autoscaleTick) {n : Moment}
    (hm : Veil.dense.moment m = Veil.dense.moment n) :
    (p.handle m msg).outbox = (q.handle n msg).outbox ∧
      Veil.dense.pool (p.handle m msg) = Veil.dense.pool (q.handle n msg) := by
  have hc' : q.config.autoscaling = false := by
    rw [← hc]
    exact congrArg (fun r => r.config.autoscaling) h.symm
  have heq : Veil.dense.pool (p.handle m msg) = Veil.dense.pool (q.handle n msg) := by
    rw [Veil.dense.handle m p hc ho ht, Veil.dense.handle n q hc' ho ht, h, hm]
  have hout : (p.handle m msg).outbox.filter Effect.isOrdinary
      = (q.handle n msg).outbox.filter Effect.isOrdinary := congrArg Pool.outbox heq
  rw [List.filter_eq_self.mpr (ordinary_handle hc hp ho ht),
    List.filter_eq_self.mpr (ordinary_handle hc' hq ho ht)] at hout
  exact ⟨hout, heq⟩

/-! ## what observers do -/

/-- **an observer changes nothing but samples**, and what it makes the pool ask for is for itself -/
theorem handle_observer (hout : p.outbox = []) (ho : msg.observes = true) :
    (∀ e ∈ (p.handle m msg).outbox, e.observes = true) ∧
      Veil.dense.pool { p.handle m msg with outbox := [] } = Veil.dense.pool p := by
  have hsame : { p with outbox := [] } = p := by rw [← hout]
  have hreply (caller : CallId) (a : Answer) (ha : a.observes = true) :
      (∀ e ∈ (p.reply caller a).outbox, e.observes = true) ∧
        Veil.dense.pool { p.reply caller a with outbox := [] } = Veil.dense.pool p := by
    refine ⟨fun e he => ?_, congrArg Veil.dense.pool hsame⟩
    have he' : e ∈ p.outbox ++ [.reply caller a] := he
    rw [hout] at he'
    rw [List.mem_singleton.mp he']
    exact ha
  cases msg with
  | call caller r =>
    cases r with
    | status | statuses | workers | stats | getAffinity => exact hreply caller _ rfl
    | requestMetrics w =>
      refine ⟨fun e he => ?_, congrArg Veil.dense.pool hsame⟩
      have he' : e ∈ (p.outbox ++ _) ++ [.reply caller (.asked _)] := he
      rw [hout, List.nil_append] at he'
      rcases List.mem_append.mp he' with he' | he'
      · obtain ⟨x, _, rfl⟩ := List.mem_map.mp he'
        rfl
      · rw [List.mem_singleton.mp he']
        rfl
    | start | stop | submit | cancel | setAffinity | clearAffinity => cases ho
  | report w e =>
    cases e with
    | metrics s =>
      refine ⟨fun e he => ?_, ?_⟩
      · have he' : e ∈ p.outbox := he
        rw [hout] at he'
        cases he'
      · unfold Veil.pool
        show ({ p with
          roster := Veil.dense.roster (p.roster.modify w fun e => e.recordMetrics s)
          ledger := _
          outbox := [] } : Pool) = _
        rw [Veil.dense_recordMetrics, hout]
        rfl
    | ready | busy | idle | result | error | fatal | exited => cases ho
  | ring a => cases ho

end Pool

end TaskPool
