import TaskPool.Pool.Step
import TaskPool.Proofs.Keyed

/-!
# The shape of the pool after an operation

Each operation of the pool that several proofs have to look into is opened here, once.

* `wake_eq`, `dispose_eq`        waking callers touches the stop requests and the outbox only
* `hire_of_attached`             a new worker has the next number
* `stopWorker_of_live`           what is asked for when a worker is told to end
* `failTask_cases`               the ways in which an attempt fails
* `startAttempt_cases`           the ways in which an attempt begins
* `dispose_roster`, `dispose_queue` and their like   which operations leave the roster or the queue
                                 alone
-/

namespace TaskPool

namespace Pool

variable {m : Moment}

/-! ## waking callers -/

theorem wake_eq (p : Pool) (caller : CallId) :
    ∃ stops replies, p.wake caller
        = { p with
            stops := stops
            outbox := p.outbox ++ replies } ∧
      ∀ x ∈ replies, ∃ c, x = Effect.reply c .done := by
  unfold wake
  split
  · exact ⟨p.stops, [], by simp, by simp⟩
  · split
    · exact ⟨_, [.reply caller .done], rfl, by simp⟩
    · exact ⟨_, [], by rw [List.append_nil], by simp⟩

theorem foldl_wake_eq (callers : List CallId) (p : Pool) :
    ∃ stops replies, callers.foldl wake p
        = { p with
            stops := stops
            outbox := p.outbox ++ replies } ∧
      ∀ x ∈ replies, ∃ c, x = Effect.reply c .done := by
  induction callers generalizing p with
  | nil => exact ⟨p.stops, [], by simp, by simp⟩
  | cons c cs ih =>
    obtain ⟨s1, r1, h1, hr1⟩ := wake_eq p c
    obtain ⟨s2, r2, h2, hr2⟩ := ih (p.wake c)
    refine ⟨s2, r1 ++ r2, ?_, ?_⟩
    · rw [List.foldl_cons, h2, h1, List.append_assoc]
    · intro x hx
      rcases List.mem_append.mp hx with hx | hx
      · exact hr1 x hx
      · exact hr2 x hx

/-- what is done outside for a worker whose entry is gone -/
def farewell (e : Entry) : List Effect := e.stopTimer.toList.map .disarm ++ [.dismiss e.worker]

theorem dispose_eq (p : Pool) (e : Entry) :
    ∃ stops replies, p.dispose e
        = { p with
            stops := stops
            outbox := p.outbox ++ (farewell e ++ replies) } ∧
      ∀ x ∈ replies, ∃ c, x = Effect.reply c .done := by
  obtain ⟨s, r, h, hr⟩ := foldl_wake_eq e.waiters (p.emitAll (farewell e))
  refine ⟨s, r, ?_, hr⟩
  show e.waiters.foldl wake (p.emitAll (farewell e)) = _
  rw [h, ← List.append_assoc]
  rfl

/-! ## workers that come and go -/

theorem hire_of_attached (h : m.attached = true) (p : Pool) :
    p.hire m
      = { p with
          roster := p.roster.enrol m.now
          outbox := p.outbox ++ [.hire p.roster.nextId] } := by
  unfold hire
  rw [if_pos h]
  rfl

theorem hire_of_detached (h : m.attached = false) (p : Pool) : p.hire m = p := by
  unfold hire
  rw [if_neg (by simp [h])]

theorem hire_sound {p : Pool} (hs : p.roster.Sound) : (p.hire m).roster.Sound := by
  by_cases ha : m.attached = true
  · rw [hire_of_attached ha]
    exact hs.enrol m.now
  · rw [hire_of_detached (by simpa using ha)]
    exact hs

/-- the timer that ends the wait for a stopping worker -/
def stopTimerOf (m : Moment) (p : Pool) : Option TimerId :=
  if m.attached then some p.nextTimer else none

/-- what is asked for when a live worker is told to end -/
def retirement (m : Moment) (p : Pool) (w : WorkerId) : List Effect :=
  (if m.attached then [.arm p.nextTimer p.config.stopGrace (.stopDeadline w)] else []) ++
    (if m.reaches w then [.tell w .terminate] else [])

theorem stopWorker_of_live {p : Pool} {w : WorkerId} {e : Entry} (waiter : Option CallId)
    (he : p.roster.find? w = some e) (hs : e.status ≠ .stopping) :
    stopWorker m waiter p w
      = { p with
          roster := p.roster.modify w fun e =>
            { e with
              waiters := e.waiters ++ waiter.toList
              status := .stopping
              task := none
              stopTimer := stopTimerOf m p }
          nextTimer := if m.attached then p.nextTimer + 1 else p.nextTimer
          outbox := p.outbox ++ retirement m p w } := by
  unfold stopWorker
  rw [he]
  simp only [if_neg hs, arm, tell, retirement, stopTimerOf]
  by_cases ha : m.attached = true
  · by_cases hr : m.reaches w = true <;> simp [ha, hr, updateEntry, emit]
  · by_cases hr : m.reaches w = true <;> simp [ha, hr, updateEntry, emit]

theorem stopWorker_of_stopping {p : Pool} {w : WorkerId} {e : Entry} (waiter : Option CallId)
    (he : p.roster.find? w = some e) (hs : e.status = .stopping) :
    stopWorker m waiter p w
      = p.updateEntry w fun e => { e with waiters := e.waiters ++ waiter.toList } := by
  unfold stopWorker
  rw [he]
  simp only [if_pos hs]

theorem stopWorker_of_gone {p : Pool} {w : WorkerId} (waiter : Option CallId)
    (he : p.roster.find? w = none) : stopWorker m waiter p w = waiter.toList.foldl wake p := by
  unfold stopWorker
  rw [he]

theorem stopWorker_ledger (waiter : Option CallId) (p : Pool) (w : WorkerId) :
    (stopWorker m waiter p w).ledger = p.ledger := by
  cases he : p.roster.find? w with
  | none =>
    rw [stopWorker_of_gone waiter he]
    obtain ⟨s, r, h, _⟩ := foldl_wake_eq waiter.toList p
    rw [h]
  | some e =>
    by_cases hs : e.status = .stopping
    · rw [stopWorker_of_stopping waiter he hs]
      rfl
    · rw [stopWorker_of_live waiter he hs]

/-! ## attempts -/

/-- a failed task that is to be tried again, with the timer that says when -/
def retryLater (cause : FailureCause) (now : Timestamp) (timer : Option TimerId) (t : Task) :
    Task :=
  { t with
    status := .retrying
    completed := some now
    error := some (t.failure cause).unchecked.message
    retries := t.retries + 1
    timer := timer }

inductive Failing (m : Moment) (p : Pool) (id : TaskId) (cause : FailureCause) : Pool → Prop where
  | skipped (h : ∀ t, p.ledger.find? id = some t → t.status = .retrying) : Failing m p id cause p
  | exhausted (t : Task) (ht : p.ledger.find? id = some t) (hs : t.status ≠ .retrying)
      (hr : ¬ t.retries < t.terms.maxRetries) :
      Failing m p id cause 
        (p.post (p.ledger.erase id) (t.resolve (.error (t.failure cause).unchecked)))
  | stranded (t : Task) (ht : p.ledger.find? id = some t) (hs : t.status ≠ .retrying)
      (hr : t.retries < t.terms.maxRetries) (ha : m.attached = false) :
      Failing m p id cause (p.post (p.ledger.modify id (retryLater cause m.now none)) t.disarm)
  | retried (t : Task) (ht : p.ledger.find? id = some t) (hs : t.status ≠ .retrying)
      (hr : t.retries < t.terms.maxRetries) (ha : m.attached = true) :
      Failing m p id cause
        { p with
          ledger := p.ledger.modify id (retryLater cause m.now (some p.nextTimer))
          nextTimer := p.nextTimer + 1
          outbox := p.outbox ++ (t.disarm.map Consequence.effect ++
            [.arm p.nextTimer t.terms.retryDelay (.retryDue id)]) }

theorem failTask_cases (p : Pool) (id : TaskId) (cause : FailureCause) :
    Failing m p id cause (failTask m p id cause) := by
  unfold failTask Ledger.fail
  cases ht : p.ledger.find? id with
  | none =>
    refine .skipped fun t h => ?_
    rw [ht] at h
    cases h
  | some t =>
    by_cases hs : t.status = .retrying
    · simp only [if_pos hs]
      refine .skipped fun t' h => ?_
      rw [ht] at h
      cases h
      exact hs
    · simp only [if_neg hs, Overflowing.unchecked_map]
      by_cases hr : t.retries < t.terms.maxRetries
      · simp only [if_pos hr, arm]
        by_cases ha : m.attached = true
        · simp only [if_pos ha]
          have hfind : (p.ledger.modify id (retryLater cause m.now none)).find? id
              = some (retryLater cause m.now none t) := by
            rw [Ledger.find?_modify p.ledger (retryLater cause m.now none) (fun _ => rfl), if_pos rfl,
              ht]
            rfl
          have hset : (p.ledger.modify id (retryLater cause m.now none)).setTimer id p.nextTimer
              = (p.ledger.modify id (retryLater cause m.now (some p.nextTimer)), []) := by
            unfold Ledger.setTimer
            rw [hfind]
            show (((p.ledger.modify id (retryLater cause m.now none)).modify id fun t =>
              { t with timer := some p.nextTimer }), _) = _
            rw [Ledger.modify_modify p.ledger (retryLater cause m.now none) _ (fun _ => rfl)]
            rfl
          have h := @Failing.retried m p id cause t ht hs hr ha
          show Failing m p id cause
            (let r := (p.ledger.modify id (retryLater cause m.now none)).setTimer id p.nextTimer
             { p with
               ledger := r.1
               nextTimer := p.nextTimer + 1
               outbox := p.outbox ++ t.disarm.map Consequence.effect ++
                 [.arm p.nextTimer t.terms.retryDelay (.retryDue id)] ++
                 r.2.map Consequence.effect })
          rw [hset]
          simpa using h
        · rw [if_neg ha]
          exact .stranded t ht hs hr (by simpa using ha)
      · simp only [if_neg hr]
        exact .exhausted t ht hs hr

/-- a task whose next attempt runs on a worker, with the timer of that attempt -/
def begun (w : WorkerId) (now : Timestamp) (timer : Option TimerId) (t : Task) : Task :=
  { t with
    status := .running
    started := some now
    worker := some w
    attempt := t.attempt + 1
    timer := timer }

inductive Beginning (m : Moment) (p : Pool) (id : TaskId) (w : WorkerId) : Pool → Prop where
  | skipped (h : ∀ t, p.ledger.find? id = some t → t.status ≠ .queued) : Beginning m p id w p
  | untimed (t : Task) (ht : p.ledger.find? id = some t) (hs : t.status = .queued)
      (ha : m.attached = false) :
      Beginning m p id w
        { p with ledger := p.ledger.modify id fun t => begun w m.now t.timer t }
  | timed (t : Task) (ht : p.ledger.find? id = some t) (hs : t.status = .queued)
      (ha : m.attached = true) :
      Beginning m p id w
        { p with
          ledger := p.ledger.modify id (begun w m.now (some p.nextTimer))
          nextTimer := p.nextTimer + 1
          outbox := p.outbox ++
            (.arm p.nextTimer t.terms.timeout (.taskTimeout id (t.attempt + 1)) ::
              t.disarm.map Consequence.effect) }

theorem startAttempt_cases (p : Pool) (id : TaskId) (w : WorkerId) :
    Beginning m p id w (startAttempt m p id w) := by
  unfold startAttempt Ledger.startAttempt
  cases ht : p.ledger.find? id with
  | none =>
    refine .skipped fun t h => ?_
    rw [ht] at h
    cases h
  | some t =>
    by_cases hs : t.status = .queued
    · simp only [if_pos hs, arm, Overflowing.unchecked_map, Overflowing.unchecked_succ]
      by_cases ha : m.attached = true
      · simp only [if_pos ha]
        have hfind : (p.ledger.modify id fun t => begun w m.now t.timer t).find? id
            = some (begun w m.now t.timer t) := by
          rw [Ledger.find?_modify p.ledger (fun t => begun w m.now t.timer t) (fun _ => rfl),
            if_pos rfl, ht]
          rfl
        have hset : (p.ledger.modify id fun t => begun w m.now t.timer t).setTimer id p.nextTimer
            = (p.ledger.modify id (begun w m.now (some p.nextTimer)), t.disarm) := by
          unfold Ledger.setTimer
          rw [hfind]
          show (((p.ledger.modify id fun t => begun w m.now t.timer t).modify id fun t =>
            { t with timer := some p.nextTimer }), _) = _
          rw [Ledger.modify_modify p.ledger (fun t => begun w m.now t.timer t) _ (fun _ => rfl)]
          rfl
        have h := Beginning.timed (m := m) (p := p) (w := w) t ht hs ha
        show Beginning m p id w
          (let r := (p.ledger.modify id fun t => begun w m.now t.timer t).setTimer id p.nextTimer
           { p with
             ledger := r.1
             nextTimer := p.nextTimer + 1
             outbox := p.outbox ++
               [.arm p.nextTimer t.terms.timeout (.taskTimeout id (t.attempt + 1))] ++
               r.2.map Consequence.effect })
        rw [hset]
        simpa using h
      · rw [if_neg ha]
        exact .untimed t ht hs (by simpa using ha)
    · simp only [if_neg hs]
      refine .skipped fun t' h => ?_
      rw [ht] at h
      cases h
      exact hs

/-! ## what leaves the roster, the ledger or the queue alone -/

theorem dispose_roster (p : Pool) (e : Entry) : (p.dispose e).roster = p.roster := by
  obtain ⟨s, r, h, _⟩ := dispose_eq p e
  rw [h]

theorem dispose_ledger (p : Pool) (e : Entry) : (p.dispose e).ledger = p.ledger := by
  obtain ⟨s, r, h, _⟩ := dispose_eq p e
  rw [h]

theorem failTask_roster (p : Pool) (id : TaskId) (cause : FailureCause) :
    (failTask m p id cause).roster = p.roster := by
  have h := failTask_cases (m := m) p id cause
  generalize failTask m p id cause = q at h
  cases h <;> rfl

theorem startAttempt_roster (p : Pool) (id : TaskId) (w : WorkerId) :
    (startAttempt m p id w).roster = p.roster := by
  have h := startAttempt_cases (m := m) p id w
  generalize startAttempt m p id w = q at h
  cases h <;> rfl

theorem dispose_queue (p : Pool) (e : Entry) : (p.dispose e).queue = p.queue := by
  obtain ⟨s, r, h, _⟩ := dispose_eq p e
  rw [h]

theorem failTask_queue (p : Pool) (id : TaskId) (cause : FailureCause) :
    (failTask m p id cause).queue = p.queue := by
  have h := failTask_cases (m := m) p id cause
  generalize failTask m p id cause = q at h
  cases h <;> rfl

theorem startAttempt_queue (p : Pool) (id : TaskId) (w : WorkerId) :
    (startAttempt m p id w).queue = p.queue := by
  have h := startAttempt_cases (m := m) p id w
  generalize startAttempt m p id w = q at h
  cases h <;> rfl

theorem armTicks_roster (p : Pool) : (p.armTicks m).roster = p.roster := by
  unfold armTicks
  split <;> rfl

end Pool

end TaskPool
