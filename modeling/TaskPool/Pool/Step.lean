import TaskPool.Pool.Basic

/-!
# Steps of the pool

`Pool.handle` is the whole behaviour of the pool: the state after a message, with what it asks
for in `outbox`.  With overflow checks it is `Pool.receive`, as long as the pool lives.

* `assign`       hands an idle worker the ticket that fits it best
* `stopWorker`   asks a worker to end and arms the deadline of its grace
* `finishStop`   a stopping worker is gone, or has outstayed its grace
* `crash`        a worker ended without being asked to
* `failTask`     an attempt failed: another one is armed, or the task is over
* `autoscale`    one tick of the autoscaler
* `overflows`    a counter overflows, on the way to the state after a message

A worker that is stopping and a worker that has crashed get no more tasks.  Reports of workers
that are not in the roster change nothing.
-/

namespace TaskPool

namespace Pool

/-! ## handing out tasks -/

def assign (m : Moment) (p : Pool) (worker : WorkerId) : Pool :=
  match p.roster.find? worker with
  | none => p
  | some e =>
    if e.status = .idle then
      match p.queue.popFor (if p.config.affinity then e.affinity else none) with
      | none => p
      | some (t, queue) =>
        match p.ledger.find? t.task with
        | none =>
          { p with
            queue := queue
            outbox := p.outbox ++ [.warn (.unknownTask t.task)] }
        | some task =>
          if m.reaches worker then
            { p with
              queue := queue
              roster := p.roster.modify worker fun e => e.setBusy t.task m.now
              ledger := p.ledger.markDispatched t.task worker
              outbox := p.outbox ++ [.tell worker (.task t.task t.kind task.terms.payload)] }
          else
            { p with
              queue := queue.push t
              outbox := p.outbox ++ [.warn (.workerGone worker t.task)] }
    else p

/-- each of the workers in turn, as long as tasks wait -/
def assignEach (m : Moment) : List WorkerId → Pool → Pool
  | [], p => p
  | w :: ws, p => if p.queue.isEmpty then p else assignEach m ws (assign m p w)

def enqueue (m : Moment) (p : Pool) (t : Ticket) : Pool :=
  let p := { p with queue := p.queue.push t }
  assignEach m p.roster.idleIds p

/-! ## workers that go -/

def stopWorker (m : Moment) (waiter : Option CallId) (p : Pool) (worker : WorkerId) : Pool :=
  match p.roster.find? worker with
  | none => waiter.toList.foldl wake p
  | some e =>
    if e.status = .stopping then
      p.updateEntry worker fun e => { e with waiters := e.waiters ++ waiter.toList }
    else
      let (timer, p) := p.arm m p.config.stopGrace (.stopDeadline worker)
      (p.updateEntry worker fun e =>
        { e with
          waiters := e.waiters ++ waiter.toList
          status := .stopping
          task := none
          stopTimer := timer }).tell m worker .terminate

def finishStop (m : Moment) (p : Pool) (worker : WorkerId) : Pool :=
  match p.roster.find? worker with
  | none => p
  | some e =>
    let p := (p.dropEntry worker).dispose e
    if e.replaceOnExit ∧ p.running then p.hire m else p

def failTask (m : Moment) (p : Pool) (id : TaskId) (cause : FailureCause) : Pool :=
  match (p.ledger.fail id cause m.now).unchecked with
  | none => p
  | some (.exhausted, ledger, consequences) => p.post ledger consequences
  | some (.retry delay, ledger, consequences) =>
    match (p.post ledger consequences).arm m delay (.retryDue id) with
    | (none, p) => p
    | (some timer, p) =>
      let (ledger, consequences) := p.ledger.setTimer id timer
      p.post ledger consequences

def crash (m : Moment) (p : Pool) (worker : WorkerId) (detail : String) : Pool :=
  match p.roster.find? worker with
  | none => p
  | some e =>
    if e.status = .stopping then finishStop m p worker
    else
      let p := (p.dropEntry worker).dispose e
      let p :=
        match e.task with
        | none => p
        | some task => failTask m p task (.crash worker detail)
      if p.running then p.hire m else p

/-! ## calls -/

def start (m : Moment) (p : Pool) : Pool :=
  if p.running then p
  else
    let p := { p with running := true }
    let p := hireMany m (p.config.minWorkers - p.roster.live.length) p
    if p.config.autoscaling then p.armTicks m else p

def stop (m : Moment) (p : Pool) (caller : CallId) : Pool :=
  let p := disarmTicks { p with running := false }
  let (ledger, consequences) := p.ledger.drain .shutdown
  let p := { p with queue := .empty }.post ledger consequences
  match p.roster.ids with
  | [] => p.reply caller .done
  | workers =>
    workers.foldl (stopWorker m (some caller))
      { p with stops := p.stops ++ [⟨caller, workers.length⟩] }

def terms (c : Config) (kind : Kind) (payload : Json) (o : Options) : Terms where
  kind := kind
  payload := payload
  priority := o.priority.getD .normal
  timeout := o.timeout.getD c.taskTimeout
  maxRetries := o.maxRetries.getD c.maxRetries
  retryDelay := o.retryDelay.getD c.retryDelay

/-- why a submission would be refused now -/
def refusal? (p : Pool) : Option Refusal :=
  if !p.running then some .notRunning
  else if p.config.maxQueueSize ≤ p.queue.size then some (.queueFull p.config.maxQueueSize)
  else none

def submit (m : Moment) (p : Pool) (id : TaskId) (t : Terms) : Pool :=
  let task := Task.new id t m.now
  enqueue m { p with ledger := p.ledger.insert task } task.ticket

def cancel (p : Pool) (id : TaskId) : CancelOutcome × Pool :=
  let (outcome, ledger, consequences) := p.ledger.cancel id
  (outcome, { p with queue := p.queue.remove id }.post ledger consequences)

/-- the live workers that still take commands -/
def reachable (m : Moment) (p : Pool) : List WorkerId :=
  (p.roster.live.map Entry.worker).filter m.reaches

def requestMetrics (m : Moment) (p : Pool) (worker : Option WorkerId) : Nat × Pool :=
  let asked :=
    match worker with
    | none => p.reachable m
    | some w => (p.reachable m).filter (· == w)
  (asked.length, p.emitAll (asked.map fun w => .tell w .reportMetrics))

def call (m : Moment) (p : Pool) (caller : CallId) : Request → Pool
  | .start => (p.start m).reply caller .done
  | .stop => p.stop m caller
  | .submit id kind payload options =>
    match p.refusal? with
    | some why => p.reply caller (.refused why)
    | none => (p.submit m id (terms p.config kind payload options)).reply caller (.accepted id)
  | .cancel id =>
    let (outcome, p) := p.cancel id
    p.reply caller (.cancelled outcome)
  | .status id => p.reply caller (.task ((p.ledger.find? id).map Task.snapshot))
  | .statuses => p.reply caller (.tasks p.ledger.snapshots)
  | .workers => p.reply caller (.workers p.roster.snapshots)
  | .stats => p.reply caller (.stats p.stats)
  | .setAffinity worker kinds =>
    (p.updateEntry worker fun e => { e with affinity := some kinds }).reply caller
      (.found (p.roster.find? worker).isSome)
  | .getAffinity worker =>
    p.reply caller
      (.affinity (((p.roster.find? worker).bind Entry.affinity).map KindSet.toList))
  | .clearAffinity worker =>
    (p.updateEntry worker fun e => { e with affinity := none }).reply caller
      (.found (p.roster.find? worker).isSome)
  | .requestMetrics worker =>
    let (asked, p) := p.requestMetrics m worker
    p.reply caller (.asked asked)

/-! ## reports -/

/-- the task is in flight and was handed to this worker -/
def isAssignedTo (p : Pool) (id : TaskId) (worker : WorkerId) : Bool :=
  match p.ledger.find? id with
  | some t => t.worker == some worker
  | none => false

def startAttempt (m : Moment) (p : Pool) (id : TaskId) (worker : WorkerId) : Pool :=
  match (p.ledger.startAttempt id worker m.now).unchecked with
  | none => p
  | some (attempt, ledger) =>
    match { p with ledger := ledger }.arm m attempt.limit (.taskTimeout id attempt.number) with
    | (none, p) => p
    | (some timer, p) =>
      let (ledger, consequences) := p.ledger.setTimer id timer
      p.post ledger consequences

def exitDetail (graceful : Bool) : String :=
  if graceful then "worker exited without being asked to stop"
  else "worker runtime terminated abnormally"

def report (m : Moment) (p : Pool) (worker : WorkerId) : Event → Pool
  | .ready =>
    match p.roster.find? worker with
    | none => p
    | some e =>
      if e.status = .starting then
        assign m (p.updateEntry worker fun e => e.setIdle m.now) worker
      else p
  | .busy task =>
    match p.roster.find? worker with
    | none => p
    | some e =>
      startAttempt m
        (if e.status = .stopping then p else p.updateEntry worker fun e => e.setBusy task m.now)
        task worker
  | .idle =>
    match p.roster.find? worker with
    | none => p
    | some e =>
      if e.status = .busy then
        assign m (p.updateEntry worker fun e => e.setIdle m.now) worker
      else p
  | .result task value =>
    let p := p.updateEntry worker fun e => { e with processed := e.processed + 1 }
    if p.isAssignedTo task worker then
      match p.ledger.complete task value with
      | none => p
      | some (ledger, consequences) => p.post ledger consequences
    else p
  | .error task detail =>
    let p := p.updateEntry worker fun e => { e with failed := e.failed + 1 }
    if p.isAssignedTo task worker then failTask m p task (.handler detail) else p
  | .fatal detail => crash m p worker detail
  | .metrics sample => p.updateEntry worker fun e => e.recordMetrics sample
  | .exited graceful => crash m p worker (exitDetail graceful)

/-! ## alarms -/

/-- the worker is held up by this very task -/
def isStuckOn (p : Pool) (worker : WorkerId) (task : TaskId) : Bool :=
  match p.roster.find? worker with
  | some e => e.status == .busy && e.task == some task
  | none => false

def timeOut (m : Moment) (p : Pool) (task : TaskId) (attempt : UInt32) : Pool :=
  match p.ledger.timeOut task attempt with
  | none => p
  | some (worker, ledger, consequences) =>
    let p := p.post ledger consequences
    match worker with
    | none => p
    | some worker =>
      if p.isStuckOn worker task then
        stopWorker m none (p.updateEntry worker fun e => { e with replaceOnExit := true }) worker
      else p

def retry (m : Moment) (p : Pool) (task : TaskId) : Pool :=
  if p.running then
    match p.ledger.resetForRetry task with
    | none => p
    | some (ticket, ledger) => enqueue m { p with ledger := ledger } ticket
  else p

def gauge (p : Pool) : Gauge where
  loads := p.roster.live.map fun e => ⟨e.worker, e.status, e.cpu, e.lastActivity⟩
  queued := p.queue.size

def autoscale (m : Moment) (p : Pool) : Pool :=
  if p.running then
    let p := (p.requestMetrics m none).2
    let plan := p.gauge.plan p.config m.now
    let p :=
      match plan.decision with
      | .up count => hireMany m count p
      | .down workers => workers.foldl (stopWorker m none) p
      | .hold => p
    plan.evict.foldl (stopWorker m none) p
  else p

def ring (m : Moment) (p : Pool) : Alarm → Pool
  | .taskTimeout task attempt => timeOut m p task attempt
  | .retryDue task => retry m p task
  | .stopDeadline worker =>
    match p.roster.find? worker with
    | none => p
    | some e => if e.status = .stopping then finishStop m p worker else p
  | .autoscaleTick => autoscale m p

def handle (m : Moment) (p : Pool) : Message → Pool
  | .call caller request => call m p caller request
  | .report worker event => report m p worker event
  | .ring alarm => ring m p alarm

/-! ## overflow checks -/

/-- the task that is given up when a worker is gone -/
def bereaved? (p : Pool) (worker : WorkerId) : Option TaskId :=
  match p.roster.find? worker with
  | none => none
  | some e => if e.status = .stopping then none else e.task

/-- attempts are counted when one begins and when one fails -/
def overflows (m : Moment) (p : Pool) : Message → Bool
  | .report worker (.busy task) =>
    (p.roster.find? worker).isSome && (p.ledger.startAttempt task worker m.now).overflow
  | .report worker (.error task detail) =>
    p.isAssignedTo task worker && (p.ledger.fail task (.handler detail) m.now).overflow
  | .report worker (.fatal detail) =>
    (p.bereaved? worker).any fun task =>
      (p.ledger.fail task (.crash worker detail) m.now).overflow
  | .report worker (.exited graceful) =>
    (p.bereaved? worker).any fun task =>
      (p.ledger.fail task (.crash worker (exitDetail graceful)) m.now).overflow
  | _ => false

/-- with overflow checks an overflow is the end of the pool -/
def receive (m : Moment) (p : Pool) (msg : Message) : Except Panic Pool :=
  Overflowing.checked ⟨p.handle m msg, p.overflows m msg⟩

end Pool

end TaskPool
