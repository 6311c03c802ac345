import TaskPool.Simulation.State
import TaskPool.Time.Rfc3339

/-!
# The turns of the actors

An actor that runs goes on until it has to wait.

* `World.runWorker`    a worker: its handler first, then the commands that have come
* `World.runWatcher`   reports the end of a worker
* `World.runTimer`     arms a timer, or sends what it has to say
* `World.runStream`    asks for the counters of the pool
* `World.runPool`      handles every message that waits, in order
-/

namespace TaskPool

namespace World

/-! ## handlers -/

/-- a handler does its actions until it has to wait or ends -/
def runActions (seat : Nat) : List Action → World → Option Ended × World
  | [], w => (some (.value .null), w)
  | .skip :: rest, w => runActions seat rest w
  | .finish how :: _, w => (some how, w)
  | .sleep ms :: rest, w =>
    if ms = 0 then runActions seat rest w
    else
      let deadline := w.clock + ms
      let w := w.sleep deadline (.worker seat)
      (none, w.modifySeat seat fun s =>
        { s with
          job := s.job.map fun j =>
            { j with
              actions := rest
              hold := .until deadline } })
  | .acquire name :: rest, w =>
    let g := w.findGate name
    if g.permits > 0 ∧ g.line.isEmpty then
      runActions seat rest (w.putGate { g with permits := g.permits - 1 })
    else
      let w := w.putGate { g with line := g.line ++ [seat] }
      (none, w.modifySeat seat fun s =>
        { s with
          job := s.job.map fun j =>
            { j with
              actions := rest
              hold := .gate name false } })

def Hold.isOver (clock : Nat) : Hold → Bool
  | .nothing => true
  | .until deadline => deadline ≤ clock
  | .gate _ granted => granted

/-- how the handler of a seat ended, if it did -/
def pollJob (w : World) (seat : Nat) : Option Ended × World :=
  match (w.seats[seat]?).bind Seat.job with
  | none => (none, w)
  | some j =>
    if Hold.isOver w.clock j.hold then runActions seat j.actions (w.setHold seat .nothing)
    else (none, w)

def runsOf (w : World) (task : TaskId) : Nat := (w.runs.lookup task).getD 0

/-- the handler of a task starts; the start of a scripted one is noted -/
def startJob (w : World) (seat : Nat) (worker : WorkerId) (task : TaskId) (kind : Kind)
    (payload : Json) : World :=
  let n := w.runsOf task + 1
  let report := HandlerTable.processValue (Rfc3339.write w.now) memory
  let job : Job :=
    { task := task
      actions := w.handlers.start kind payload worker n report
      hold := .nothing }
  let w := w.modifySeat seat fun s => { s with job := some job }
  if w.handlers.find? kind = some .scripted then
    { w with
      runs := (task, n) :: w.runs.filter fun r => r.1 != task
      log := w.log ++ [⟨task, worker, kind, n⟩] }
  else w

/-! ## workers and their watchers -/

/-- the state of a worker after one of its steps, with what it reports -/
def settleStep (w : World) (seat : Nat) (r : Worker × List Event) : World :=
  (w.modifySeat seat fun s => { s with worker := r.1 }).postEvents r.1.id r.2

/-- take the next step of a worker by itself: false when it waits -/
def stepWorker (w : World) (seat : Nat) : Bool × World :=
  match w.seats[seat]? with
  | none => (false, w)
  | some s =>
    match s.worker.step w.nanos memory with
    | none => (false, w)
    | some r =>
      let w := w.settleStep seat r
      match s.worker.next? with
      | some (.task id kind payload) => (true, w.startJob seat s.worker.id id kind payload)
      | _ => (true, w)

def isRunning (w : World) (seat : Nat) : Bool :=
  match w.seats[seat]? with
  | some s =>
    match s.worker.phase with
    | .running _ => true
    | _ => false
  | none => false

def finishJob (w : World) (seat : Nat) (how : Ended) : World :=
  match w.seats[seat]? with
  | none => w
  | some s =>
    (w.modifySeat seat fun s => { s with job := none }).settleStep seat (s.worker.finish w.nanos how)

/-- a worker goes on until it waits; `fuel` bounds the steps and `Worker.weight` suffices -/
def goOn (seat : Nat) : Nat → World → World
  | 0, w => w
  | fuel + 1, w =>
    if w.isRunning seat then
      match w.pollJob seat with
      | (some how, w) => goOn seat fuel (w.finishJob seat how)
      | (none, w) =>
        match w.stepWorker seat with
        | (true, w) => goOn seat fuel w
        | (false, w) => w
    else
      match w.stepWorker seat with
      | (true, w) => goOn seat fuel w
      | (false, w) => w

def hasEnded (w : World) (seat : Nat) : Bool :=
  match w.seats[seat]? with
  | some s => s.worker.hasEnded
  | none => true

def abortNow (w : World) (seat : Nat) : World :=
  let hold := (((w.seats[seat]?).bind Seat.job).map Job.hold).getD .nothing
  (w.leaveHold seat hold).modifySeat seat fun s =>
    { s with
      worker := s.worker.abort
      job := none }

def runWorker (w : World) (seat : Nat) : World :=
  match w.seats[seat]? with
  | none => w
  | some s =>
    if s.worker.hasEnded then w
    else
      let w := if s.doomed then w.abortNow seat else goOn seat (s.worker.weight + 1) w
      if w.hasEnded seat then w.wake (.watcher seat) else w

def runWatcher (w : World) (seat : Nat) : World :=
  match w.seats[seat]? with
  | none => w
  | some s =>
    match s.worker.phase with
    | .ended how =>
      if s.reported then w
      else
        (w.modifySeat seat fun s => { s with reported := true }).postEvents s.worker.id how.events
    | _ => w

/-! ## timers -/

def modifyTimer (w : World) (id : TimerId) (f : PoolTimer → PoolTimer) : World :=
  { w with timers := w.timers.map fun t => if t.id = id then f t else t }

def dropTimer (w : World) (id : TimerId) : World :=
  { w with timers := w.timers.filter fun t => t.id != id }

def disarm (w : World) (id : TimerId) : World :=
  let w := (w.dropTimer id).cancelSleep (.timer id)
  { w with ready := w.ready.filter (· != .timer id) }

def armTimer (w : World) (id : TimerId) (deadline : Nat) : World :=
  (w.modifyTimer id fun t => { t with phase := .armed deadline }).sleep deadline (.timer id)

/-- a timer that repeats needs a time between its rings: without one it never rings -/
def runTimer (w : World) (id : TimerId) : World :=
  match w.timers.find? fun t => t.id == id with
  | none => w
  | some t =>
    match t.phase with
    | .armed _ => w
    | .fresh =>
      if t.delay = 0 then
        if t.repeats then w.dropTimer id else (w.dropTimer id).post (.ring t.alarm)
      else w.armTimer id (w.clock + t.delay)
    | .rung deadline =>
      if t.repeats then (w.post (.ring t.alarm)).armTimer id (deadline + t.delay)
      else (w.dropTimer id).post (.ring t.alarm)

/-! ## streams -/

def modifyStream (w : World) (caller : CallId) (f : Stream → Stream) : World :=
  { w with streams := w.streams.map fun s => if s.caller = caller then f s else s }

/-- without a pool there is nothing to ask and the stream ends -/
def runStream (w : World) (caller : CallId) : World :=
  if w.pool.isSome then
    (w.modifyStream caller fun s => { s with asking := true }).post (.call caller .stats)
  else (w.modifyStream caller fun s => { s with ended := true }).emit (.closed caller)

def isStream (w : World) (caller : CallId) : Bool := w.streams.any fun s => s.caller == caller

/-- milliseconds between two reports of a stream -/
def streamPeriod : Nat := 2000

def feedStream (w : World) (caller : CallId) (stats : Stats) : World :=
  ((w.modifyStream caller fun s => { s with asking := false }).emit (.counters caller stats)).sleep
    (w.clock + streamPeriod) (.stream caller)

/-! ## the pool -/

def dropCaller (w : World) (caller : CallId) : World :=
  { w with callers := w.callers.filter fun c => c.id != caller }

/-- a caller whose task was accepted stays until the task is over, if it is one that stays -/
def acceptCaller (w : World) (caller : CallId) (task : TaskId) : World :=
  { w with
    callers := w.callers.filterMap fun c =>
      if c.id = caller then (if c.stays then some { c with task := some task } else none)
      else some c }

def answer (w : World) (caller : CallId) (a : Answer) : World :=
  match a with
  | .stats s =>
    if w.isStream caller then w.feedStream caller s
    else (w.dropCaller caller).emit (.answered caller a)
  | .accepted id => (w.acceptCaller caller id).emit (.answered caller a)
  | _ => (w.dropCaller caller).emit (.answered caller a)

def settle (w : World) (task : TaskId) (outcome : Outcome) : World :=
  let w := { w with callers := w.callers.filter fun c => c.task != some task }
  w.emit (.settled task outcome)

def addTimer (w : World) (id : TimerId) (delay : Duration) (repeats : Bool) (alarm : Alarm) :
    World :=
  let timer : PoolTimer := ⟨id, delay.millis, repeats, alarm, .fresh⟩
  let w := { w with timers := w.timers ++ [timer] }
  w.wake (.timer id)

def perform (w : World) : Effect → World
  | .reply caller a => w.answer caller a
  | .deliver task outcome => w.settle task outcome
  | .hire worker => w.hire worker
  | .tell worker c =>
    match w.seatOf? worker with
    | some seat => (w.send seat c).2
    | none => w
  | .dismiss worker =>
    match w.seatOf? worker with
    | some seat => w.abort seat
    | none => w
  | .arm id delay alarm => w.addTimer id delay false alarm
  | .armEvery id period alarm => w.addTimer id period true alarm
  | .disarm id => w.disarm id
  | .warn _ => w

/-- a pool that panics is gone: whoever waits for it is told so, and its workers get no more
commands -/
def losePool (w : World) (p : Pool) : World :=
  let asking := w.callers.filter fun c => c.task.isNone
  let watching := w.streams.filter Stream.asking
  let w :=
    { w with
      pool := none
      listening := false
      callers := []
      streams := w.streams.map fun s => if s.asking then ⟨s.caller, false, true⟩ else s
      out := w.out ++ p.ledger.tasks.map (fun t => .settled t.id (.error .unavailable)) ++
        asking.map (fun c => .unavailable c.id) ++ watching.map fun s => .closed s.caller }
  p.roster.entries.foldl (fun w e => w.detach e.seat) w

def deliver (m : Moment) (w : World) (message : Message) : World :=
  match w.pool with
  | none => w
  | some p =>
    match p.receive m message with
    | .error _ => w.losePool p
    | .ok p => p.outbox.foldl perform { w with pool := some { p with outbox := [] } }

def runPool (w : World) : World :=
  let messages := w.inbox
  messages.foldl (deliver w.moment) { w with inbox := [] }

def run (w : World) : Actor → World
  | .pool => w.runPool
  | .worker seat => w.runWorker seat
  | .watcher seat => w.runWatcher seat
  | .timer id => w.runTimer id
  | .stream caller => w.runStream caller

end World

end TaskPool
