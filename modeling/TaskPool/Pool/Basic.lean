import TaskPool.Pool.Message
import TaskPool.Scaling

/-!
# The state of the pool

* `Pool`            settings, roster, ledger and queue, and the stop requests not yet answered
* `Pool.emit`       asks for something to be done outside
* `Pool.arm`        sets a timer under a number not used before
* `Pool.hire`       starts a worker under a number not used before
* `Pool.wake`       tells a stop request that one more of its workers is gone; the last one
                    answers it
* `Pool.dispose`    what becomes of an entry that was taken out of the roster

`outbox` holds what was asked for in the step at hand, in order.
-/

namespace TaskPool

/-- a stop request, and how many of its workers are not gone yet -/
structure PendingStop where
  caller : CallId
  remaining : Nat
  deriving DecidableEq

structure Pool where
  config : Config
  running : Bool
  roster : Roster
  ledger : Ledger
  queue : Queue
  autoscaleTimer : Option TimerId
  nextTimer : TimerId
  stops : List PendingStop
  outbox : List Effect

namespace Pool

def new (config : Config) : Pool where
  config := config
  running := false
  roster := .empty
  ledger := .empty
  queue := .empty
  autoscaleTimer := none
  nextTimer := 0
  stops := []
  outbox := []

def emit (p : Pool) (e : Effect) : Pool := { p with outbox := p.outbox ++ [e] }

def emitAll (p : Pool) (es : List Effect) : Pool := { p with outbox := p.outbox ++ es }

/-- the ledger after an operation, with what follows from it -/
def post (p : Pool) (ledger : Ledger) (consequences : List Consequence) : Pool :=
  { p with
    ledger := ledger
    outbox := p.outbox ++ consequences.map Consequence.effect }

def reply (p : Pool) (caller : CallId) (a : Answer) : Pool := p.emit (.reply caller a)

def updateEntry (p : Pool) (worker : WorkerId) (f : Entry → Entry) : Pool :=
  { p with roster := p.roster.modify worker f }

def dropEntry (p : Pool) (worker : WorkerId) : Pool := { p with roster := p.roster.erase worker }

def arm (p : Pool) (m : Moment) (delay : Duration) (alarm : Alarm) : Option TimerId × Pool :=
  if m.attached then
    (some p.nextTimer,
      { p with
        nextTimer := p.nextTimer + 1
        outbox := p.outbox ++ [.arm p.nextTimer delay alarm] })
  else (none, p)

/-- ticks of the autoscaler, one each interval -/
def armTicks (p : Pool) (m : Moment) : Pool :=
  if m.attached then
    { p with
      autoscaleTimer := some p.nextTimer
      nextTimer := p.nextTimer + 1
      outbox := p.outbox ++ [.armEvery p.nextTimer p.config.autoscaleInterval .autoscaleTick] }
  else { p with autoscaleTimer := none }

def disarmTicks (p : Pool) : Pool :=
  { p with
    autoscaleTimer := none
    outbox := p.outbox ++ (p.autoscaleTimer.toList.map .disarm) }

/-- a command to a worker, which may have stopped listening -/
def tell (p : Pool) (m : Moment) (worker : WorkerId) (c : Command) : Pool :=
  if m.reaches worker then p.emit (.tell worker c) else p

def hire (p : Pool) (m : Moment) : Pool :=
  if m.attached then
    let (worker, roster) := p.roster.allocate
    { p with
      roster := roster.insert (.new worker worker m.now)
      outbox := p.outbox ++ [.hire worker] }
  else p

def hireMany (m : Moment) : Nat → Pool → Pool
  | 0, p => p
  | n + 1, p => hireMany m n (p.hire m)

def wake (p : Pool) (caller : CallId) : Pool :=
  match p.stops.find? fun s => s.caller == caller with
  | none => p
  | some s =>
    if s.remaining ≤ 1 then
      { p with
        stops := p.stops.filter fun s => s.caller != caller
        outbox := p.outbox ++ [.reply caller .done] }
    else
      { p with
        stops := p.stops.map fun s =>
          if s.caller = caller then { s with remaining := s.remaining - 1 } else s }

def dispose (p : Pool) (e : Entry) : Pool :=
  e.waiters.foldl wake
    (p.emitAll (e.stopTimer.toList.map .disarm ++ [.dismiss e.worker]))

def stats (p : Pool) : Stats where
  running := p.running
  workerCount := p.roster.size
  idleWorkers := p.roster.count .idle
  busyWorkers := p.roster.count .busy
  queuedTasks := p.queue.size
  activeTasks := p.ledger.size - p.queue.size
  tasksByKind := p.ledger.countsByKind
  tasksByStatus := p.ledger.countsByStatus

end Pool

end TaskPool
