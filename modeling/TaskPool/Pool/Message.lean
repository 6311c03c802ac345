import TaskPool.Roster
import TaskPool.Ledger

/-!
# What the pool hears and what it asks for

The pool handles one `Message` after the other: a call of a caller, a report of a worker, or an
alarm that went off.  What it wants done outside itself it writes down as `Effect`s.

* `Request`, `Answer`   a call and what it is answered
* `Alarm`               what a timer of the pool says when it goes off
* `Anomaly`             what the pool should never come upon, and warns of when it does
* `Effect`              start, tell or end a worker; set or take back a timer; answer a caller;
                        deliver the outcome of a task; warn
* `Moment`              what a step of the pool may know of its surroundings
-/

namespace TaskPool

abbrev CallId := Nat

inductive Request where
  | start
  | stop
  /-- the identifier is the one the task gets if it is accepted -/
  | submit (id : TaskId) (kind : Kind) (payload : Json) (options : Options)
  | cancel (id : TaskId)
  | status (id : TaskId)
  | statuses
  | workers
  | stats
  | setAffinity (worker : WorkerId) (kinds : KindSet)
  | getAffinity (worker : WorkerId)
  | clearAffinity (worker : WorkerId)
  | requestMetrics (worker : Option WorkerId)

structure Stats where
  running : Bool
  workerCount : Nat
  idleWorkers : Nat
  busyWorkers : Nat
  queuedTasks : Nat
  activeTasks : Nat
  tasksByKind : List (Kind × Nat)
  tasksByStatus : List (Status × Nat)

inductive Answer where
  | done
  | accepted (id : TaskId)
  | refused (why : Refusal)
  | cancelled (outcome : CancelOutcome)
  | task (snapshot : Option TaskSnapshot)
  | tasks (snapshots : List TaskSnapshot)
  | workers (snapshots : List WorkerSnapshot)
  | stats (s : Stats)
  | found (known : Bool)
  | affinity (kinds : Option (List Kind))
  | asked (count : Nat)

inductive Alarm where
  | taskTimeout (task : TaskId) (attempt : UInt32)
  | retryDue (task : TaskId)
  | stopDeadline (worker : WorkerId)
  | autoscaleTick
  deriving DecidableEq

inductive Message where
  | call (caller : CallId) (request : Request)
  | report (worker : WorkerId) (event : Event)
  | ring (alarm : Alarm)

inductive Anomaly where
  /-- a ticket whose task is not in the ledger -/
  | unknownTask (task : TaskId)
  /-- a worker that should be idle takes no commands -/
  | workerGone (worker : WorkerId) (task : TaskId)
  deriving DecidableEq

inductive Effect where
  | reply (caller : CallId) (answer : Answer)
  | deliver (task : TaskId) (outcome : Outcome)
  | hire (worker : WorkerId)
  | tell (worker : WorkerId) (command : Command)
  | dismiss (worker : WorkerId)
  | arm (timer : TimerId) (delay : Duration) (alarm : Alarm)
  | armEvery (timer : TimerId) (period : Duration) (alarm : Alarm)
  | disarm (timer : TimerId)
  | warn (what : Anomaly)

def Consequence.effect : Consequence → Effect
  | .deliver task outcome => .deliver task outcome
  | .disarm timer => .disarm timer

structure Moment where
  now : Timestamp
  /-- workers that take no commands any more -/
  gone : List WorkerId
  /-- somebody can still send to the pool: without that it sets no timers and starts no workers -/
  attached : Bool

def Moment.reaches (m : Moment) (worker : WorkerId) : Bool := !m.gone.contains worker

end TaskPool
