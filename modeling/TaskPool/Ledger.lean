import TaskPool.Number.Overflow
import TaskPool.Queue

/-!
# The ledger of tasks in flight

A task stands in the ledger from the moment it is accepted until its outcome is delivered, and
leaves it in the same step.  Every operation says what has to be done outside the ledger as a
list of `Consequence`s:

* `deliver`   hand the outcome of a task to its caller
* `disarm`    take back a timer

The operations and the statuses they ask for:

* `startAttempt`      queued → running
* `fail`              queued or running → retrying, or out when no attempt is left
* `resetForRetry`     retrying → queued
* `complete`          out, unless the task waits for its next attempt
* `timeOut`           out, only while the very attempt that was timed is running
* `cancel`, `drain`   out

An operation that does not apply answers `none` and has no consequence.  Attempts and retries are
counted in 32 bits: `startAttempt` and `fail` count one on, and tell whether that is an overflow.
-/

namespace TaskPool

inductive Consequence where
  | deliver (task : TaskId) (outcome : Outcome)
  | disarm (timer : TimerId)

inductive FailureCause where
  | handler (detail : String)
  | crash (worker : WorkerId) (detail : String)

inductive Verdict where
  | retry (delay : Duration)
  | exhausted
  deriving DecidableEq

structure Attempt where
  number : UInt32
  limit : Duration
  deriving DecidableEq

structure Ledger where
  /-- the tasks in the order of their acceptance -/
  tasks : List Task

namespace Task

/-- take back the timer of a task, if one is armed -/
def disarm (t : Task) : List Consequence := t.timer.toList.map .disarm

/-- what follows when a task is over: its timer goes and its caller hears the outcome -/
def resolve (t : Task) (outcome : Outcome) : List Consequence := t.disarm ++ [.deliver t.id outcome]

/-- whatever the cause, the attempts are counted -/
def failure (t : Task) (cause : FailureCause) : Overflowing Failure :=
  (Overflowing.succ t.retries).map fun attempts =>
    match cause with
    | .handler detail => .failed detail attempts
    | .crash worker detail => .workerCrashed worker detail

end Task

namespace Ledger

def empty : Ledger := ⟨[]⟩

def find? (l : Ledger) (id : TaskId) : Option Task := l.tasks.find? fun t => t.id == id

def contains (l : Ledger) (id : TaskId) : Bool := l.tasks.any fun t => t.id == id

def size (l : Ledger) : Nat := l.tasks.length

def isEmpty (l : Ledger) : Bool := l.tasks.isEmpty

def insert (l : Ledger) (t : Task) : Ledger := ⟨l.tasks ++ [t]⟩

def erase (l : Ledger) (id : TaskId) : Ledger := ⟨l.tasks.filter fun t => t.id != id⟩

def modify (l : Ledger) (id : TaskId) (f : Task → Task) : Ledger :=
  ⟨l.tasks.map fun t => if t.id = id then f t else t⟩

def snapshots (l : Ledger) : List TaskSnapshot :=
  (l.tasks.map Task.snapshot).mergeSort fun a b => a.created.le b.created

def countKind (l : Ledger) (k : Kind) : Nat := l.tasks.countP fun t => t.terms.kind == k

def countStatus (l : Ledger) (s : Status) : Nat := l.tasks.countP fun t => t.status == s

/-- the kinds that occur, each with the number of its tasks -/
def countsByKind (l : Ledger) : List (Kind × Nat) :=
  (Kind.all.map fun k => (k, l.countKind k)).filter fun c => c.2 != 0

def countsByStatus (l : Ledger) : List (Status × Nat) :=
  (Status.all.map fun s => (s, l.countStatus s)).filter fun c => c.2 != 0

/-! ## attempts -/

/-- note the worker a task was handed to -/
def markDispatched (l : Ledger) (id : TaskId) (worker : WorkerId) : Ledger :=
  l.modify id fun t => { t with worker := some worker }

def startAttempt (l : Ledger) (id : TaskId) (worker : WorkerId) (now : Timestamp) :
    Overflowing (Option (Attempt × Ledger)) :=
  match l.find? id with
  | none => .exact none
  | some t =>
    if t.status = .queued then
      (Overflowing.succ t.attempt).map fun number =>
        some (⟨number, t.terms.timeout⟩,
          l.modify id fun t =>
            { t with
              status := .running
              started := some now
              worker := some worker
              attempt := t.attempt + 1 })
    else .exact none

/-- keep a timer for the state the task is in; a timer for a task that is gone is taken back -/
def setTimer (l : Ledger) (id : TaskId) (timer : TimerId) : Ledger × List Consequence :=
  match l.find? id with
  | none => (l, [.disarm timer])
  | some t => (l.modify id fun t => { t with timer := some timer }, t.disarm)

/-! ## endings -/

def complete (l : Ledger) (id : TaskId) (value : Json) : Option (Ledger × List Consequence) :=
  match l.find? id with
  | none => none
  | some t => if t.status = .retrying then none else some (l.erase id, t.resolve (.ok value))

/-- the attempts are counted before it is asked whether there may be another; retries that are fewer
than those allowed do not overflow -/
def fail (l : Ledger) (id : TaskId) (cause : FailureCause) (now : Timestamp) :
    Overflowing (Option (Verdict × Ledger × List Consequence)) :=
  match l.find? id with
  | none => .exact none
  | some t =>
    if t.status = .retrying then .exact none
    else
      (t.failure cause).map fun failure =>
        if t.retries < t.terms.maxRetries then
          some (.retry t.terms.retryDelay,
            l.modify id (fun t =>
              { t with
                status := .retrying
                completed := some now
                error := some (t.failure cause).unchecked.message
                retries := t.retries + 1
                timer := none }),
            t.disarm)
        else some (.exhausted, l.erase id, t.resolve (.error failure))

def resetForRetry (l : Ledger) (id : TaskId) : Option (Ticket × Ledger) :=
  match l.find? id with
  | none => none
  | some t =>
    if t.status = .retrying then
      some (t.ticket,
        l.modify id fun t =>
          { t with
            status := .queued
            started := none
            completed := none
            worker := none
            result := none
            error := none
            timer := none })
    else none

/-- the worker of the attempt that ran out of time; the timer that rang is spent -/
def timeOut (l : Ledger) (id : TaskId) (attempt : UInt32) :
    Option (Option WorkerId × Ledger × List Consequence) :=
  match l.find? id with
  | none => none
  | some t =>
    if t.status = .running ∧ t.attempt = attempt then
      some (t.worker, l.erase id, [.deliver t.id (.error (.timeout t.terms.timeout))])
    else none

def cancel (l : Ledger) (id : TaskId) : CancelOutcome × Ledger × List Consequence :=
  match l.find? id with
  | none => (.notFound, l, [])
  | some t =>
    if t.status.isTerminal then (.alreadyTerminal, l, [])
    else (.cancelled, l.erase id, t.resolve (.error .cancelled))

/-- every task ends with the same failure -/
def drain (l : Ledger) (why : Failure) : Ledger × List Consequence :=
  (empty, l.tasks.flatMap fun t => t.resolve (.error why))

theorem find?_empty (id : TaskId) : empty.find? id = none := rfl

end Ledger

end TaskPool
