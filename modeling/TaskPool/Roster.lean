import TaskPool.Worker.Message
import TaskPool.Worker.Status

/-!
# The roster of workers

The pool keeps an `Entry` for every worker from its start until it is gone.

* `Entry.setBusy`, `Entry.setIdle`   the only ways to get and to lose a current task while live
* `Roster.allocate`   the next worker number; a number is never given twice
* `Roster.insert`     keeps the entries in the order of their numbers, one for each

What an entry knows about stopping: the requests that wait for the worker to be gone, the timer
that ends the wait, and whether another worker takes its place.
-/

namespace TaskPool

structure Entry where
  worker : WorkerId
  /-- which running worker stands behind the entry -/
  seat : Nat
  status : WorkerStatus
  task : Option TaskId
  created : Timestamp
  lastActivity : Timestamp
  processed : Nat
  failed : Nat
  affinity : Option KindSet
  cpu : Option Float
  memory : Option Nat
  waiters : List Nat
  stopTimer : Option TimerId
  replaceOnExit : Bool

structure WorkerSnapshot where
  id : WorkerId
  status : WorkerStatus
  task : Option TaskId
  created : Timestamp
  lastActivity : Timestamp
  processed : Nat
  failed : Nat
  affinity : Option (List Kind)
  cpu : Option Float
  memory : Option Nat

namespace Entry

def new (worker : WorkerId) (seat : Nat) (now : Timestamp) : Entry where
  worker := worker
  seat := seat
  status := .starting
  task := none
  created := now
  lastActivity := now
  processed := 0
  failed := 0
  affinity := none
  cpu := none
  memory := none
  waiters := []
  stopTimer := none
  replaceOnExit := false

def touch (e : Entry) (now : Timestamp) : Entry := { e with lastActivity := now }

def setBusy (e : Entry) (task : TaskId) (now : Timestamp) : Entry :=
  { e with
    status := .busy
    task := some task
    lastActivity := now }

def setIdle (e : Entry) (now : Timestamp) : Entry :=
  { e with
    status := .idle
    task := none
    lastActivity := now }

def recordMetrics (e : Entry) (m : Metrics) : Entry :=
  { e with
    cpu := some m.cpu
    memory := some m.memory }

def isLive (e : Entry) : Bool := e.status.isLive

def snapshot (e : Entry) : WorkerSnapshot where
  id := e.worker
  status := e.status
  task := e.task
  created := e.created
  lastActivity := e.lastActivity
  processed := e.processed
  failed := e.failed
  affinity := e.affinity.map KindSet.toList
  cpu := e.cpu
  memory := e.memory

end Entry

structure Roster where
  nextId : WorkerId
  /-- in increasing order of their workers -/
  entries : List Entry

namespace Roster

def empty : Roster := ⟨1, []⟩

def allocate (r : Roster) : WorkerId × Roster := (r.nextId, { r with nextId := r.nextId + 1 })

/-- `e` at its place, over an entry of the same worker -/
def place (e : Entry) : List Entry → List Entry
  | [] => [e]
  | x :: xs =>
    if e.worker < x.worker then e :: x :: xs
    else if e.worker = x.worker then e :: xs
    else x :: place e xs

def insert (r : Roster) (e : Entry) : Roster := { r with entries := place e r.entries }

def find? (r : Roster) (worker : WorkerId) : Option Entry :=
  r.entries.find? fun e => e.worker == worker

def modify (r : Roster) (worker : WorkerId) (f : Entry → Entry) : Roster :=
  { r with entries := r.entries.map fun e => if e.worker = worker then f e else e }

def erase (r : Roster) (worker : WorkerId) : Roster :=
  { r with entries := r.entries.filter fun e => e.worker != worker }

def ids (r : Roster) : List WorkerId := r.entries.map Entry.worker

def withStatus (r : Roster) (s : WorkerStatus) : List WorkerId :=
  (r.entries.filter fun e => e.status == s).map Entry.worker

def idleIds (r : Roster) : List WorkerId := r.withStatus .idle

def live (r : Roster) : List Entry := r.entries.filter Entry.isLive

def size (r : Roster) : Nat := r.entries.length

def isEmpty (r : Roster) : Bool := r.entries.isEmpty

def count (r : Roster) (s : WorkerStatus) : Nat := r.entries.countP fun e => e.status == s

def snapshots (r : Roster) : List WorkerSnapshot := r.entries.map Entry.snapshot

end Roster

end TaskPool
