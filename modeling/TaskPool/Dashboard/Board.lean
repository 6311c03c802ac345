import TaskPool.Wire.Task
import TaskPool.Wire.Worker

/-!
# The state of the dashboard

A `Board` shows one `Tab` at a time.  What it shows is the `Snapshot` of the pool it got last, and
the error if the last attempt to get one failed.

* `Snapshot.ofParts`   a snapshot out of the three answers it is made from
* `Board.apply`        a new snapshot, or the reason why there is none
* `Board.queued`       the tasks that wait, by priority and age
-/

namespace TaskPool

inductive Tab where
  | overview
  | queue
  | stats
  deriving DecidableEq

namespace Tab

def all : List Tab := [overview, queue, stats]

def title : Tab → String
  | overview => "Overview"
  | queue => "Queue"
  | stats => "Stats"

def next : Tab → Tab
  | overview => queue
  | queue => stats
  | stats => overview

def previous : Tab → Tab
  | overview => stats
  | queue => overview
  | stats => queue

theorem previous_next (t : Tab) : t.next.previous = t := by cases t <;> rfl

theorem next_previous (t : Tab) : t.previous.next = t := by cases t <;> rfl

end Tab

structure Snapshot where
  workers : List WorkerSnapshot
  tasks : List TaskSnapshot
  stats : Stats

namespace Snapshot

/-- a pool of which nothing is known -/
def empty : Snapshot := ⟨[], [], ⟨false, 0, 0, 0, 0, 0, [], []⟩⟩

/-- a part of the wanted shape, or what is wrong with it -/
def part {α : Type} (name : String) (shape : Shape) (ofJson? : Json → Option α) (j : Json) :
    Except String α :=
  match shape.check j with
  | .error why => .error (name ++ ": " ++ why.message)
  | .ok j =>
    match ofJson? j with
    | some a => .ok a
    | none => .error name

/-- the first part that is wrong decides -/
def ofParts (workers tasks stats : Json) : Except String Snapshot := do
  let ws ← part "workers" (.list WorkerSnapshot.shape) (Wire.list? WorkerSnapshot.ofJson?) workers
  let ts ← part "tasks" (.list TaskSnapshot.shape) (Wire.list? TaskSnapshot.ofJson?) tasks
  let s ← part "stats" Stats.shape Stats.ofJson? stats
  pure ⟨ws, ts, s⟩

end Snapshot

structure Board where
  tab : Tab
  snapshot : Snapshot
  error : Option String

namespace Board

def new : Board := ⟨.overview, .empty, none⟩

/-- a failure leaves the last snapshot on display -/
def apply (b : Board) : Except String Snapshot → Board
  | .ok s => ⟨b.tab, s, none⟩
  | .error why => ⟨b.tab, b.snapshot, some why⟩

def showNext (b : Board) : Board := { b with tab := b.tab.next }

def showPrevious (b : Board) : Board := { b with tab := b.tab.previous }

/-- a higher priority stands first, then the greater age -/
def goesFirst (a b : TaskSnapshot) : Bool :=
  decide (b.priority.rank < a.priority.rank) ||
    (a.priority.rank == b.priority.rank && a.created.le b.created)

def queued (b : Board) : List TaskSnapshot :=
  (b.snapshot.tasks.filter fun t => t.status == .queued).mergeSort goesFirst

def running (b : Board) : List TaskSnapshot :=
  b.snapshot.tasks.filter fun t => t.status == .running

end Board

end TaskPool
