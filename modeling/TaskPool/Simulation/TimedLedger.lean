import TaskPool.Ledger
import TaskPool.Simulation.State

/-!
# A ledger with its timers

`TimedLedger` is a ledger whose consequences are carried out: outcomes are delivered, and timers
ring unless they were taken back.

* `TimedLedger.follow`   the ledger after an operation, with what follows from it
* `TimedLedger.arm`      a timer for the state a task is in
* `TimedLedger.settle`   the timers that are due ring, those that are due first before the others
-/

namespace TaskPool

structure LabelledTimer where
  id : TimerId
  deadline : Nat
  label : String

structure TimedLedger where
  ledger : Ledger
  clock : Nat
  micros : Nat
  timers : List LabelledTimer
  nextTimer : TimerId
  delivered : List (TaskId × Outcome)
  rung : List String

namespace TimedLedger

def empty : TimedLedger := ⟨.empty, 0, 0, [], 0, [], []⟩

def now (l : TimedLedger) : Timestamp := World.epoch.addMicros (l.clock * 1000 + l.micros)

def tick (l : TimedLedger) : TimedLedger := { l with micros := l.micros + 1 }

def carryOut (l : TimedLedger) : Consequence → TimedLedger
  | .deliver task outcome => { l with delivered := l.delivered ++ [(task, outcome)] }
  | .disarm timer => { l with timers := l.timers.filter fun t => t.id != timer }

def follow (l : TimedLedger) (ledger : Ledger) (consequences : List Consequence) : TimedLedger :=
  consequences.foldl carryOut { l with ledger := ledger }

def arm (l : TimedLedger) (task : TaskId) (ms : Nat) (label : String) : TimedLedger :=
  let timer : LabelledTimer := ⟨l.nextTimer, l.clock + ms, label⟩
  let (ledger, consequences) := l.ledger.setTimer task timer.id
  { l with
    timers := l.timers ++ [timer]
    nextTimer := l.nextTimer + 1 }.follow ledger consequences

def settle (l : TimedLedger) : TimedLedger :=
  let due := (l.timers.filter fun t => t.deadline ≤ l.clock).mergeSort fun a b =>
    decide (a.deadline ≤ b.deadline)
  { l with
    timers := l.timers.filter fun t => l.clock < t.deadline
    rung := l.rung ++ due.map LabelledTimer.label }

def advance (l : TimedLedger) (ms : Nat) : TimedLedger :=
  ({ l.settle with clock := l.clock + ms } : TimedLedger).settle

end TimedLedger

end TaskPool
