/-!
# Task statuses

A task waits (`queued`), runs (`running`), waits for its next attempt (`retrying`), or is over.
The four statuses of a task that is over are the `isTerminal` ones.  `CancelOutcome` is what a
request to cancel a task is answered.
-/

namespace TaskPool

inductive Status where
  | queued
  | running
  | completed
  | failed
  | retrying
  | timeout
  | cancelled
  deriving DecidableEq, Inhabited

namespace Status

def all : List Status := [queued, running, completed, failed, retrying, timeout, cancelled]

def name : Status → String
  | queued => "queued"
  | running => "running"
  | completed => "completed"
  | failed => "failed"
  | retrying => "retrying"
  | timeout => "timeout"
  | cancelled => "cancelled"

def rank : Status → Nat
  | queued => 0
  | running => 1
  | completed => 2
  | failed => 3
  | retrying => 4
  | timeout => 5
  | cancelled => 6

def isTerminal : Status → Bool
  | completed | failed | timeout | cancelled => true
  | queued | running | retrying => false

def ofName? (s : String) : Option Status := all.find? fun t => t.name == s

theorem mem_all (t : Status) : t ∈ all := by cases t <;> decide

theorem ofName?_name (t : Status) : ofName? t.name = some t := by cases t <;> decide

end Status

/-! ## cancelling -/

inductive CancelOutcome where
  | cancelled
  | notFound
  | alreadyTerminal
  deriving DecidableEq, Inhabited

namespace CancelOutcome

def all : List CancelOutcome := [cancelled, notFound, alreadyTerminal]

def name : CancelOutcome → String
  | cancelled => "cancelled"
  | notFound => "not_found"
  | alreadyTerminal => "already_terminal"

def ofName? (s : String) : Option CancelOutcome := all.find? fun o => o.name == s

theorem ofName?_name (o : CancelOutcome) : ofName? o.name = some o := by cases o <;> decide

end CancelOutcome

end TaskPool
