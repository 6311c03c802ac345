/-!
# Priorities

`Priority` orders the tasks that wait: the greater `rank` leaves the queue first.  A submission
that names no priority gets `Priority.normal`.
-/

namespace TaskPool

inductive Priority where
  | low
  | normal
  | high
  | critical
  deriving DecidableEq, Inhabited

namespace Priority

def all : List Priority := [low, normal, high, critical]

def name : Priority → String
  | low => "low"
  | normal => "normal"
  | high => "high"
  | critical => "critical"

def rank : Priority → Nat
  | low => 0
  | normal => 1
  | high => 2
  | critical => 3

def ofName? (s : String) : Option Priority := all.find? fun p => p.name == s

theorem ofName?_name (p : Priority) : ofName? p.name = some p := by cases p <;> decide

theorem rank_injective {p q : Priority} (h : p.rank = q.rank) : p = q := by
  cases p <;> cases q <;> simp_all [rank]

end Priority

end TaskPool
