/-!
# Counters that overflow

A counter of 32 bits that has reached the last word cannot go on.  A program that is built with
overflow checks ends there with a panic.  One that is built without them does not notice, and its
counter begins at zero again.  Nothing in the program says how it is built, so that what depends on
a counter is given for both.

* `Overflowing α`         a result, and whether a counter overflowed on the way to it
* `Overflowing.checked`   what comes of it with overflow checks
* `Overflowing.succ`      a counter that goes on by one
* `Overflowing.all`       many results, one after the other
-/

namespace TaskPool

/-- the end of a program -/
structure Panic where
  message : String
  deriving DecidableEq

def Panic.overflow : Panic := ⟨"attempt to add with overflow"⟩

structure Overflowing (α : Type) where
  /-- the result without overflow checks -/
  unchecked : α
  overflow : Bool

namespace Overflowing

variable {α β : Type}

def exact (a : α) : Overflowing α := ⟨a, false⟩

def map (f : α → β) (x : Overflowing α) : Overflowing β := ⟨f x.unchecked, x.overflow⟩

def all (xs : List (Overflowing α)) : Overflowing (List α) :=
  ⟨xs.map unchecked, xs.any overflow⟩

def succ (n : UInt32) : Overflowing UInt32 := ⟨n + 1, decide (UInt32.size ≤ n.toNat + 1)⟩

def checked (x : Overflowing α) : Except Panic α :=
  if x.overflow then .error .overflow else .ok x.unchecked

@[simp] theorem unchecked_exact (a : α) : (exact a).unchecked = a := rfl

@[simp] theorem unchecked_map (f : α → β) (x : Overflowing α) :
    (x.map f).unchecked = f x.unchecked := rfl

@[simp] theorem unchecked_succ (n : UInt32) : (succ n).unchecked = n + 1 := rfl

@[simp] theorem overflow_exact (a : α) : (exact a).overflow = false := rfl

@[simp] theorem overflow_map (f : α → β) (x : Overflowing α) :
    (x.map f).overflow = x.overflow := rfl

theorem checked_eq_ok {x : Overflowing α} {a : α} :
    x.checked = .ok a ↔ x.overflow = false ∧ x.unchecked = a := by
  unfold checked
  cases x.overflow <;> simp

theorem checked_eq_error {x : Overflowing α} {why : Panic} :
    x.checked = .error why ↔ x.overflow = true ∧ why = .overflow := by
  unfold checked
  cases x.overflow <;> simp [eq_comm]

theorem overflow_succ {n : UInt32} : (succ n).overflow = true ↔ n.toNat = UInt32.size - 1 := by
  have hlast := n.toNat_lt_size
  simp only [succ, decide_eq_true_eq]
  omega

theorem overflow_all {xs : List (Overflowing α)} :
    (all xs).overflow = true ↔ ∃ x ∈ xs, x.overflow = true := List.any_eq_true

end Overflowing

end TaskPool
