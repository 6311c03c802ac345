/-!
# Sets of code points

A set is the increasing list of its intervals, and `inIntervals` looks a code point up by halving.
-/

namespace TaskPool

/-- one of the intervals from number `low` up to number `high` holds `n`; each step halves the
intervals left, and their number is below `2 ^ fuel` -/
def inIntervalsFrom (table : Array (Nat × Nat)) (n : Nat) : Nat → Nat → Nat → Bool
  | 0, _, _ => false
  | fuel + 1, low, high =>
    if high ≤ low then false
    else
      let middle := (low + high) / 2
      match table[middle]? with
      | none => false
      | some (first, last) =>
        if n < first then inIntervalsFrom table n fuel low middle
        else if last < n then inIntervalsFrom table n fuel (middle + 1) high
        else true

def inIntervals (table : Array (Nat × Nat)) (n : Nat) : Bool :=
  inIntervalsFrom table n 16 0 table.size

end TaskPool
