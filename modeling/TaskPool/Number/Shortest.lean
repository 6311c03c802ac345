/-!
# The shortest decimal of a double

* `Dyadic`       a positive double as `significand * 2 ^ exponent`
* `Decimal`      `digits * 10 ^ exponent`
* `Dyadic.shortest`   the decimal of fewest digits that reads back as the double; of several, the
                      one nearest to it

A decimal reads back as a double when it lies between the midpoints to the two neighbours; a
midpoint itself reads back as the neighbour with the even significand.  Below a power of two the
neighbours lie twice as close, so there the lower midpoint is only half as far away.

Why it is enough to try, for each number of digits, the two points of the decimal grid around the
double: if any point of the grid lies between the midpoints, then so does one of these two.
-/

namespace TaskPool

structure Dyadic where
  significand : Nat
  exponent : Int
  /-- the lower neighbour is half as far away as the upper one -/
  isLowEdge : Bool

structure Decimal where
  digits : Nat
  exponent : Int
  deriving DecidableEq

/-- a positive number as a quotient -/
structure Quotient where
  num : Nat
  den : Nat

namespace Quotient

/-- `n * 2 ^ e` -/
def ofBinary (n : Nat) (e : Int) : Quotient :=
  if e < 0 then ⟨n, 1 <<< e.natAbs⟩ else ⟨n <<< e.natAbs, 1⟩

/-- `q / 10 ^ e` -/
def shift (q : Quotient) (e : Int) : Quotient :=
  if e < 0 then ⟨q.num * Nat.pow 10 e.natAbs, q.den⟩ else ⟨q.num, q.den * Nat.pow 10 e.natAbs⟩

def floor (q : Quotient) : Nat := q.num / q.den

/-- the least `k` such that the number is below `10 ^ k`, searched from `k` upwards -/
def magnitudeFrom (q : Quotient) : Nat → Int → Int
  | 0, k => k
  | fuel + 1, k => if (q.shift k).floor = 0 then k else magnitudeFrom q fuel (k + 1)

/-- the number of digits before the point, negative when zeros follow it; doubles lie between
`10 ^ (-324)` and `10 ^ 309` -/
def magnitude (q : Quotient) : Int := q.magnitudeFrom 640 (-324)

end Quotient

namespace Dyadic

/-- the magnitude of a double that is finite and not zero -/
def ofFloat (x : Float) : Dyadic :=
  let bits := x.toBits.toNat
  let low : Nat := bits % (1 <<< 52)
  let high : Nat := (bits >>> 52) % 2048
  if high = 0 then ⟨low, -1074, false⟩
  else ⟨low + (1 <<< 52), (high : Int) - 1075, low == 0 && decide (1 < high)⟩

def value (d : Dyadic) : Quotient := .ofBinary d.significand d.exponent

/-- four times the significand of the lower midpoint -/
def lowQuarters (d : Dyadic) : Nat := 4 * d.significand - (if d.isLowEdge then 1 else 2)

def highQuarters (d : Dyadic) : Nat := 4 * d.significand + 2

/-- `n` units of `unit` read back as the double -/
def admits (d : Dyadic) (unit : Int) (n : Nat) : Bool :=
  let low := (Quotient.ofBinary d.lowQuarters (d.exponent - 2)).shift unit
  let high := (Quotient.ofBinary d.highQuarters (d.exponent - 2)).shift unit
  if d.significand % 2 = 0 then
    decide (low.num ≤ n * low.den) && decide (n * high.den ≤ high.num)
  else decide (low.num < n * low.den) && decide (n * high.den < high.num)

/-- the nearest point of a decimal grid that reads back; of two equally near, the even one -/
def onGrid? (d : Dyadic) (unit : Int) : Option Nat :=
  let v := d.value.shift unit
  let below := v.floor
  let twiceRest := 2 * (v.num % v.den)
  let prefersBelow := decide (twiceRest < v.den) || (twiceRest == v.den && below % 2 == 0)
  let (first, second) := if prefersBelow then (below, below + 1) else (below + 1, below)
  if d.admits unit first then some first
  else if d.admits unit second then some second
  else none

/-- the first grid with a hit, from `digits` digits on -/
def search (d : Dyadic) (magnitude : Int) : Nat → Nat → Decimal
  | 0, _ => ⟨d.significand, 0⟩
  | fuel + 1, digits =>
    let unit := magnitude - digits
    match d.onGrid? unit with
    | some n => ⟨n, unit⟩
    | none => search d magnitude fuel (digits + 1)

/-- seventeen digits are always enough -/
def shortest (d : Dyadic) : Decimal := d.search d.value.magnitude 17 1

end Dyadic

end TaskPool
