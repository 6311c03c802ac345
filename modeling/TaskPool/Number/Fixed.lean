import TaskPool.Number.Layout

/-!
# Decimal text with a fixed number of places

`Fixed.text` rounds the exact value of a double to so many places; a number halfway between two
goes to the one whose last digit is even.  The sign stays, also in front of zeros.
-/

namespace TaskPool

/-- the nearest whole number; a half goes to the even neighbour -/
def Quotient.round (q : Quotient) : Nat :=
  let twiceRest := 2 * (q.num % q.den)
  if twiceRest < q.den ∨ twiceRest = q.den ∧ q.floor % 2 = 0 then q.floor else q.floor + 1

namespace Fixed

/-- `n / 10 ^ places` -/
def digits (places n : Nat) : List Char :=
  let ds := Nat.toDigits 10 n
  let padded := Layout.zeros (places + 1 - ds.length) ++ ds
  let whole := padded.length - places
  padded.take whole ++ (if places = 0 then [] else '.' :: padded.drop whole)

def text (places : Nat) (x : Float) : String :=
  if x.isNaN then Layout.plain.notANumber
  else
    let magnitude :=
      if x.isInf then Layout.plain.infinity.toList
      else digits places ((Dyadic.ofFloat x).value.shift (-(places : Int))).round
    String.ofList (if Layout.isNegative x then '-' :: magnitude else magnitude)

end Fixed

end TaskPool
