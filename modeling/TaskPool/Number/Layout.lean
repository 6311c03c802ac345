import TaskPool.Number.Shortest

/-!
# Decimal text of doubles

The digits of a number are those of its shortest decimal (`Dyadic.shortest`).  A `Layout` says how
they are set:

* where the point is put among the digits, and from which size on an exponent is written instead
* whether a whole number keeps a `.0`
* how the values that are no numbers are written

`Layout.json` is the text of a number in JSON, `Layout.plain` the text in a message.
-/

namespace TaskPool

structure Layout where
  /-- a number in `10 ^ low ≤ x < 10 ^ high` is written without an exponent -/
  low : Int
  high : Int
  keepsPoint : Bool
  infinity : String
  notANumber : String

namespace Layout

def json : Layout where
  low := -5
  high := 16
  keepsPoint := true
  infinity := "null"
  notANumber := "null"

def plain : Layout where
  low := -400
  high := 400
  keepsPoint := false
  infinity := "inf"
  notANumber := "NaN"

def zeros (n : Nat) : List Char := List.replicate n '0'

/-- the digits of a number without the zeros at its end -/
def significant (n : Nat) : List Char :=
  (((Nat.toDigits 10 n).reverse.dropWhile (· == '0'))).reverse

/-- digits `ds` with the point after the first `point` of them -/
def positional (l : Layout) (ds : List Char) (point : Int) : List Char :=
  if point ≤ 0 then '0' :: '.' :: (zeros point.natAbs ++ ds)
  else if ds.length ≤ point.natAbs then
    ds ++ zeros (point.natAbs - ds.length) ++ (if l.keepsPoint then ['.', '0'] else [])
  else ds.take point.natAbs ++ '.' :: ds.drop point.natAbs

/-- one digit before the point, then the exponent with its sign -/
def scientific (ds : List Char) (exponent : Int) : List Char :=
  let fraction := if ds.length ≤ 1 then [] else '.' :: ds.drop 1
  let sign := if exponent < 0 then '-' else '+'
  ds.take 1 ++ fraction ++ 'e' :: sign :: Nat.toDigits 10 exponent.natAbs

def setDecimal (l : Layout) (d : Decimal) : List Char :=
  let point := d.exponent + (Nat.toDigits 10 d.digits).length
  let ds := significant d.digits
  let exponent := point - 1
  if l.low ≤ exponent ∧ exponent < l.high then l.positional ds point
  else scientific ds exponent

def isNegative (x : Float) : Bool := x.toBits.toNat.testBit 63

/-- what a zero is written as -/
def zero (l : Layout) : List Char := if l.keepsPoint then ['0', '.', '0'] else ['0']

def text (l : Layout) (x : Float) : String :=
  if x.isNaN then l.notANumber
  else
    let magnitude :=
      if x.isInf then l.infinity.toList
      else if x == 0.0 then l.zero
      else l.setDecimal (Dyadic.ofFloat x).shortest
    String.ofList (if isNegative x then '-' :: magnitude else magnitude)

end Layout

end TaskPool
