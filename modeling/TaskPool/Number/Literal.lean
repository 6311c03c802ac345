import TaskPool.Text.Digits

/-!
# Literals

What a text says as a number or as a truth value, with nothing around it.

* `Literal.natural`   digits, with a plus sign in front of them if one likes, below a limit
* `Literal.double`    digits with a point and an exponent, or the name of infinity or of NaN in
                      letters of any size; the nearest double
* `Literal.flag`      `true` or `false`
* `LiteralError`      why a text is no such literal
-/

namespace TaskPool

inductive LiteralError where
  | emptyInteger
  | invalidDigit
  | tooLarge
  | emptyFloat
  | invalidFloat
  | invalidFlag
  deriving DecidableEq

def LiteralError.message : LiteralError → String
  | emptyInteger => "cannot parse integer from empty string"
  | invalidDigit => "invalid digit found in string"
  | tooLarge => "number too large to fit in target type"
  | emptyFloat => "cannot parse float from empty string"
  | invalidFloat => "invalid float literal"
  | invalidFlag => "provided string was not `true` or `false`"

namespace Literal

/-- the digits `cs` appended to the number `n`; the first character at fault decides -/
def appendDigits (limit : Nat) : Nat → List Char → Except LiteralError Nat
  | n, [] => .ok n
  | n, c :: cs =>
    if !isDigit c then .error .invalidDigit
    else if limit ≤ n * 10 + digitValue c then .error .tooLarge
    else appendDigits limit (n * 10 + digitValue c) cs

/-- a number below `limit` -/
def natural (limit : Nat) : List Char → Except LiteralError Nat
  | [] => .error .emptyInteger
  | ['+'] => .error .invalidDigit
  | '+' :: c :: cs => appendDigits limit 0 (c :: cs)
  | cs => appendDigits limit 0 cs

def flag (cs : List Char) : Except LiteralError Bool :=
  if cs = "true".toList then .ok true
  else if cs = "false".toList then .ok false
  else .error .invalidFlag

/-! ## doubles -/

def infinity : Float := 1.0 / 0.0

/-- the double nearest to `n * 10 ^ exponent`; far outside of the range of doubles there is no need
to work it out -/
def nearest (n : Nat) (exponent : Int) : Float :=
  let magnitude := exponent + (Nat.toDigits 10 n).length
  if n = 0 ∨ magnitude < -330 then 0.0
  else if 320 < magnitude then infinity
  else Float.ofScientific n (decide (exponent < 0)) exponent.natAbs

/-- an exponent with its sign, or nothing -/
def exponent? : List Char → Option Int
  | [] => some 0
  | c :: cs =>
    if c = 'e' ∨ c = 'E' then
      let (isDown, ds) :=
        match cs with
        | '-' :: ds => (true, ds)
        | '+' :: ds => (false, ds)
        | ds => (false, ds)
      if ds.isEmpty || !ds.all isDigit then none
      else some (if isDown then -(ofDigits ds : Int) else ofDigits ds)
    else none

def decimal? (cs : List Char) : Option Float :=
  let ds := cs.takeWhile isDigit
  let (fraction, rest) :=
    match cs.dropWhile isDigit with
    | '.' :: rest => (rest.takeWhile isDigit, rest.dropWhile isDigit)
    | rest => ([], rest)
  if ds.isEmpty && fraction.isEmpty then none
  else (exponent? rest).map fun e => nearest (ofDigits (ds ++ fraction)) (e - fraction.length)

def unsigned? (cs : List Char) : Option Float :=
  let name := String.ofList (cs.map Char.toLower)
  if name = "inf" ∨ name = "infinity" then some infinity
  else if name = "nan" then some (0.0 / 0.0)
  else decimal? cs

def double (cs : List Char) : Except LiteralError Float :=
  let value :=
    match cs with
    | '-' :: rest => (unsigned? rest).map fun x => -x
    | '+' :: rest => unsigned? rest
    | rest => unsigned? rest
  match value with
  | some x => .ok x
  | none => .error (if cs.isEmpty then .emptyFloat else .invalidFloat)

end Literal

end TaskPool
