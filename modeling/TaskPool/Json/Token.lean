import TaskPool.Json.Fault
import TaskPool.Text.Digits

/-!
# Tokens of JSON

Readers of the smallest parts of a text.  A reader takes the text that is left and answers a value
with the text left behind it, or a fault.

* `skipBlank`    blanks
* `word`         the rest of `null`, `true` or `false` after its first letter
* `stringBody`   a string after its opening quote, with its escapes resolved
* `readNumber`   a number after its sign

A number with a fraction or an exponent, or too great for 64 bits, is read as a double: the digits
that fit in 64 bits times or divided by a power of ten.  That is near to the number that is
written, and is not always the nearest double.
-/

namespace TaskPool

namespace Json

/-- from the text that is left to a value and the text left behind it -/
abbrev Reader (α : Type) := List Char → Except Fault (α × List Char)

def isBlank (c : Char) : Bool := c == ' ' || c == '\n' || c == '\t' || c == '\r'

def skipBlank (cs : List Char) : List Char := cs.dropWhile isBlank

/-! ## words -/

def word : List Char → List Char → Except Fault (List Char)
  | [], cs => .ok cs
  | _ :: _, [] => failAt .endInValue []
  | w :: ws, c :: cs => if c = w then word ws cs else failIn .expectedWord (c :: cs)

/-! ## strings -/

def hexValue? (c : Char) : Option Nat :=
  if isDigit c then some (digitValue c)
  else if 'a' ≤ c ∧ c ≤ 'f' then some (c.toNat - 'a'.toNat + 10)
  else if 'A' ≤ c ∧ c ≤ 'F' then some (c.toNat - 'A'.toNat + 10)
  else none

/-- the number of up to four hexadecimal digits -/
def hexFour? : List Char → Option Nat
  | [a, b, c, d] => do
    let a ← hexValue? a
    let b ← hexValue? b
    let c ← hexValue? c
    let d ← hexValue? d
    pure (((a * 16 + b) * 16 + c) * 16 + d)
  | _ => none

/-- four hexadecimal digits -/
def hexEscape : Reader Nat := fun cs =>
  if byteCount cs < 4 then failAt .endInString []
  else
    match hexFour? (cs.take 4) with
    | some n => .ok (n, cs.drop 4)
    | none => .error ⟨.invalidEscape, byteCount cs - 4⟩

def isLeadingSurrogate (n : Nat) : Bool := decide (0xd800 ≤ n) && decide (n ≤ 0xdbff)

def isTrailingSurrogate (n : Nat) : Bool := decide (0xdc00 ≤ n) && decide (n ≤ 0xdfff)

/-- the character of a pair of surrogates -/
def ofSurrogates (high low : Nat) : Char :=
  Char.ofNat ((high - 0xd800) * 0x400 + (low - 0xdc00) + 0x10000)

/-- the second half of a pair of surrogates -/
def trailingEscape (high : Nat) : Reader Char
  | [] => failAt .endInString []
  | '\\' :: [] => failAt .endInString []
  | '\\' :: 'u' :: cs => do
    let (low, rest) ← hexEscape cs
    if isTrailingSurrogate low then pure (ofSurrogates high low, rest)
    else failAt .loneSurrogate rest
  | '\\' :: c :: cs => failIn .unfinishedSurrogate (c :: cs)
  | c :: cs => failIn .unfinishedSurrogate (c :: cs)

def unicodeEscape : Reader Char := fun cs => do
  let (n, rest) ← hexEscape cs
  if isTrailingSurrogate n then failAt .loneSurrogate rest
  else if isLeadingSurrogate n then trailingEscape n rest
  else pure (Char.ofNat n, rest)

def shortEscape? (c : Char) : Option Char :=
  if c = '"' ∨ c = '\\' ∨ c = '/' then some c
  else if c = 'b' then some '\x08'
  else if c = 'f' then some '\x0c'
  else if c = 'n' then some '\n'
  else if c = 'r' then some '\r'
  else if c = 't' then some '\t'
  else none

/-- an escape after its backslash -/
def escaped : Reader Char
  | [] => failAt .endInString []
  | c :: cs =>
    match shortEscape? c with
    | some e => .ok (e, cs)
    | none => if c = 'u' then unicodeEscape cs else failIn .invalidEscape (c :: cs)

/-- each step takes at least one character of the text -/
def stringFrom : Nat → Reader (List Char)
  | 0, cs => failAt .endInString cs
  | _ + 1, [] => failAt .endInString []
  | fuel + 1, c :: cs =>
    if c = '"' then .ok ([], cs)
    else if c = '\\' then do
      let (e, rest) ← escaped cs
      let (more, rest) ← stringFrom fuel rest
      pure (e :: more, rest)
    else if c.toNat < 0x20 then failIn .controlCharacter (c :: cs)
    else do
      let (more, rest) ← stringFrom fuel cs
      pure (c :: more, rest)

def stringBody : Reader String := fun cs => do
  let (s, rest) ← stringFrom (cs.length + 1) cs
  pure (String.ofList s, rest)

/-! ## numbers -/

/-- digits appended to `n` as long as the number stays below `limit`; how many were taken -/
def absorb (limit : Nat) : Nat → Nat → List Char → Nat × Nat × List Char
  | n, taken, [] => (n, taken, [])
  | n, taken, c :: cs =>
    if isDigit c && decide (n * 10 + digitValue c < limit) then
      absorb limit (n * 10 + digitValue c) (taken + 1) cs
    else (n, taken, c :: cs)

def skipDigits (cs : List Char) : List Char := cs.dropWhile isDigit

def powerOfTen (n : Nat) : Float := Float.ofScientific 1 false n

/-- `x` times `10 ^ exponent`; nothing is left of a double after three divisions by `10 ^ 308` -/
def scale? (x : Float) (exponent : Int) : Nat → Option Float
  | 0 => some 0.0
  | fuel + 1 =>
    if exponent.natAbs ≤ 308 then
      if 0 ≤ exponent then
        let y := x * powerOfTen exponent.natAbs
        if y.isInf then none else some y
      else some (x / powerOfTen exponent.natAbs)
    else if x == 0.0 then some x
    else if 0 ≤ exponent then none
    else scale? (x / powerOfTen 308) (exponent + 308) fuel

/-- the double of a significand and an exponent -/
def double (negative : Bool) (significand : Nat) (exponent : Int) : Reader JsonNumber := fun rest =>
  match scale? (Float.ofNat significand) exponent 4 with
  | some x => .ok (.float (if negative then -x else x), rest)
  | none => failAt .numberOutOfRange rest

def exponentDigits (negative : Bool) (significand : Nat) (start : Int) (isDown : Bool) :
    Reader JsonNumber
  | [] => failAt .endInValue []
  | c :: cs =>
    if isDigit c then
      let (n, _, rest) := absorb (UInt32.size / 2) 0 0 (c :: cs)
      match rest with
      | d :: after =>
        if isDigit d then
          if significand != 0 && !isDown then failAt .numberOutOfRange after
          else .ok (.float (if negative then -0.0 else 0.0), skipDigits after)
        else double negative significand (if isDown then start - n else start + n) rest
      | [] => double negative significand (if isDown then start - n else start + n) rest
    else failIn .invalidNumber (c :: cs)

def exponentPart (negative : Bool) (significand : Nat) (start : Int) : Reader JsonNumber
  | '+' :: cs => exponentDigits negative significand start false cs
  | '-' :: cs => exponentDigits negative significand start true cs
  | cs => exponentDigits negative significand start false cs

/-- what follows the digits of a number that is read as a double -/
def doubleTail (negative : Bool) (significand : Nat) (exponent : Int) : Reader JsonNumber
  | 'e' :: cs => exponentPart negative significand exponent cs
  | 'E' :: cs => exponentPart negative significand exponent cs
  | cs => double negative significand exponent cs

def fractionPart (negative : Bool) (significand : Nat) (start : Int) : Reader JsonNumber := fun cs =>
  let (n, taken, rest) := absorb UInt64.size significand 0 cs
  let after := skipDigits rest
  if taken = 0 ∧ after.length = rest.length then
    match rest with
    | [] => failAt .endInValue []
    | _ => failIn .invalidNumber rest
  else doubleTail negative n (start - taken) after

/-- a whole number: zero with a sign and what no 64 bits hold are doubles -/
def whole (negative : Bool) (n : Nat) : JsonNumber :=
  if negative then
    if n = 0 ∨ UInt64.size / 2 < n then .float (-(Float.ofNat n)) else .int (-n)
  else .int n

def numberTail (negative : Bool) (n : Nat) : Reader JsonNumber
  | '.' :: cs => fractionPart negative n 0 cs
  | 'e' :: cs => exponentPart negative n 0 cs
  | 'E' :: cs => exponentPart negative n 0 cs
  | cs => .ok (whole negative n, cs)

/-- a number with more digits than 64 bits hold -/
def longTail (negative : Bool) (n : Nat) : Reader JsonNumber := fun cs =>
  let after := skipDigits cs
  let dropped : Nat := cs.length - after.length
  match after with
  | '.' :: rest => fractionPart negative n dropped rest
  | _ => doubleTail negative n dropped after

/-- a number after its sign -/
def readNumber (negative : Bool) : Reader JsonNumber
  | [] => failAt .endInValue []
  | '0' :: cs =>
    match cs with
    | c :: _ => if isDigit c then failIn .invalidNumber cs else numberTail negative 0 cs
    | [] => numberTail negative 0 cs
  | c :: cs =>
    if isDigit c then
      let (n, _, rest) := absorb UInt64.size 0 0 (c :: cs)
      match rest with
      | d :: _ => if isDigit d then longTail negative n rest else numberTail negative n rest
      | [] => numberTail negative n rest
    else failIn .invalidNumber (c :: cs)

end Json

end TaskPool
