/-!
# Task identifiers

A `Uuid` is a number below 2¹²⁸.

* `Uuid.text`     32 lower-case hexadecimal digits in groups of 8, 4, 4, 4 and 12
* `Uuid.ofText`   reads four written forms: the digits alone, the groups with hyphens between them,
                  the groups in braces, and the groups after `urn:uuid:`
* `UuidError`     why a text is no identifier, with its text `UuidError.message`

The groups stand at fixed places, so a text of the right length with a hyphen or a digit out of
place is refused as well.
-/

namespace TaskPool

structure Uuid where
  value : Nat
  deriving DecidableEq, Inhabited

inductive UuidError where
  | character (found : Char) (index : Nat)
  | digitCount (count : Nat)
  | groupCount (count : Nat)
  | groupLength (group expected count : Nat)

def UuidError.message : UuidError → String
  | character found index =>
    "invalid character: found `" ++ String.singleton found ++ "` at " ++ toString index
  | digitCount count =>
    "invalid length: expected length 32 for simple format, found " ++ toString count
  | groupCount count => "invalid group count: expected 5, found " ++ toString count
  | groupLength group expected count =>
    "invalid group length in group " ++ toString group ++ ": expected " ++ toString expected ++
      ", found " ++ toString count

namespace Uuid

def groupSizes : List Nat := [8, 4, 4, 4, 12]

/-! ## writing -/

def hexDigit (n : Nat) : Char := Nat.digitChar (n % 16)

/-- the lowest `count` hexadecimal digits of `n`, the highest first -/
def hexDigits : Nat → Nat → List Char
  | 0, _ => []
  | count + 1, n => hexDigits count (n / 16) ++ [hexDigit n]

/-- `xs` cut into groups of the given sizes -/
def groups : List Nat → List Char → List (List Char)
  | [], _ => []
  | n :: ns, xs => xs.take n :: groups ns (xs.drop n)

def chars (u : Uuid) : List Char :=
  List.intercalate ['-'] (groups groupSizes (hexDigits 32 u.value))

def text (u : Uuid) : String := String.ofList u.chars

/-! ## reading -/

def hexValue? (c : Char) : Option Nat :=
  if '0' ≤ c ∧ c ≤ '9' then some (c.toNat - '0'.toNat)
  else if 'a' ≤ c ∧ c ≤ 'f' then some (c.toNat - 'a'.toNat + 10)
  else if 'A' ≤ c ∧ c ≤ 'F' then some (c.toNat - 'A'.toNat + 10)
  else none

/-- the number of the digits `cs` appended to those of `n` -/
def appendHex? : Nat → List Char → Option Nat
  | n, [] => some n
  | n, c :: cs => (hexValue? c).bind fun d => appendHex? (n * 16 + d) cs

/-- groups of digits of the given sizes, with a hyphen between two of them -/
def ofGroups? : List Nat → Nat → List Char → Option Nat
  | [], _, _ => none
  | [size], n, cs => if cs.length = size then appendHex? n cs else none
  | size :: more, n, cs =>
    match cs.drop size with
    | '-' :: rest => (appendHex? n (cs.take size)).bind fun n => ofGroups? more n rest
    | _ => none

def urn : List Char := "urn:uuid:".toList

/-- the digits of a written form, and the length of what stands in front of them; only a text
without a frame may be digits alone -/
def unframe (cs : List Char) : List Char × Nat × Bool :=
  match cs with
  | '\x7b' :: rest =>
    if rest.getLast? = some '\x7d' then (rest.dropLast, 1, false) else (cs, 0, true)
  | _ => if urn.isPrefixOf cs then (cs.drop urn.length, urn.length, false) else (cs, 0, true)

def ofChars? (cs : List Char) : Option Nat :=
  if cs.length = 32 then appendHex? 0 cs else ofGroups? groupSizes 0 (unframe cs).1

/-- the first character that is neither a digit nor a hyphen, with its place in bytes -/
def stray? : Nat → List Char → Option (Char × Nat)
  | _, [] => none
  | i, c :: cs =>
    if c = '-' ∨ (hexValue? c).isSome then stray? (i + c.utf8Size) cs else some (c, i)

/-- the lengths of the pieces between the hyphens -/
def pieceLengths : Nat → List Char → List Nat
  | n, [] => [n]
  | n, c :: cs => if c = '-' then n :: pieceLengths 0 cs else pieceLengths (n + 1) cs

/-- the first group of a wrong length; what comes before it is in order -/
def wrongGroup (total : Nat) : Nat → List Nat → List Nat → UuidError
  | i, size :: size' :: sizes, n :: ns =>
    if n = size then wrongGroup total (i + 1) (size' :: sizes) ns
    else .groupLength i size n
  | i, sizes, _ => .groupLength i (sizes.headD 0) (total - 24)

/-- what is wrong with a text that is no identifier -/
def diagnose (cs : List Char) : UuidError :=
  let (digits, offset, isBare) := unframe cs
  match stray? offset digits with
  | some (c, i) => .character c i
  | none =>
    let lengths := pieceLengths 0 digits
    if isBare ∧ lengths.length = 1 then .digitCount cs.length
    else if lengths.length = 5 then wrongGroup cs.length 0 groupSizes lengths
    else .groupCount lengths.length

def ofText (s : String) : Except UuidError Uuid :=
  match ofChars? s.toList with
  | some n => .ok ⟨n⟩
  | none => .error (diagnose s.toList)

def ofText? (s : String) : Option Uuid := (ofText s).toOption

end Uuid

end TaskPool
