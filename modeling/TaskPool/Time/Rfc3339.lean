import TaskPool.Text.Blank
import TaskPool.Text.Digits
import TaskPool.Time.Calendar
import TaskPool.Time.Timestamp

/-!
# RFC 3339 text of points in time

* `Rfc3339.write`   `2024-01-01T00:00:00Z`, with 0, 3, 6 or 9 digits of a fraction of the second, as
                    few as say it exactly
* `Rfc3339.read`    reads that and what is near to it: blanks between the parts, a blank or a small
                    `t` before the time, numbers with fewer digits, years with a sign, any number
                    of digits after the point, an offset from UTC with or without a colon
* `Rfc3339.Error`   why a text is no point in time

The second 60 is read as a leap second of the minute, whatever the minute.  An offset is taken
off, so what is read is always in UTC.
-/

namespace TaskPool

namespace Rfc3339

/-! ## writing -/

/-- a number in at least `width` digits -/
def padded (width n : Nat) : List Char :=
  let ds := Nat.toDigits 10 n
  List.replicate (width - ds.length) '0' ++ ds

/-- four digits; a year outside of them has a sign and five places -/
def writeYear (y : Int) : List Char :=
  if 0 ≤ y ∧ y ≤ 9999 then padded 4 y.toNat
  else if 0 ≤ y then '+' :: padded 4 y.toNat
  else '-' :: padded 4 y.natAbs

def writeFraction (nanos : Nat) : List Char :=
  if nanos = 0 then []
  else if nanos % 1000000 = 0 then '.' :: padded 3 (nanos / 1000000)
  else if nanos % 1000 = 0 then '.' :: padded 6 (nanos / 1000)
  else '.' :: padded 9 nanos

def secondsPerDay : Nat := 86400

def nanosPerSecond : Nat := 1000000000

def writeChars (t : Timestamp) : List Char :=
  let date := Date.ofNumber (t.seconds / secondsPerDay)
  let time := (t.seconds % secondsPerDay).toNat
  let isLeap := decide (nanosPerSecond ≤ t.nanos)
  writeYear date.year ++ '-' :: padded 2 date.month ++ '-' :: padded 2 date.day ++
    'T' :: padded 2 (time / 3600) ++ ':' :: padded 2 (time / 60 % 60) ++
    ':' :: padded 2 (time % 60 + (if isLeap then 1 else 0)) ++
    writeFraction (if isLeap then t.nanos - nanosPerSecond else t.nanos) ++ ['Z']

def write (t : Timestamp) : String := String.ofList (writeChars t)

/-! ## reading -/

inductive Error where
  | outOfRange
  | impossible
  | invalid
  | tooShort
  | tooLong
  deriving DecidableEq

def Error.message : Error → String
  | outOfRange => "input is out of range"
  | impossible => "no possible date and time matching input"
  | invalid => "input contains invalid characters"
  | tooShort => "premature end of input"
  | tooLong => "trailing input"

abbrev Reader (α : Type) := List Char → Except Error (α × List Char)

/-- at least one digit and no more than `width` -/
def number (width : Nat) : Reader Nat
  | [] => .error .tooShort
  | c :: cs =>
    if isDigit c then
      let ds := ((c :: cs).take width).takeWhile isDigit
      .ok (ofDigits ds, (c :: cs).drop ds.length)
    else .error .invalid

/-- a number in a range, after blanks -/
def field (low high : Nat) : Reader Nat := fun cs => do
  let (n, rest) ← number 2 (skipBlank cs)
  if low ≤ n ∧ n ≤ high then pure (n, rest) else .error .outOfRange

/-- years that the calendar reaches -/
def lowestYear : Int := -262143

def highestYear : Int := 262142

/-- digits of a year with a sign: any number of them, while they fit in 64 bits -/
def signedYear (cs : List Char) : Except Error (Nat × List Char) := do
  let (n, rest) ← number cs.length cs
  if n < UInt64.size / 2 then pure (n, rest) else .error .outOfRange

def year : Reader Int := fun cs => do
  let (y, rest) ←
    match skipBlank cs with
    | '-' :: cs => (signedYear cs).map fun r => (-(r.1 : Int), r.2)
    | '+' :: cs => (signedYear cs).map fun r => ((r.1 : Int), r.2)
    | cs => (number 4 cs).map fun r => ((r.1 : Int), r.2)
  if Int32.minValue.toInt ≤ y ∧ y ≤ Int32.maxValue.toInt then pure (y, rest) else .error .outOfRange

/-- one character, after blanks -/
def mark (m : Char) (cs : List Char) : Except Error (List Char) :=
  match skipBlank cs with
  | [] => .error .tooShort
  | c :: rest => if c = m then .ok rest else .error .invalid

/-- digits after a point; those beyond the ninth do not count -/
def fraction : Reader Nat
  | '.' :: cs => do
    let (n, rest) ← number 9 cs
    let taken := cs.length - rest.length
    pure (n * Nat.pow 10 (9 - taken), rest.dropWhile isDigit)
  | cs => .ok (0, cs)

def twoDigits : Reader Nat
  | a :: b :: rest =>
    if isDigit a && isDigit b then .ok (digitValue a * 10 + digitValue b, rest)
    else .error .invalid
  | [c] => if c.utf8Size ≤ 1 then .error .tooShort else .error .invalid
  | [] => .error .tooShort

/-- hours and minutes east of UTC, in seconds -/
def hoursAndMinutes : Reader Nat := fun cs => do
  let (hours, rest) ← twoDigits cs
  let (minutes, rest) ← twoDigits (rest.dropWhile fun c => c == ':' || isBlank c)
  if minutes < 60 then pure (hours * 3600 + minutes * 60, rest) else .error .outOfRange

def startsWithUtc (cs : List Char) : Bool := (cs.take 3).map Char.toUpper == ['U', 'T', 'C']

def offset : Reader Int := fun cs =>
  if startsWithUtc cs then .ok (0, cs.drop 3)
  else
    match cs with
    | [] => .error .tooShort
    | 'Z' :: rest => .ok (0, rest)
    | 'z' :: rest => .ok (0, rest)
    | '+' :: rest => (hoursAndMinutes rest).map fun r => ((r.1 : Int), r.2)
    | '-' :: rest => (hoursAndMinutes rest).map fun r => (-(r.1 : Int), r.2)
    | '−' :: rest => (hoursAndMinutes rest).map fun r => (-(r.1 : Int), r.2)
    | _ :: _ => .error .invalid

structure Fields where
  date : Date
  hour : Nat
  minute : Nat
  second : Nat
  nanos : Nat
  offset : Int

def separator : List Char → Except Error (List Char)
  | [] => .error .tooShort
  | c :: rest => if c = 't' ∨ c = 'T' ∨ c = ' ' then .ok rest else .error .invalid

def fields : Reader Fields := fun cs => do
  let (y, cs) ← year cs
  let cs ← mark '-' cs
  let (m, cs) ← field 1 12 cs
  let cs ← mark '-' cs
  let (d, cs) ← field 1 31 cs
  let cs ← separator cs
  let (hour, cs) ← field 0 23 cs
  let cs ← mark ':' cs
  let (minute, cs) ← field 0 59 cs
  let cs ← mark ':' cs
  let (second, cs) ← field 0 60 cs
  let (nanos, cs) ← fraction cs
  let (offset, cs) ← offset (skipBlank cs)
  pure (⟨⟨y, m, d⟩, hour, minute, second, nanos, offset⟩, cs)

/-- seconds from 1970 to the start of a year -/
def startOfYear (y : Int) : Int := Date.number ⟨y, 1, 1⟩ * secondsPerDay

def Fields.timestamp (f : Fields) : Except Error Timestamp :=
  if !(f.date.isValid && decide (lowestYear ≤ f.date.year) && decide (f.date.year ≤ highestYear)) then
    .error .outOfRange
  else if secondsPerDay ≤ f.offset.natAbs then .error .outOfRange
  else
    let second := if f.second = 60 then 59 else f.second
    let nanos := if f.second = 60 then f.nanos + nanosPerSecond else f.nanos
    let seconds := f.date.number * secondsPerDay + (f.hour * 3600 + f.minute * 60 + second : Nat) -
      f.offset
    if startOfYear lowestYear ≤ seconds ∧ seconds < startOfYear (highestYear + 1) then
      .ok ⟨seconds, nanos⟩
    else .error .impossible

def read (s : String) : Except Error Timestamp := do
  let (f, rest) ← fields s.toList
  if (skipBlank rest).isEmpty then f.timestamp else .error .tooLong

end Rfc3339

end TaskPool
