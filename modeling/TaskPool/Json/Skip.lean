import TaskPool.Json.Reader

/-!
# Passing over values

`skipValue` passes over a value that nobody wants.  It checks the form of the text, though less
closely than a reader does: any number of brackets may be open, a pair of surrogates need not fit
together, and a number may be of any size.

It goes from token to token with the list of the brackets that are open (`Bracket`), so it needs
no recursion into the value; the fuel is the length of the text.
-/

namespace TaskPool

namespace Json

inductive Bracket where
  | list
  | object
  deriving DecidableEq

def Bracket.endOfText : Bracket → Reason
  | list => .endInList
  | object => .endInObject

def Bracket.expectedEnd : Bracket → Reason
  | list => .expectedListEnd
  | object => .expectedObjectEnd

def Bracket.close : Bracket → Char
  | list => ']'
  | object => '\x7d'

/-! ## single tokens -/

/-- an escape after its backslash; any code point will do -/
def skipEscape (cs : List Char) : Except Fault (List Char) :=
  match cs with
  | [] => failAt .endInString []
  | c :: rest =>
    if (shortEscape? c).isSome then .ok rest
    else if c = 'u' then (hexEscape rest).map Prod.snd
    else failIn .invalidEscape cs

def skipStringFrom : Nat → List Char → Except Fault (List Char)
  | 0, cs => failAt .endInString cs
  | _ + 1, [] => failAt .endInString []
  | fuel + 1, c :: cs =>
    if c = '"' then .ok cs
    else if c = '\\' then do skipStringFrom fuel (← skipEscape cs)
    else if c.toNat < 0x20 then failAt .controlCharacter (c :: cs)
    else skipStringFrom fuel cs

/-- a string after its opening quote -/
def skipString (cs : List Char) : Except Fault (List Char) := skipStringFrom (cs.length + 1) cs

def skipExponent (cs : List Char) : Except Fault (List Char) :=
  let ds :=
    match cs with
    | '+' :: ds => ds
    | '-' :: ds => ds
    | ds => ds
  match ds with
  | [] => failAt .invalidNumber []
  | d :: rest => if isDigit d then .ok (skipDigits rest) else failIn .invalidNumber ds

def skipAfterDigits : List Char → Except Fault (List Char)
  | '.' :: cs =>
    let rest := skipDigits cs
    if rest.length = cs.length then failIn .invalidNumber rest
    else
      match rest with
      | 'e' :: rest => skipExponent rest
      | 'E' :: rest => skipExponent rest
      | rest => .ok rest
  | 'e' :: cs => skipExponent cs
  | 'E' :: cs => skipExponent cs
  | cs => .ok cs

/-- a number after its sign -/
def skipNumber : List Char → Except Fault (List Char)
  | [] => failAt .invalidNumber []
  | '0' :: cs =>
    match cs with
    | d :: _ => if isDigit d then failIn .invalidNumber cs else skipAfterDigits cs
    | [] => .ok []
  | c :: cs => if isDigit c then skipAfterDigits (skipDigits cs) else failIn .invalidNumber (c :: cs)

/-- the start of a value: the bracket it opens, or nothing when it is done -/
def skipStart (cs : List Char) : Except Fault (Option Bracket × List Char) :=
  match skipBlank cs with
  | [] => failAt .endInValue []
  | 'n' :: rest => (word ['u', 'l', 'l'] rest).map fun r => (none, r)
  | 't' :: rest => (word ['r', 'u', 'e'] rest).map fun r => (none, r)
  | 'f' :: rest => (word ['a', 'l', 's', 'e'] rest).map fun r => (none, r)
  | '-' :: rest => (skipNumber rest).map fun r => (none, r)
  | '"' :: rest => (skipString rest).map fun r => (none, r)
  | '[' :: rest => .ok (some .list, rest)
  | '\x7b' :: rest => .ok (some .object, rest)
  | c :: rest =>
    if isDigit c then (skipNumber (c :: rest)).map fun r => (none, r)
    else failIn .expectedValue (c :: rest)

/-! ## between the tokens -/

/-- a name and its colon, where an object goes on -/
def skipKey (cs : List Char) : Except Fault (List Char) := do
  match skipBlank cs with
  | [] => failAt .endInObject []
  | '"' :: rest => colon (← skipString rest)
  | rest => failIn .keyNotString rest

/-- where the next value starts after brackets and a comma, or nothing when all are closed -/
def skipBetween : List Bracket → Bool → List Char → Except Fault (Option (List Bracket) × List Char)
  | [], _, cs => .ok (none, cs)
  | b :: outer, afterValue, cs =>
    match skipBlank cs with
    | [] => failAt b.endOfText []
    | c :: rest =>
      if afterValue && c == ',' then .ok (some (b :: outer), rest)
      else if c = b.close then skipBetween outer true rest
      else if afterValue then failIn b.expectedEnd (c :: rest)
      else .ok (some (b :: outer), c :: rest)

def skipFrom : Nat → List Bracket → List Char → Except Fault (List Char)
  | 0, _, cs => failAt .endInValue cs
  | fuel + 1, opened, cs => do
    let (bracket, rest) ← skipStart cs
    let (more, rest) ← skipBetween (bracket.toList ++ opened) bracket.isNone rest
    match more with
    | none => pure rest
    | some opened =>
      if opened.head? = some .object then skipFrom fuel opened (← skipKey rest)
      else skipFrom fuel opened rest

def skipValue (cs : List Char) : Except Fault (List Char) := skipFrom (cs.length + 1) [] cs

end Json

end TaskPool
