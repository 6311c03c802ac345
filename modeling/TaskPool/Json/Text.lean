import TaskPool.Json.Value
import TaskPool.Number.Layout

/-!
# JSON text

* `Json.escape`   a string between its quotes: the quote, the backslash and the control characters
                  are escaped, everything else stands for itself
* `Json.chars`    the text of a value, without blanks
* `Json.text`     the same as a string
-/

namespace TaskPool

namespace Json

def hexDigit (n : Nat) : Char := Nat.digitChar (n % 16)

/-- a control character by its number, in four digits -/
def escapeControl (n : Nat) : List Char :=
  ['\\', 'u', '0', '0', hexDigit (n / 16), hexDigit n]

def escapeChar (c : Char) : List Char :=
  if c = '"' then ['\\', '"']
  else if c = '\\' then ['\\', '\\']
  else if 0x20 ≤ c.toNat then [c]
  else if c = '\n' then ['\\', 'n']
  else if c = '\r' then ['\\', 'r']
  else if c = '\t' then ['\\', 't']
  else if c.toNat = 0x08 then ['\\', 'b']
  else if c.toNat = 0x0c then ['\\', 'f']
  else escapeControl c.toNat

def escape (cs : List Char) : List Char := cs.flatMap escapeChar

def quote (s : String) : List Char := '"' :: escape s.toList ++ ['"']

def numberChars : JsonNumber → List Char
  | .int n => (toString n).toList
  | .float x => (Layout.json.text x).toList

/-- parts with a comma between them -/
def commaSeparated (parts : List (List Char)) : List Char := List.intercalate [','] parts

mutual

def chars : Json → List Char
  | null => "null".toList
  | bool true => "true".toList
  | bool false => "false".toList
  | number n => numberChars n
  | string s => quote s
  | array items => '[' :: commaSeparated (charsOfItems items) ++ [']']
  | object members => '\x7b' :: commaSeparated (charsOfMembers members) ++ ['\x7d']

def charsOfItems : List Json → List (List Char)
  | [] => []
  | v :: rest => chars v :: charsOfItems rest

def charsOfMembers : List (String × Json) → List (List Char)
  | [] => []
  | (name, v) :: rest => (quote name ++ ':' :: chars v) :: charsOfMembers rest

end

def text (j : Json) : String := String.ofList j.chars

theorem escape_cons (c : Char) (cs : List Char) : escape (c :: cs) = escapeChar c ++ escape cs :=
  rfl

end Json

end TaskPool
