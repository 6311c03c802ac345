import TaskPool.Json.Value
import TaskPool.Number.Layout
import TaskPool.Text.Quoted

/-!
# Faults in JSON

* `Found`    what stood in the text where something else was expected
* `Reason`   what is wrong, with its text `Reason.message`
* `Fault`    a reason and its place, counted in bytes from the end of the text
* `Fault.message`   the reason, with the line and the column of the place

A column is the number of bytes between the start of the line and the place.
-/

namespace TaskPool

namespace Json

inductive Found where
  | null
  | bool (value : Bool)
  | number (value : JsonNumber)
  | string (value : String)
  | sequence
  | map

inductive Reason where
  | endInList
  | endInObject
  | endInString
  | endInValue
  | expectedColon
  | expectedListEnd
  | expectedObjectEnd
  | expectedWord
  | expectedValue
  | invalidEscape
  | invalidNumber
  | numberOutOfRange
  | controlCharacter
  | keyNotString
  | loneSurrogate
  | trailingComma
  | trailingCharacters
  | unfinishedSurrogate
  | tooDeep
  | wrongType (found : Found) (expected : String)
  | wrongValue (found : Found) (expected : String)
  | wrongLength (length : Nat) (expected : String)
  | unknownVariant (name : String) (known : List String)
  | missingField (name : String)
  | duplicateField (name : String)
  | custom (text : String)

def Found.text : Found → String
  | null => "null"
  | bool true => "boolean `true`"
  | bool false => "boolean `false`"
  | number (.int n) => "integer `" ++ toString n ++ "`"
  | number (.float x) => "floating point `" ++ Layout.json.text x ++ "`"
  | string s => "string " ++ Quoted.text s
  | sequence => "sequence"
  | map => "map"

def found : Json → Found
  | .null => .null
  | .bool b => .bool b
  | .number n => .number n
  | .string s => .string s
  | .array _ => .sequence
  | .object _ => .map

def inBackquotes (s : String) : String := "`" ++ s ++ "`"

/-- a choice of names -/
def oneOf : List String → String
  | [] => "there are no variants"
  | [a] => "expected " ++ inBackquotes a
  | [a, b] => "expected " ++ inBackquotes a ++ " or " ++ inBackquotes b
  | names => "expected one of " ++ String.intercalate ", " (names.map inBackquotes)

def Reason.message : Reason → String
  | endInList => "EOF while parsing a list"
  | endInObject => "EOF while parsing an object"
  | endInString => "EOF while parsing a string"
  | endInValue => "EOF while parsing a value"
  | expectedColon => "expected `:`"
  | expectedListEnd => "expected `,` or `]`"
  | expectedObjectEnd => "expected `,` or `\x7d`"
  | expectedWord => "expected ident"
  | expectedValue => "expected value"
  | invalidEscape => "invalid escape"
  | invalidNumber => "invalid number"
  | numberOutOfRange => "number out of range"
  | controlCharacter => "control character (\\u0000-\\u001F) found while parsing a string"
  | keyNotString => "key must be a string"
  | loneSurrogate => "lone leading surrogate in hex escape"
  | trailingComma => "trailing comma"
  | trailingCharacters => "trailing characters"
  | unfinishedSurrogate => "unexpected end of hex escape"
  | tooDeep => "recursion limit exceeded"
  | wrongType f expected => "invalid type: " ++ f.text ++ ", expected " ++ expected
  | wrongValue f expected => "invalid value: " ++ f.text ++ ", expected " ++ expected
  | wrongLength n expected => "invalid length " ++ toString n ++ ", expected " ++ expected
  | unknownVariant name known =>
    "unknown variant " ++ inBackquotes name ++ ", " ++ oneOf known
  | missingField name => "missing field " ++ inBackquotes name
  | duplicateField name => "duplicate field " ++ inBackquotes name
  | custom text => text

/-- the length of a text in bytes -/
def byteCount (cs : List Char) : Nat := cs.foldr (fun c n => c.utf8Size + n) 0

structure Fault where
  reason : Reason
  /-- the bytes from the place of the fault to the end of the text -/
  left : Nat

/-- a fault in front of `rest` -/
def failAt {α : Type} (reason : Reason) (rest : List Char) : Except Fault α :=
  .error ⟨reason, byteCount rest⟩

/-- a fault in the first byte of `rest`; its place is behind that byte, if there is one -/
def failIn {α : Type} (reason : Reason) (rest : List Char) : Except Fault α :=
  .error ⟨reason, byteCount rest - 1⟩

structure Position where
  line : Nat
  column : Nat
  deriving DecidableEq

/-- `p` moved over the first `bytes` bytes of a text -/
def Position.advance (p : Position) : Nat → List Char → Position
  | _, [] => p
  | 0, _ => p
  | bytes + 1, c :: cs =>
    if c = '\n' then advance ⟨p.line + 1, 0⟩ bytes cs
    else if c.utf8Size ≤ bytes + 1 then
      advance ⟨p.line, p.column + c.utf8Size⟩ (bytes + 1 - c.utf8Size) cs
    else ⟨p.line, p.column + bytes + 1⟩

def Fault.position (f : Fault) (text : String) : Position :=
  Position.advance ⟨1, 0⟩ (byteCount text.toList - f.left) text.toList

def Fault.message (f : Fault) (text : String) : String :=
  let p := f.position text
  f.reason.message ++ " at line " ++ toString p.line ++ " column " ++ toString p.column

end Json

end TaskPool
