import TaskPool.Json.Skip

/-!
# Shapes of values

A `Shape` says what values are wanted, and brings what is accepted into one form.  It works on a
text (`Shape.read`) and on a value that was read before (`Shape.check`).

* `boolean`, `word`, `double`, `string`, `parsed`   simple values
* `choice`     one of a few names; an object with the name alone and null in it says the same
* `optional`   null as well; a field of this shape may be missing
* `list`       a list, item by item
* `table`      an object with names of a choice, put in the order of the choice
* `record`     an object with fields, in any order and with others among them, or the list of the
               fields in their order; put in that order
* `any`        whatever it is

Reading a text goes from left to right, so what is reported is the first thing that is wrong.  A
field that is missing, or there twice, is noticed in the midst of an object; its place is where
the reader stands after it has looked for the closing brace.
-/

namespace TaskPool

open Json

structure Shape where
  /-- brackets still allowed, text: the accepted value and the text behind it -/
  read : Nat → Reader Json
  check : Json → Except Reason Json
  /-- what a missing field stands for -/
  absent : Option Json

namespace Shape

structure Field where
  name : String
  shape : Shape
  /-- what the field is when nothing is given, also in a list -/
  default : Option Json

/-- a field without a default -/
def Field.of (name : String) (shape : Shape) : Field := ⟨name, shape, none⟩

/-! ## simple values -/

/-- what stands in the text where a value of another kind was wanted -/
def describe (cs : List Char) : Except Fault (Found × List Char) :=
  match cs with
  | [] => failAt .endInValue []
  | 'n' :: rest => (word ['u', 'l', 'l'] rest).map fun r => (.null, r)
  | 't' :: rest => (word ['r', 'u', 'e'] rest).map fun r => (.bool true, r)
  | 'f' :: rest => (word ['a', 'l', 's', 'e'] rest).map fun r => (.bool false, r)
  | '-' :: rest => (readNumber true rest).map fun r => (.number r.1, r.2)
  | '"' :: rest => (stringBody rest).map fun r => (.string r.1, r.2)
  | '[' :: _ => .ok (.sequence, cs)
  | '\x7b' :: _ => .ok (.map, cs)
  | c :: _ =>
    if isDigit c then (readNumber false cs).map fun r => (.number r.1, r.2)
    else failIn .expectedValue cs

def mismatch {α : Type} (expected : String) (cs : List Char) : Except Fault α := do
  let (found, rest) ← describe cs
  failAt (.wrongType found expected) rest

/-- the place of a reason that was found out on the value in front of `rest` -/
def place {α : Type} (rest : List Char) : Except Reason α → Except Fault (α × List Char)
  | .ok a => .ok (a, rest)
  | .error why => failAt why rest

def boolean : Shape where
  read _ cs :=
    match Json.skipBlank cs with
    | [] => failAt .endInValue []
    | 't' :: rest => (word ['r', 'u', 'e'] rest).map fun r => (.bool true, r)
    | 'f' :: rest => (word ['a', 'l', 's', 'e'] rest).map fun r => (.bool false, r)
    | rest => mismatch "a boolean" rest
  check
    | .bool b => .ok (.bool b)
    | j => .error (.wrongType (found j) "a boolean")
  absent := none

/-- a value that is a number and meets a condition -/
def numeric (expected : String) (convert : JsonNumber → Except Reason Json) : Shape where
  read _ cs :=
    match Json.skipBlank cs with
    | [] => failAt .endInValue []
    | '-' :: rest => do
      let (n, rest) ← readNumber true rest
      place rest (convert n)
    | c :: rest =>
      if isDigit c then do
        let (n, rest) ← readNumber false (c :: rest)
        place rest (convert n)
      else mismatch expected (c :: rest)
  check
    | .number n => convert n
    | j => .error (.wrongType (found j) expected)
  absent := none

/-- a whole number of so many bits -/
def word (name : String) (bits : Nat) : Shape :=
  numeric name fun n =>
    match n with
    | .int i =>
      if 0 ≤ i ∧ i.toNat < 1 <<< bits then .ok (.number (.int i))
      else .error (.wrongValue (.number n) name)
    | .float _ => .error (.wrongType (.number n) name)

def double : Shape :=
  numeric "f64" fun n =>
    match n with
    | .int i => .ok (.number (.float (Float.ofInt i)))
    | .float x => .ok (.number (.float x))

/-- a string that says something -/
def parsed (expected : String) (convert : String → Except Reason Json) : Shape where
  read _ cs :=
    match Json.skipBlank cs with
    | [] => failAt .endInValue []
    | '"' :: rest => do
      let (s, rest) ← stringBody rest
      place rest (convert s)
    | rest => mismatch expected rest
  check
    | .string s => convert s
    | j => .error (.wrongType (found j) expected)
  absent := none

def string : Shape := parsed "a string" fun s => .ok (.string s)

def unit : Shape where
  read _ cs :=
    match Json.skipBlank cs with
    | [] => failAt .endInValue []
    | 'n' :: rest => (Json.word ['u', 'l', 'l'] rest).map fun r => (.null, r)
    | rest => mismatch "unit" rest
  check
    | .null => .ok .null
    | j => .error (.wrongType (found j) "unit")
  absent := none

/-! ## choices -/

def variant (names : List String) : Shape :=
  parsed "variant identifier" fun s =>
    if s ∈ names then .ok (.string s) else .error (.unknownVariant s names)

/-- the name, a colon and null in an object, after the opening brace -/
def taggedVariant (names : List String) : Reader Json := fun cs => do
  let (name, rest) ← (variant names).read 0 cs
  let rest ← colon rest
  let (_, rest) ← unit.read 0 rest
  match Json.skipBlank rest with
  | '\x7d' :: rest => pure (name, rest)
  | [] => failAt .endInObject []
  | rest => failAt .expectedValue rest

def choice (names : List String) : Shape where
  read depth cs :=
    match Json.skipBlank cs with
    | [] => failAt .endInValue []
    | '"' :: rest => (variant names).read 0 ('"' :: rest)
    | '\x7b' :: rest => if depth = 0 then failIn .tooDeep ('\x7b' :: rest) else taggedVariant names rest
    | rest => failIn .expectedValue rest
  check
    | .string s => (variant names).check (.string s)
    | .object [(name, v)] => do
      let name ← (variant names).check (.string name)
      let _ ← unit.check v
      pure name
    | .object _ => .error (.wrongValue .map "map with a single key")
    | j => .error (.wrongType (found j) "string or map")
  absent := none

/-! ## compound values -/

def any : Shape where
  read := Json.read
  check := .ok
  absent := none

def optional (s : Shape) : Shape where
  read depth cs :=
    match Json.skipBlank cs with
    | 'n' :: rest => (Json.word ['u', 'l', 'l'] rest).map fun r => (.null, r)
    | rest => s.read depth rest
  check
    | .null => .ok .null
    | j => s.check j
  absent := some .null

def list (s : Shape) : Shape where
  read depth cs :=
    match Json.skipBlank cs with
    | [] => failAt .endInValue []
    | '[' :: rest =>
      match depth with
      | 0 => failIn .tooDeep ('[' :: rest)
      | depth + 1 => (items (s.read depth) rest).map fun r => (.array r.1, r.2)
    | rest => mismatch "a sequence" rest
  check
    | .array vs => (vs.mapM s.check).map .array
    | j => .error (.wrongType (found j) "a sequence")
  absent := none

/-- entries in the order of the names; the last of a name wins -/
def inOrder (names : List String) (entries : List (String × Json)) : List (String × Json) :=
  names.filterMap fun name => (entries.reverse.lookup name).map fun v => (name, v)

def tableEntry (names : List String) (value : Reader Json) (earlier : List (String × Json)) :
    Reader (List (String × Json)) := fun cs => do
  let (name, rest) ← (variant names).read 0 cs
  let rest ← colon rest
  let (v, rest) ← value rest
  pure (earlier ++ [((name.string?).getD "", v)], rest)

def table (names : List String) (s : Shape) : Shape where
  read depth cs :=
    match Json.skipBlank cs with
    | [] => failAt .endInValue []
    | '\x7b' :: rest =>
      match depth with
      | 0 => failIn .tooDeep ('\x7b' :: rest)
      | depth + 1 =>
        (entries (tableEntry names (s.read depth)) [] rest).map fun r =>
          (.object (inOrder names r.1), r.2.drop 1)
    | rest => mismatch "a map" rest
  check
    | .object members => do
      let checked ← members.mapM fun m => do
        let _ ← (variant names).check (.string m.1)
        let v ← s.check m.2
        pure (m.1, v)
      pure (.object (inOrder names checked))
    | j => .error (.wrongType (found j) "a map")
  absent := none

/-! ## records -/

/-- where the reader of an object stands when it has looked for the closing brace -/
def afterObject (cs : List Char) : List Char :=
  match Json.skipBlank cs with
  | '\x7d' :: rest => rest
  | rest => rest

/-- where the reader of a list stands when it has looked for the closing bracket -/
def afterList (cs : List Char) : List Char :=
  match Json.skipBlank cs with
  | ']' :: rest => rest
  | ',' :: rest => Json.skipBlank rest
  | rest => rest

def recordEntry (fields : List Field) (depth : Nat) (earlier : List (String × Json)) :
    Reader (List (String × Json)) := fun cs => do
  let (name, rest) ← key cs
  match fields.find? fun f => f.name == name with
  | none => do
    let rest ← colon rest
    let rest ← skipValue rest
    pure (earlier, rest)
  | some f =>
    if (earlier.lookup name).isSome then failAt (.duplicateField name) (afterObject rest)
    else do
      let rest ← colon rest
      let (v, rest) ← f.shape.read depth rest
      pure (earlier ++ [(name, v)], rest)

/-- every field, with what stands for those that are missing -/
def complete (given : List (String × Json)) (fields : List Field) :
    Except Reason (List (String × Json)) :=
  fields.mapM fun f =>
    match given.lookup f.name, f.default, f.shape.absent with
    | some v, _, _ => .ok (f.name, v)
    | none, some v, _ => .ok (f.name, v)
    | none, none, some v => .ok (f.name, v)
    | none, none, none => .error (.missingField f.name)

def elements (name : String) (count : Nat) : String :=
  "struct " ++ name ++ " with " ++ toString count ++ (if count = 1 then " element" else " elements")

/-- the fields one after the other, after the opening bracket -/
def readElements (name : String) (count depth : Nat) :
    Nat → List Field → Reader (List (String × Json))
  | _, [], cs => .ok ([], cs)
  | i, f :: fs, cs => do
    let (more, rest) ← nextItem (i == 0) cs
    if more then
      let (v, rest) ← f.shape.read depth rest
      let (vs, rest) ← readElements name count depth (i + 1) fs rest
      pure ((f.name, v) :: vs, rest)
    else
      match f.default with
      | some v => do
        let (vs, rest) ← readElements name count depth (i + 1) fs rest
        pure ((f.name, v) :: vs, rest)
      | none => failAt (.wrongLength i (elements name count)) (afterList rest)

/-- nothing but the closing bracket follows -/
def closeList (cs : List Char) : Except Fault (List Char) :=
  match Json.skipBlank cs with
  | [] => failAt .endInList []
  | ']' :: rest => .ok rest
  | ',' :: rest =>
    match Json.skipBlank rest with
    | ']' :: rest => failIn .trailingComma (']' :: rest)
    | rest => failIn .trailingCharacters rest
  | rest => failIn .trailingCharacters rest

def readRecord (name : String) (fields : List Field) (depth : Nat) : Reader Json
  | '[' :: cs => do
    let (vs, rest) ← readElements name fields.length depth 0 fields cs
    let rest ← closeList rest
    pure (.object vs, rest)
  | cs => do
    let (given, rest) ← entries (recordEntry fields depth) [] (cs.drop 1)
    place (rest.drop 1) ((complete given fields).map .object)

/-- the fields of a list of values, and the values that are left -/
def checkElements (name : String) (count : Nat) :
    Nat → List Field → List Json → Except Reason (List (String × Json) × List Json)
  | _, [], vs => .ok ([], vs)
  | i, f :: fs, [] => do
    match f.default with
    | some d => do
      let (rest, left) ← checkElements name count (i + 1) fs []
      pure ((f.name, d) :: rest, left)
    | none => .error (.wrongLength i (elements name count))
  | i, f :: fs, v :: vs => do
    let v ← f.shape.check v
    let (rest, left) ← checkElements name count (i + 1) fs vs
    pure ((f.name, v) :: rest, left)

def checkRecord (name : String) (fields : List Field) : Json → Except Reason Json
  | .array vs => do
    let (members, left) ← checkElements name fields.length 0 fields vs
    if left.isEmpty then pure (.object members)
    else .error (.wrongLength vs.length "fewer elements in array")
  | .object members => do
    let given ← members.filterMapM fun m =>
      match fields.find? fun f => f.name == m.1 with
      | none => pure none
      | some f => do pure (some (m.1, ← f.shape.check m.2))
    (complete given fields).map .object
  | j => .error (.wrongType (found j) ("struct " ++ name))

def record (name : String) (fields : List Field) : Shape where
  read depth cs :=
    match Json.skipBlank cs with
    | [] => failAt .endInValue []
    | c :: rest =>
      if c = '[' ∨ c = '\x7b' then
        match depth with
        | 0 => failIn .tooDeep (c :: rest)
        | depth + 1 => readRecord name fields depth (c :: rest)
      else mismatch ("struct " ++ name) (c :: rest)
  check := checkRecord name fields
  absent := none

/-- a whole text -/
def ofText (s : Shape) (text : String) : Except Fault Json := do
  finish (← s.read nestingLimit text.toList)

end Shape

end TaskPool
