import TaskPool.Json.Token

/-!
# Reading JSON values

* `nextItem`, `nextKey`   move on to the next item of a list or the next name of an object, or to
                          its end
* `items`, `entries`      a list of items, and an object read entry by entry
* `read`                  a value, with so many brackets allowed one inside the other
* `ofText`                a whole text

The fuel of `items` and `entries` is the length of the text: every step takes at least one
character of it.
-/

namespace TaskPool

namespace Json

/-- brackets that may stand one inside the other -/
def nestingLimit : Nat := 127

/-- true in front of an item, false in front of the closing bracket -/
def nextItem (first : Bool) : Reader Bool := fun cs =>
  match skipBlank cs with
  | [] => failAt .endInList []
  | ']' :: rest => .ok (false, ']' :: rest)
  | c :: rest =>
    if first then .ok (true, c :: rest)
    else if c = ',' then
      match skipBlank rest with
      | [] => failAt .endInValue []
      | ']' :: rest => failIn .trailingComma (']' :: rest)
      | rest => .ok (true, rest)
    else failIn .expectedListEnd (c :: rest)

/-- true in front of the quote that opens a name, false in front of the closing brace -/
def nextKey (first : Bool) : Reader Bool := fun cs =>
  match skipBlank cs with
  | [] => failAt .endInObject []
  | '\x7d' :: rest => .ok (false, '\x7d' :: rest)
  | c :: rest =>
    if first then
      if c = '"' then .ok (true, c :: rest) else failIn .keyNotString (c :: rest)
    else if c = ',' then
      match skipBlank rest with
      | [] => failAt .endInValue []
      | '"' :: rest => .ok (true, '"' :: rest)
      | '\x7d' :: rest => failIn .trailingComma ('\x7d' :: rest)
      | rest => failIn .keyNotString rest
    else failIn .expectedObjectEnd (c :: rest)

def itemsFrom {α : Type} (one : Reader α) : Nat → Bool → Reader (List α)
  | 0, _, cs => failAt .endInList cs
  | fuel + 1, first, cs => do
    let (more, rest) ← nextItem first cs
    if more then
      let (v, rest) ← one rest
      let (vs, rest) ← itemsFrom one fuel false rest
      pure (v :: vs, rest)
    else pure ([], rest.drop 1)

/-- the items of a list after its opening bracket, with the closing one -/
def items {α : Type} (one : Reader α) : Reader (List α) := fun cs =>
  itemsFrom one (cs.length + 1) true cs

def entriesFrom {α : Type} (one : α → Reader α) : Nat → Bool → α → Reader α
  | 0, _, _, cs => failAt .endInObject cs
  | fuel + 1, first, a, cs => do
    let (more, rest) ← nextKey first cs
    if more then
      let (a, rest) ← one a rest
      entriesFrom one fuel false a rest
    else pure (a, rest)

/-- the entries of an object after its opening brace, up to the closing one; what was read of
earlier entries is at hand when an entry is read -/
def entries {α : Type} (one : α → Reader α) (start : α) : Reader α := fun cs =>
  entriesFrom one (cs.length + 1) true start cs

def colon (cs : List Char) : Except Fault (List Char) :=
  match skipBlank cs with
  | [] => failAt .endInObject []
  | ':' :: rest => .ok rest
  | rest => failIn .expectedColon rest

/-- a name, in front of its opening quote -/
def key : Reader String := fun cs => stringBody (cs.drop 1)

def member (value : Reader Json) (earlier : List (String × Json)) :
    Reader (List (String × Json)) := fun cs => do
  let (name, rest) ← key cs
  let rest ← colon rest
  let (v, rest) ← value rest
  pure (earlier ++ [(name, v)], rest)

/-- a value whose lists and objects are left to `nested` -/
def valueWith (nested : Reader Json) : Reader Json := fun cs =>
  match skipBlank cs with
  | [] => failAt .endInValue []
  | 'n' :: rest => (word ['u', 'l', 'l'] rest).map fun r => (null, r)
  | 't' :: rest => (word ['r', 'u', 'e'] rest).map fun r => (bool true, r)
  | 'f' :: rest => (word ['a', 'l', 's', 'e'] rest).map fun r => (bool false, r)
  | '-' :: rest => (readNumber true rest).map fun r => (.number r.1, r.2)
  | '"' :: rest => (stringBody rest).map fun r => (string r.1, r.2)
  | '[' :: rest => nested ('[' :: rest)
  | '\x7b' :: rest => nested ('\x7b' :: rest)
  | c :: rest =>
    if isDigit c then (readNumber false (c :: rest)).map fun r => (.number r.1, r.2)
    else failIn .expectedValue (c :: rest)

/-- a list or an object of values -/
def container (value : Reader Json) : Reader Json
  | '[' :: cs => (items value cs).map fun r => (array r.1, r.2)
  | cs => (entries (member value) [] (cs.drop 1)).map fun r => (ofMembers r.1, r.2.drop 1)

def read : Nat → Reader Json
  | 0 => valueWith (failIn .tooDeep)
  | depth + 1 => valueWith (container (read depth))

/-- nothing but blanks follows -/
def finish {α : Type} (r : α × List Char) : Except Fault α :=
  match skipBlank r.2 with
  | [] => .ok r.1
  | rest => failIn .trailingCharacters rest

def ofText (s : String) : Except Fault Json := do
  finish (← read nestingLimit s.toList)

end Json

end TaskPool
