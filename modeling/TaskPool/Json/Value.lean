/-!
# JSON values

* `JsonNumber`      a number is an integer of 64 bits (signed or unsigned) or a double
* `Json`            a value; the members of an object stand in the order in which they are written
* `Json.insert`     puts a member in its place by name, over a member of the same name
* `Json.ofMembers`  an object from members in any order: they are sorted by name, and of several
                    members with one name the last wins
* `Json.get?`       the member of a name

Names are compared letter by letter, by code point.
-/

namespace TaskPool

inductive JsonNumber where
  | int (value : Int)
  | float (value : Float)

inductive Json where
  | null
  | bool (value : Bool)
  | number (value : JsonNumber)
  | string (value : String)
  | array (items : List Json)
  | object (members : List (String × Json))

namespace Json

instance : Inhabited Json := ⟨null⟩

def insert (name : String) (value : Json) : List (String × Json) → List (String × Json)
  | [] => [(name, value)]
  | (n, v) :: rest =>
    if name < n then (name, value) :: (n, v) :: rest
    else if name = n then (name, value) :: rest
    else (n, v) :: insert name value rest

def ofMembers (members : List (String × Json)) : Json :=
  object (members.foldl (fun acc m => insert m.1 m.2 acc) [])

def get? (j : Json) (name : String) : Option Json :=
  match j with
  | object members => members.lookup name
  | _ => none

def ofNat (n : Nat) : Json := number (.int n)

def ofInt (n : Int) : Json := number (.int n)

def ofFloat (x : Float) : Json := number (.float x)

/-! ## views -/

/-- the number of an item that is one and is not negative -/
def nat? : Json → Option Nat
  | number (.int n) => if n < 0 then none else some n.toNat
  | _ => none

def string? : Json → Option String
  | string s => some s
  | _ => none

def array? : Json → Option (List Json)
  | array items => some items
  | _ => none

def bool? : Json → Option Bool
  | bool b => some b
  | _ => none

end Json

end TaskPool
