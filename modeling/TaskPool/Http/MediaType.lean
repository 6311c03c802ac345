/-!
# Media types

A media type is `type/subtype`, then parameters behind semicolons, for instance
`application/json; charset=utf-8`.  A plus sign in the subtype starts a suffix, which does not
belong to its name.

`MediaType.ofText?` reads one, and checks the parameters without keeping them.
-/

namespace TaskPool

structure MediaType where
  type : String
  subtype : String
  deriving DecidableEq

namespace MediaType

/-- the characters of a token -/
def isToken (c : Char) : Bool :=
  c.isAlphanum || "!#$%&'*+-.^_|~".toList.contains c || c.toNat == 0x60

/-- the characters inside quotes -/
def isQuotable (c : Char) : Bool := decide (0x1f < c.toNat) && c.toNat != 0x7f

/-- behind a quoted value: blanks, then another parameter or the end -/
def afterQuote : List Char → Option (List Char)
  | [] => some []
  | ';' :: cs => some cs
  | ' ' :: cs => afterQuote cs
  | _ => none

/-- a quoted value; it has at least one character -/
def quotedValue : Bool → List Char → Option (List Char)
  | _, [] => none
  | true, '"' :: cs => afterQuote cs
  | _, c :: cs => if isQuotable c then quotedValue true cs else none

/-- a value without quotes; it is empty only at the end -/
def plainValue : Bool → List Char → Option (List Char)
  | _, [] => some []
  | true, ';' :: cs => some cs
  | _, c :: cs => if isToken c then plainValue true cs else none

def value : List Char → Option (List Char)
  | '"' :: cs => quotedValue false cs
  | cs => plainValue false cs

/-- a name and its equals sign -/
def name : Bool → List Char → Option (List Char)
  | _, [] => none
  | true, '=' :: cs => some cs
  | _, c :: cs => if isToken c then name true cs else none

/-- parameters, with blanks in front of each; every one takes a character at least -/
def areParameters : Nat → List Char → Bool
  | 0, cs => cs.isEmpty
  | fuel + 1, cs =>
    match cs.dropWhile (· == ' ') with
    | [] => true
    | rest =>
      match (name false rest).bind value with
      | some rest => areParameters fuel rest
      | none => false

/-- the subtype without its suffix, the last one of several -/
def withoutSuffix (cs : List Char) : List Char :=
  match cs.drop 1 |>.reverse.dropWhile (· != '+') with
  | [] => cs
  | _ :: rest => cs.take 1 ++ rest.reverse

def ofText? (s : String) : Option MediaType :=
  let cs := s.toList
  let type := cs.takeWhile isToken
  match cs.drop type.length with
  | '/' :: rest =>
    let subtype := rest.takeWhile isToken
    let parameters := rest.drop subtype.length
    let isWhole :=
      match parameters with
      | [] => true
      | ';' :: ps => !subtype.isEmpty && areParameters ps.length ps
      | _ => false
    if type.isEmpty || !isWhole then none
    else
      some
        { type := (String.ofList type).toLower
          subtype := (String.ofList (withoutSuffix subtype)).toLower }
  | _ => none

def json : MediaType := ⟨"application", "json"⟩

end MediaType

end TaskPool
