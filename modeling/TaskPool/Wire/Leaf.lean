import TaskPool.Json.Shape
import TaskPool.Task.Basic
import TaskPool.Time.Rfc3339
import TaskPool.Worker.Status

/-!
# Simple values on the wire

For each simple type its JSON value (`json`), how a value is read back (`ofJson?`) and the shape of
its texts.  A point in time is RFC 3339 text, an identifier its hyphenated text, and the members of
an enumeration go by their names.
-/

namespace TaskPool

def Uuid.json (u : Uuid) : Json := .string u.text

def Uuid.ofJson? (j : Json) : Option Uuid := j.string?.bind fun s => (Uuid.ofText s).toOption

def Timestamp.json (t : Timestamp) : Json := .string (Rfc3339.write t)

def Timestamp.ofJson? (j : Json) : Option Timestamp :=
  j.string?.bind fun s => (Rfc3339.read s).toOption

def Kind.json (k : Kind) : Json := .string k.name

def Kind.ofJson? (j : Json) : Option Kind := j.string?.bind ofName?

def Priority.json (p : Priority) : Json := .string p.name

def Priority.ofJson? (j : Json) : Option Priority := j.string?.bind ofName?

def Status.json (s : Status) : Json := .string s.name

def Status.ofJson? (j : Json) : Option Status := j.string?.bind ofName?

def WorkerStatus.json (s : WorkerStatus) : Json := .string s.name

def WorkerStatus.ofJson? (j : Json) : Option WorkerStatus := j.string?.bind ofName?

def CancelOutcome.json (o : CancelOutcome) : Json := .string o.name

def CancelOutcome.ofJson? (j : Json) : Option CancelOutcome := j.string?.bind ofName?

namespace Wire

def float? : Json → Option Float
  | .number (.float x) => some x
  | _ => none

/-- null, or a value -/
def optional {α : Type} (json : α → Json) : Option α → Json
  | none => .null
  | some a => json a

def optional? {α : Type} (ofJson? : Json → Option α) : Json → Option (Option α)
  | .null => some none
  | j => (ofJson? j).map some

def list? {α : Type} (ofJson? : Json → Option α) (j : Json) : Option (List α) :=
  j.array?.bind fun vs => vs.mapM ofJson?

/-- a field of an object -/
def field? {α : Type} (j : Json) (name : String) (ofJson? : Json → Option α) : Option α :=
  (j.get? name).bind ofJson?

def u32? (j : Json) : Option UInt32 := j.nat?.map UInt32.ofNat

end Wire

namespace Shape

def u32 : Shape := word "u32" 32

def u64 : Shape := word "u64" 64

def size : Shape := word "usize" 64

def uuid : Shape :=
  parsed "a formatted UUID string" fun s =>
    match Uuid.ofText s with
    | .ok u => .ok u.json
    | .error why => .error (.custom ("UUID parsing failed: " ++ why.message))

def moment : Shape :=
  parsed "an RFC 3339 formatted date and time string" fun s =>
    match Rfc3339.read s with
    | .ok t => .ok t.json
    | .error why => .error (.custom why.message)

def kind : Shape := choice (Kind.all.map Kind.name)

def priority : Shape := choice (Priority.all.map Priority.name)

def status : Shape := choice (Status.all.map Status.name)

def workerStatus : Shape := choice (WorkerStatus.all.map WorkerStatus.name)

def cancelOutcome : Shape := choice (CancelOutcome.all.map CancelOutcome.name)

end Shape

end TaskPool
