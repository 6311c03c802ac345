import TaskPool.Handler.Script

/-!
# The handlers of a pool

* `Behaviour`           how a kind of task is handled: by its script, or by reporting on the
                        process
* `HandlerTable`        the kinds that have a handler
* `HandlerTable.start`  the actions of a run

A task of a kind without a handler fails at once.
-/

namespace TaskPool

inductive Behaviour where
  | scripted
  | processReport
  deriving DecidableEq

structure HandlerTable where
  entries : List (Kind × Behaviour)

namespace HandlerTable

/-- every kind is scripted -/
def allScripted : HandlerTable := ⟨Kind.all.map fun k => (k, .scripted)⟩

def find? (t : HandlerTable) (k : Kind) : Option Behaviour := t.entries.lookup k

/-- the kinds with a handler, in their order -/
def kinds (t : HandlerTable) : List Kind := Kind.all.filter fun k => (t.find? k).isSome

def missing (k : Kind) : String := "no handler registered for task type " ++ k.name

/-- the table as diagnostics show it -/
def text (t : HandlerTable) : String :=
  "HandlerTable \x7b task_types: [" ++ String.intercalate ", " (t.kinds.map Kind.label) ++ "] \x7d"

/-- what a report on the process says -/
def processValue (collectedAt : String) (memory : Nat) : Json :=
  .object [("collected_at", .string collectedAt), ("cpu", .ofFloat 0.0), ("memory", .ofNat memory)]

/-- the actions of run number `n` of a task -/
def start (t : HandlerTable) (k : Kind) (payload : Json) (worker : WorkerId) (n : Nat)
    (report : Json) : List Action :=
  match t.find? k with
  | none => [.finish (.error [missing k])]
  | some .scripted => Script.ofPayload payload worker n
  | some .processReport => [.finish (.value report)]

end HandlerTable

end TaskPool
