import TaskPool.Worker.Basic

/-!
# Scripted handlers

A scripted handler does what the payload of its task says.

* `Action`            one thing to do: sleep, wait for a permit, or end
* `Script.ofPayload`  the actions of the n-th run of a task: `run` lists the runs, the last one
                      stands for all later ones
* `Script.echo`       what a payload without runs is answered
* `Script.outcomeWithin`   how a run ends that nobody else takes part in

Actions that nobody knows are passed over, and a script that comes to its end has the value
null.
-/

namespace TaskPool

inductive Action where
  | sleep (ms : Nat)
  /-- take one permit of a gate -/
  | acquire (gate : String)
  | finish (how : Ended)
  | skip

def Action.ofItems : List Json → Action
  | .string "sleep" :: ms => .sleep ((ms.head?.bind Json.nat?).getD 0)
  | .string "block" :: gate => .acquire ((gate.head?.bind Json.string?).getD "")
  | .string "ok" :: v => .finish (.value (v.head?.getD .null))
  | .string "err" :: causes => .finish (.error (causes.filterMap Json.string?))
  | .string "panic" :: text => .finish (.panic (some ((text.head?.bind Json.string?).getD "")))
  | .string "panic_static" :: _ => .finish (.panic (some "static handler panic"))
  | .string "panic_any" :: _ => .finish (.panic none)
  | _ => .skip

def Action.ofJson (j : Json) : Action := Action.ofItems (j.array?.getD [])

namespace Script

def echo (payload : Json) (worker : WorkerId) : List Action :=
  [.finish (.value (.object [("echo", payload), ("worker", .ofNat worker)]))]

/-- the actions of run number `n`, counted from one -/
def ofPayload (payload : Json) (worker : WorkerId) (n : Nat) : List Action :=
  match (payload.get? "run").bind Json.array? with
  | none | some [] => echo payload worker
  | some (first :: more) =>
    let runs := first :: more
    let chosen := (runs[min n runs.length - 1]?).getD .null
    (chosen.array?.getD []).map Action.ofJson

/-- how actions end within so many milliseconds, if they do and if nobody gives a permit -/
def outcomeWithin : Nat → List Action → Option Ended
  | _, [] => some (.value .null)
  | ms, .skip :: rest => outcomeWithin ms rest
  | _, .finish how :: _ => some how
  | ms, .sleep n :: rest => if n ≤ ms then outcomeWithin (ms - n) rest else none
  | _, .acquire _ :: _ => none

end Script

end TaskPool
