import TaskPool.Time.Duration

/-!
# Refusals and failures

* `Refusal`   why a submission is not accepted
* `Failure`   how an accepted task can end without a value
* `Unreachable`   the pool no longer answers at all

Each has a `message`, the text that callers see.
-/

namespace TaskPool

inductive Refusal where
  | notRunning
  | queueFull (capacity : Nat)
  | unavailable
  deriving DecidableEq

def unavailableText : String := "worker pool coordinator is unavailable"

def Refusal.message : Refusal → String
  | notRunning => "worker pool is not running"
  | queueFull capacity => "task queue is full (" ++ toString capacity ++ " tasks)"
  | unavailable => unavailableText

inductive Failure where
  /-- the handler failed in each of the attempts -/
  | failed (detail : String) (attempts : UInt32)
  | workerCrashed (worker : Nat) (detail : String)
  | timeout (after : Duration)
  | cancelled
  | shutdown
  | rejected (why : Refusal)
  | unavailable
  deriving DecidableEq

def Failure.message : Failure → String
  | failed detail attempts =>
    "task failed after " ++ toString attempts ++ " attempt(s): " ++ detail
  | workerCrashed worker detail =>
    "worker " ++ toString worker ++ " crashed while running the task: " ++ detail
  | timeout after => "task timed out after " ++ after.text
  | cancelled => "task was cancelled"
  | shutdown => "worker pool shut down before the task finished"
  | rejected why => "task was rejected: " ++ why.message
  | unavailable => unavailableText

end TaskPool
