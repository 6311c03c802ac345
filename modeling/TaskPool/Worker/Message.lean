import TaskPool.Task.Basic

/-!
# What passes between the pool and a worker

* `Command`   pool to worker
* `Metrics`   what a worker reports about itself
* `Event`     worker to pool; `exited` comes from the watcher that sees the worker end
-/

namespace TaskPool

inductive Command where
  | task (id : TaskId) (kind : Kind) (payload : Json)
  | terminate
  | reportMetrics

structure Metrics where
  /-- the share of the time spent in handlers since the last report, in percent -/
  cpu : Float
  /-- the memory of the whole process, in bytes -/
  memory : Nat
  processed : Nat
  failed : Nat

inductive Event where
  | ready
  | busy (task : TaskId)
  | idle
  | result (task : TaskId) (value : Json)
  | error (task : TaskId) (detail : String)
  | fatal (detail : String)
  | metrics (sample : Metrics)
  | exited (graceful : Bool)

end TaskPool
