import TaskPool.Time.Duration

/-!
# Settings of a pool

`Config` holds every setting with its default.  `Config.validate` refuses the settings that no
pool could work with; of several faults it names the first in the order bounds of the worker
count, room in the queue, thresholds.
-/

namespace TaskPool

structure Config where
  minWorkers : Nat := 2
  maxWorkers : Nat := 8
  autoscaling : Bool := true
  autoscaleInterval : Duration := .ofMillis 10000
  /-- the pool grows above this average share of busy time, in percent -/
  scaleUpCpu : Float := 75.0
  /-- and may shrink below this one -/
  scaleDownCpu : Float := 25.0
  idleTimeout : Duration := .ofMillis 60000
  maxQueueSize : Nat := 1000
  taskTimeout : Duration := .ofMillis 30000
  maxRetries : UInt32 := 3
  retryDelay : Duration := .ofMillis 1000
  affinity : Bool := true
  /-- how long a stopping worker may take -/
  stopGrace : Duration := .ofMillis 5000

inductive ConfigFault where
  | noWorkers
  | bounds (min max : Nat)
  | noRoom
  | thresholds (down up : Float)

namespace Config

def validate (c : Config) : Option ConfigFault :=
  if c.maxWorkers = 0 then some .noWorkers
  else if c.minWorkers > c.maxWorkers then some (.bounds c.minWorkers c.maxWorkers)
  else if c.maxQueueSize = 0 then some .noRoom
  else if c.scaleUpCpu ≤ c.scaleDownCpu then some (.thresholds c.scaleDownCpu c.scaleUpCpu)
  else none

end Config

end TaskPool
