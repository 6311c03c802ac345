import TaskPool.Config.Basic
import TaskPool.Task.Basic
import TaskPool.Worker.Status

/-!
# Scaling

* `Load`        what is known of one live worker
* `Gauge`       all of them, and how many tasks wait
* `Signals`     the three numbers that decide: average busy share, fill of the queue, share of
                idle workers
* `Gauge.plan`  how many workers to add, or which to stop, and which idle ones to let go

A pool grows by a fifth and shrinks by a tenth of its size, rounded up, within its bounds.  The
workers to stop are the idle ones that have waited longest.  Beyond that, an idle worker that has
waited longer than the idle timeout goes, as long as the minimum remains.
-/

namespace TaskPool

structure Load where
  worker : WorkerId
  status : WorkerStatus
  cpu : Option Float
  lastActivity : Timestamp

structure Gauge where
  loads : List Load
  queued : Nat

structure Signals where
  averageCpu : Float
  queuePressure : Float
  idleRatio : Float

inductive Decision where
  | up (count : Nat)
  | down (workers : List WorkerId)
  | hold
  deriving DecidableEq

structure Plan where
  signals : Signals
  decision : Decision
  evict : List WorkerId

def growPressure : Float := 0.7

def shrinkPressure : Float := 0.3

def shrinkIdleRatio : Float := 0.5

/-- a sum that leaves a list of negative zeros at negative zero -/
def sumFloats (xs : List Float) : Float := xs.foldl (· + ·) (-0.0)

def ratio (n d : Nat) : Float := if d = 0 then 0.0 else Float.ofNat n / Float.ofNat d

/-- the number of 64 bits with the same low bits, read with a sign -/
def signed64 (n : Nat) : Int := Int.bmod n UInt64.size

/-- the workers that a decision stops -/
def Decision.stopped : Decision → List WorkerId
  | .down ids => ids
  | _ => []

namespace Load

def isIdle (l : Load) : Bool := l.status == .idle

/-- longest idle first, then by worker number -/
def older (a b : Load) : Bool :=
  a.lastActivity.lt b.lastActivity ||
    (a.lastActivity == b.lastActivity && decide (a.worker ≤ b.worker))

end Load

namespace Gauge

def size (g : Gauge) : Nat := g.loads.length

def signals (g : Gauge) (maxQueueSize : Nat) : Signals where
  averageCpu :=
    let reported := g.loads.filterMap Load.cpu
    if reported.isEmpty then 0.0 else sumFloats reported / Float.ofNat reported.length
  queuePressure := ratio g.queued maxQueueSize
  idleRatio := ratio (g.loads.countP Load.isIdle) g.size

def idleByAge (g : Gauge) : List Load := (g.loads.filter Load.isIdle).mergeSort Load.older

def wantsUp (c : Config) (s : Signals) : Bool :=
  decide (c.scaleUpCpu < s.averageCpu) || decide (growPressure < s.queuePressure)

def wantsDown (c : Config) (s : Signals) : Bool :=
  decide (s.averageCpu < c.scaleDownCpu) && decide (s.queuePressure < shrinkPressure) &&
    decide (shrinkIdleRatio < s.idleRatio)

/-- a fifth of the size, rounded up, and at least one -/
def growth (size : Nat) : Nat := max 1 ((size + 4) / 5)

/-- a tenth of the size, rounded up -/
def shrinkage (size : Nat) : Nat := (size + 9) / 10

def decision (g : Gauge) (c : Config) (s : Signals) : Decision :=
  if wantsUp c s ∧ g.size < c.maxWorkers then
    .up (min (growth g.size) (c.maxWorkers - g.size))
  else if wantsDown c s ∧ c.minWorkers < g.size then
    match (g.idleByAge.take (min (shrinkage g.size) (g.size - c.minWorkers))).map Load.worker with
    | [] => .hold
    | chosen => .down chosen
  else .hold

/-- an idle worker has waited longer than the timeout, in whole milliseconds -/
def overdue (c : Config) (now : Timestamp) (l : Load) : Bool :=
  decide (signed64 c.idleTimeout.millis < now.millisSince l.lastActivity)

/-- the overdue workers of a list, as long as more than the minimum remain -/
def evictions (c : Config) (now : Timestamp) (stopping : List WorkerId) :
    Nat → List Load → List WorkerId
  | _, [] => []
  | remaining, l :: rest =>
    if remaining ≤ c.minWorkers then []
    else if stopping.contains l.worker then evictions c now stopping remaining rest
    else if overdue c now l then l.worker :: evictions c now stopping (remaining - 1) rest
    else evictions c now stopping remaining rest

def sizeAfter (g : Gauge) : Decision → Nat
  | .up n => g.size + n
  | .down ids => g.size - ids.length
  | .hold => g.size

def plan (g : Gauge) (c : Config) (now : Timestamp) : Plan :=
  let signals := g.signals c.maxQueueSize
  let decision := g.decision c signals
  { signals := signals
    decision := decision
    evict := evictions c now decision.stopped (g.sizeAfter decision) g.idleByAge }

end Gauge

end TaskPool
