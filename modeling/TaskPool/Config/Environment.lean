import TaskPool.Config.Basic
import TaskPool.Number.Layout
import TaskPool.Number.Literal
import TaskPool.Text.Blank
import TaskPool.Text.Quoted

/-!
# Settings from the environment

Every setting has a variable; one that is not set has its default.  Blanks around a value do not
count.

* `Config.ofEnvironment`         the settings of a pool, not yet validated
* `ServerConfig.ofEnvironment`   valid settings of a pool, and the port of the server
* `ConfigError`                  the first thing that is wrong

The variables are read in a fixed order, and the port comes after the pool has been validated.
-/

namespace TaskPool

/-- the variables that are set -/
abbrev Environment := List (String × String)

inductive ConfigError where
  | invalidValue (name raw : String) (why : LiteralError)
  | fault (why : ConfigFault)

def ConfigFault.message : ConfigFault → String
  | noWorkers => "max_workers must be at least 1"
  | bounds min max =>
    "min_workers (" ++ toString min ++ ") exceeds max_workers (" ++ toString max ++ ")"
  | noRoom => "max_queue_size must be at least 1"
  | thresholds down up =>
    "scale-down threshold (" ++ Layout.plain.text down ++ ") must be below scale-up threshold (" ++
      Layout.plain.text up ++ ")"

def ConfigError.message : ConfigError → String
  | invalidValue name raw why =>
    "invalid value for " ++ name ++ ": " ++ Quoted.text raw ++ ": " ++ why.message
  | fault why => why.message

namespace Environment

/-- the value of a variable, or a default -/
def value {α : Type} (env : Environment) (name : String)
    (read : List Char → Except LiteralError α) (default : α) : Except ConfigError α :=
  match env.lookup name with
  | none => .ok default
  | some raw =>
    match read (trim raw.toList) with
    | .ok a => .ok a
    | .error why => .error (.invalidValue name raw why)

def count (env : Environment) (name : String) (default : Nat) : Except ConfigError Nat :=
  env.value name (Literal.natural UInt64.size) default

def millis (env : Environment) (name : String) (default : Duration) :
    Except ConfigError Duration :=
  (env.value name (Literal.natural UInt64.size) default.millis).map Duration.ofMillis

def flag (env : Environment) (name : String) (default : Bool) : Except ConfigError Bool :=
  env.value name Literal.flag default

def percent (env : Environment) (name : String) (default : Float) : Except ConfigError Float :=
  env.value name Literal.double default

def retries (env : Environment) (name : String) (default : UInt32) : Except ConfigError UInt32 :=
  (env.value name (Literal.natural UInt32.size) default.toNat).map UInt32.ofNat

end Environment

def Config.ofEnvironment (env : Environment) : Except ConfigError Config := do
  let d : Config := {}
  let minWorkers ← env.count "POOL_MIN_WORKERS" d.minWorkers
  let maxWorkers ← env.count "POOL_MAX_WORKERS" d.maxWorkers
  let autoscaling ← env.flag "POOL_AUTOSCALING" d.autoscaling
  let autoscaleInterval ← env.millis "POOL_AUTOSCALE_INTERVAL_MS" d.autoscaleInterval
  let scaleUpCpu ← env.percent "POOL_SCALE_UP_CPU" d.scaleUpCpu
  let scaleDownCpu ← env.percent "POOL_SCALE_DOWN_CPU" d.scaleDownCpu
  let idleTimeout ← env.millis "POOL_IDLE_TIMEOUT_MS" d.idleTimeout
  let maxQueueSize ← env.count "POOL_MAX_QUEUE_SIZE" d.maxQueueSize
  let taskTimeout ← env.millis "POOL_TASK_TIMEOUT_MS" d.taskTimeout
  let maxRetries ← env.retries "POOL_MAX_RETRIES" d.maxRetries
  let retryDelay ← env.millis "POOL_RETRY_DELAY_MS" d.retryDelay
  let affinity ← env.flag "POOL_AFFINITY" d.affinity
  let stopGrace ← env.millis "POOL_STOP_GRACE_MS" d.stopGrace
  pure
    { minWorkers, maxWorkers, autoscaling, autoscaleInterval, scaleUpCpu, scaleDownCpu,
      idleTimeout, maxQueueSize, taskTimeout, maxRetries, retryDelay, affinity, stopGrace }

structure ServerConfig where
  port : Nat
  pool : Config

def ServerConfig.defaultPort : Nat := 8080

def ServerConfig.ofEnvironment (env : Environment) : Except ConfigError ServerConfig := do
  let pool ← Config.ofEnvironment env
  match pool.validate with
  | some why => .error (.fault why)
  | none =>
    let port ← env.value "SERVER_PORT" (Literal.natural UInt16.size) defaultPort
    pure ⟨port, pool⟩

end TaskPool
