import TaskPool.Pool.Message
import TaskPool.Wire.Leaf

/-!
# Workers and counters on the wire

* `WorkerSnapshot`     a worker as callers see it
* `Metrics`            what a worker reports about itself
* `Stats`              the counters of the pool
* `AffinityResponse`   the kinds of task that a worker prefers
* `MetricsRequested`   how many workers were asked for a report
-/

namespace TaskPool

def kindsJson (ks : List Kind) : Json := .array (ks.map Kind.json)

namespace WorkerSnapshot

def json (w : WorkerSnapshot) : Json :=
  .object
    [("id", .ofNat w.id), ("status", w.status.json),
      ("current_task_id", Wire.optional Uuid.json w.task), ("created_at", w.created.json),
      ("last_activity", w.lastActivity.json), ("tasks_processed", .ofNat w.processed),
      ("tasks_failed", .ofNat w.failed), ("affinity", Wire.optional kindsJson w.affinity),
      ("cpu_usage", Wire.optional Json.ofFloat w.cpu),
      ("memory_usage", Wire.optional Json.ofNat w.memory)]

def shape : Shape :=
  .record "WorkerSnapshot"
    [.of "id" .u64, .of "status" .workerStatus, .of "current_task_id" (.optional .uuid),
      .of "created_at" .moment, .of "last_activity" .moment,
      .of "tasks_processed" .u64, .of "tasks_failed" .u64,
      .of "affinity" (.optional (.list .kind)), .of "cpu_usage" (.optional .double),
      .of "memory_usage" (.optional .u64)]

def ofJson? (j : Json) : Option WorkerSnapshot := do
  let id ← Wire.field? j "id" Json.nat?
  let status ← Wire.field? j "status" WorkerStatus.ofJson?
  let task ← Wire.field? j "current_task_id" (Wire.optional? Uuid.ofJson?)
  let created ← Wire.field? j "created_at" Timestamp.ofJson?
  let lastActivity ← Wire.field? j "last_activity" Timestamp.ofJson?
  let processed ← Wire.field? j "tasks_processed" Json.nat?
  let failed ← Wire.field? j "tasks_failed" Json.nat?
  let affinity ← Wire.field? j "affinity" (Wire.optional? (Wire.list? Kind.ofJson?))
  let cpu ← Wire.field? j "cpu_usage" (Wire.optional? Wire.float?)
  let memory ← Wire.field? j "memory_usage" (Wire.optional? Json.nat?)
  pure
    { id, status, task, created, lastActivity, processed, failed, affinity, cpu, memory }

end WorkerSnapshot

namespace Metrics

def json (m : Metrics) : Json :=
  .object
    [("cpu", .ofFloat m.cpu), ("memory", .ofNat m.memory), ("processed", .ofNat m.processed),
      ("failed", .ofNat m.failed)]

def shape : Shape :=
  .record "WorkerMetrics"
    [.of "cpu" .double, .of "memory" .u64, .of "processed" .u64, .of "failed" .u64]

end Metrics

namespace Stats

def countJson {α : Type} (name : α → String) (c : α × Nat) : String × Json :=
  (name c.1, .ofNat c.2)

def json (s : Stats) : Json :=
  .object
    [("running", .bool s.running), ("worker_count", .ofNat s.workerCount),
      ("idle_workers", .ofNat s.idleWorkers), ("busy_workers", .ofNat s.busyWorkers),
      ("queued_tasks", .ofNat s.queuedTasks), ("active_tasks", .ofNat s.activeTasks),
      ("tasks_by_type", .object (s.tasksByKind.map (countJson Kind.name))),
      ("tasks_by_status", .object (s.tasksByStatus.map (countJson Status.name)))]

def shape : Shape :=
  .record "PoolStats"
    [.of "running" .boolean, .of "worker_count" .size, .of "idle_workers" .size,
      .of "busy_workers" .size, .of "queued_tasks" .size, .of "active_tasks" .size,
      .of "tasks_by_type" (.table (Kind.all.map Kind.name) .size),
      .of "tasks_by_status" (.table (Status.all.map Status.name) .size)]

def counts? {α : Type} (ofName? : String → Option α) : Json → Option (List (α × Nat))
  | .object members => members.mapM fun m => do pure (← ofName? m.1, ← m.2.nat?)
  | _ => none

def ofJson? (j : Json) : Option Stats := do
  let running ← Wire.field? j "running" Json.bool?
  let workerCount ← Wire.field? j "worker_count" Json.nat?
  let idleWorkers ← Wire.field? j "idle_workers" Json.nat?
  let busyWorkers ← Wire.field? j "busy_workers" Json.nat?
  let queuedTasks ← Wire.field? j "queued_tasks" Json.nat?
  let activeTasks ← Wire.field? j "active_tasks" Json.nat?
  let tasksByKind ← Wire.field? j "tasks_by_type" (counts? Kind.ofName?)
  let tasksByStatus ← Wire.field? j "tasks_by_status" (counts? Status.ofName?)
  pure
    { running, workerCount, idleWorkers, busyWorkers, queuedTasks, activeTasks, tasksByKind,
      tasksByStatus }

end Stats

structure AffinityResponse where
  worker : WorkerId
  affinity : Option (List Kind)

namespace AffinityResponse

def json (r : AffinityResponse) : Json :=
  .object
    [("worker_id", .ofNat r.worker), ("affinity", Wire.optional kindsJson r.affinity)]

def shape : Shape :=
  .record "AffinityResponse"
    [.of "worker_id" .u64, .of "affinity" (.optional (.list .kind))]

def ofJson? (j : Json) : Option AffinityResponse := do
  let worker ← Wire.field? j "worker_id" Json.nat?
  let affinity ← Wire.field? j "affinity" (Wire.optional? (Wire.list? Kind.ofJson?))
  pure ⟨worker, affinity⟩

end AffinityResponse

structure MetricsRequested where
  asked : Nat

namespace MetricsRequested

def json (r : MetricsRequested) : Json := .object [("workers_asked", .ofNat r.asked)]

def shape : Shape := .record "MetricsRequested" [.of "workers_asked" .size]

end MetricsRequested

end TaskPool
