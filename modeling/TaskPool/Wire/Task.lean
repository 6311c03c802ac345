import TaskPool.Wire.Leaf

/-!
# Tasks on the wire

* `TaskSnapshot`     a task as callers see it
* `Submission`       what a caller sends to have a task done
* `TaskResponse`     what becomes of it
* `CancelResponse`   the answer to a request to cancel a task

Each has its JSON value, and the shape of the texts that are read as one.
-/

namespace TaskPool

namespace TaskSnapshot

def json (t : TaskSnapshot) : Json :=
  .object
    [("id", t.id.json), ("task_type", t.kind.json), ("priority", t.priority.json),
      ("status", t.status.json), ("created_at", t.created.json),
      ("started_at", Wire.optional Timestamp.json t.started),
      ("completed_at", Wire.optional Timestamp.json t.completed),
      ("worker_id", Wire.optional Json.ofNat t.worker), ("retries", .ofNat t.retries.toNat),
      ("max_retries", .ofNat t.maxRetries.toNat), ("error", Wire.optional Json.string t.error)]

def shape : Shape :=
  .record "TaskSnapshot"
    [.of "id" .uuid, .of "task_type" .kind, .of "priority" .priority,
      .of "status" .status, .of "created_at" .moment,
      .of "started_at" (.optional .moment), .of "completed_at" (.optional .moment),
      .of "worker_id" (.optional .u64), .of "retries" .u32, .of "max_retries" .u32,
      .of "error" (.optional .string)]

def ofJson? (j : Json) : Option TaskSnapshot := do
  let id ← Wire.field? j "id" Uuid.ofJson?
  let kind ← Wire.field? j "task_type" Kind.ofJson?
  let priority ← Wire.field? j "priority" Priority.ofJson?
  let status ← Wire.field? j "status" Status.ofJson?
  let created ← Wire.field? j "created_at" Timestamp.ofJson?
  let started ← Wire.field? j "started_at" (Wire.optional? Timestamp.ofJson?)
  let completed ← Wire.field? j "completed_at" (Wire.optional? Timestamp.ofJson?)
  let worker ← Wire.field? j "worker_id" (Wire.optional? Json.nat?)
  let retries ← Wire.field? j "retries" Wire.u32?
  let maxRetries ← Wire.field? j "max_retries" Wire.u32?
  let error ← Wire.field? j "error" (Wire.optional? Json.string?)
  pure
    { id, kind, priority, status, created, started, completed, worker, retries, maxRetries,
      error }

end TaskSnapshot

/-! ## submissions -/

structure Submission where
  kind : Kind
  payload : Json
  options : Options

namespace Submission

def shape : Shape :=
  .record "NewTask"
    [.of "task_type" .kind, ⟨"payload", .any, some .null⟩,
      .of "priority" (.optional .priority), .of "timeout_ms" (.optional .u64),
      .of "max_retries" (.optional .u32), .of "retry_delay_ms" (.optional .u64)]

def millis? (j : Json) : Option Duration := j.nat?.map Duration.ofMillis

def ofJson? (j : Json) : Option Submission := do
  let kind ← Wire.field? j "task_type" Kind.ofJson?
  let payload ← j.get? "payload"
  let priority ← Wire.field? j "priority" (Wire.optional? Priority.ofJson?)
  let timeout ← Wire.field? j "timeout_ms" (Wire.optional? millis?)
  let maxRetries ← Wire.field? j "max_retries" (Wire.optional? Wire.u32?)
  let retryDelay ← Wire.field? j "retry_delay_ms" (Wire.optional? millis?)
  pure ⟨kind, payload, { priority, timeout, maxRetries, retryDelay }⟩

end Submission

/-! ## responses -/

structure TaskResponse where
  task : Option TaskId
  status : Status
  result : Option Json
  error : Option String

namespace TaskResponse

def json (r : TaskResponse) : Json :=
  .object
    [("task_id", Wire.optional Uuid.json r.task), ("status", r.status.json),
      ("result", Wire.optional id r.result), ("error", Wire.optional Json.string r.error)]

def shape : Shape :=
  .record "TaskResponse"
    [.of "task_id" (.optional .uuid), .of "status" .status,
      .of "result" (.optional .any), .of "error" (.optional .string)]

/-- the status that callers see of a task that failed -/
def statusOf : Failure → Status
  | .timeout _ => .timeout
  | .cancelled => .cancelled
  | _ => .failed

def ofOutcome (task : TaskId) : Outcome → TaskResponse
  | .ok value => ⟨some task, .completed, some value, none⟩
  | .error why => ⟨some task, statusOf why, none, some why.message⟩

def ofRefusal (why : Refusal) : TaskResponse := ⟨none, .failed, none, some why.message⟩

end TaskResponse

structure CancelResponse where
  task : TaskId
  outcome : CancelOutcome
  cancelled : Bool

namespace CancelResponse

def json (r : CancelResponse) : Json :=
  .object
    [("task_id", r.task.json), ("outcome", r.outcome.json), ("cancelled", .bool r.cancelled)]

def shape : Shape :=
  .record "CancelResponse"
    [.of "task_id" .uuid, .of "outcome" .cancelOutcome, .of "cancelled" .boolean]

def ofJson? (j : Json) : Option CancelResponse := do
  let task ← Wire.field? j "task_id" Uuid.ofJson?
  let outcome ← Wire.field? j "outcome" CancelOutcome.ofJson?
  let cancelled ← Wire.field? j "cancelled" Json.bool?
  pure ⟨task, outcome, cancelled⟩

end CancelResponse

end TaskPool
