import TaskPool.Json.Value
import TaskPool.Task.Failure
import TaskPool.Task.Kind
import TaskPool.Task.Priority
import TaskPool.Task.Status
import TaskPool.Time.Timestamp
import TaskPool.Uuid

/-!
# Tasks

* `Options`        what a submission may ask for, each with a default of the pool
* `Terms`          the same with every choice made
* `Task`           an accepted task, from its submission until its outcome is delivered
* `TaskSnapshot`   what callers see of it

`Task.new` is a task that waits for its first attempt.  The timer of a task is the number of the
timer armed for the state it is in: the limit of the running attempt, or the next attempt.
-/

namespace TaskPool

abbrev TaskId := Uuid

abbrev WorkerId := Nat

abbrev TimerId := Nat

abbrev Outcome := Except Failure Json

structure Options where
  priority : Option Priority := none
  timeout : Option Duration := none
  maxRetries : Option UInt32 := none
  retryDelay : Option Duration := none

structure Terms where
  kind : Kind
  payload : Json
  priority : Priority
  timeout : Duration
  maxRetries : UInt32
  retryDelay : Duration

structure Task where
  id : TaskId
  terms : Terms
  status : Status
  created : Timestamp
  started : Option Timestamp
  completed : Option Timestamp
  worker : Option WorkerId
  result : Option Json
  error : Option String
  /-- attempts that failed and were followed by another -/
  retries : UInt32
  /-- attempts begun so far -/
  attempt : UInt32
  timer : Option TimerId

structure TaskSnapshot where
  id : TaskId
  kind : Kind
  priority : Priority
  status : Status
  created : Timestamp
  started : Option Timestamp
  completed : Option Timestamp
  worker : Option WorkerId
  retries : UInt32
  maxRetries : UInt32
  error : Option String

namespace Task

def new (id : TaskId) (terms : Terms) (now : Timestamp) : Task where
  id := id
  terms := terms
  status := .queued
  created := now
  started := none
  completed := none
  worker := none
  result := none
  error := none
  retries := 0
  attempt := 0
  timer := none

def snapshot (t : Task) : TaskSnapshot where
  id := t.id
  kind := t.terms.kind
  priority := t.terms.priority
  status := t.status
  created := t.created
  started := t.started
  completed := t.completed
  worker := t.worker
  retries := t.retries
  maxRetries := t.terms.maxRetries
  error := t.error

end Task

end TaskPool
