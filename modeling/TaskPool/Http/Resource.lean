import TaskPool.Number.Literal
import TaskPool.Http.Message
import TaskPool.Task.Basic

/-!
# Resources

A `Resource` is what the path of a request names.

* `pathSegments`       the parts of a path; a slash at the end does not count
* `Resource.ofTarget?` the resource of a target, whose query and host are passed over
* `Resource.methods`   what can be done with it
-/

namespace TaskPool

inductive Resource where
  | submission
  | tasks
  | task (id : TaskId)
  | workers
  | stats
  | affinity (worker : WorkerId)
  | allMetrics
  | metrics (worker : WorkerId)
  | events

/-- the parts of a path between its slashes; a path that starts with none has no parts -/
def pathSegments (path : String) : List String :=
  match path.toList with
  | '/' :: cs =>
    let parts := cs.splitOn '/'
    (if parts.getLast? = some [] then parts.dropLast else parts).map String.ofList
  | _ => []

/-- a target that names the host, too, has its path behind that -/
def withoutHost (cs : List Char) : List Char :=
  match cs with
  | '/' :: _ => cs
  | _ =>
    match cs.dropWhile fun c => c != ':' with
    | ':' :: '/' :: '/' :: rest => rest.dropWhile fun c => c != '/'
    | _ => cs

/-- a target without its query and its host -/
def pathOf (target : String) : String :=
  String.ofList (withoutHost (target.toList.takeWhile fun c => c != '?' && c != '#'))

namespace Resource

def workerId? (s : String) : Option WorkerId := (Literal.natural UInt64.size s.toList).toOption

def ofSegments? : List String → Option Resource
  | ["submit"] => some submission
  | ["tasks"] => some tasks
  | ["tasks", id] => (Uuid.ofText id).toOption.map task
  | ["workers"] => some workers
  | ["stats"] => some stats
  | ["workers", "metrics"] => some allMetrics
  | ["workers", w, "affinity"] => (workerId? w).map affinity
  | ["workers", w, "metrics"] => (workerId? w).map metrics
  | ["sse"] => some events
  | _ => none

def ofTarget? (target : String) : Option Resource := ofSegments? (pathSegments (pathOf target))

def methods : Resource → List HttpMethod
  | submission => [.post]
  | tasks => [.get]
  | task _ => [.get, .delete]
  | workers => [.get]
  | stats => [.get]
  | affinity _ => [.get, .put, .delete]
  | allMetrics => [.post]
  | metrics _ => [.post]
  | events => [.get]

end Resource

end TaskPool
