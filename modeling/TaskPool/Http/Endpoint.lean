import TaskPool.Http.MediaType
import TaskPool.Http.Resource
import TaskPool.Wire.Task
import TaskPool.Wire.Worker

/-!
# Routing

* `Rejection`             why a route does not take a request
* `Endpoint`              a request that a route has taken, with what it asks for
* `HttpRequest.route`     the endpoint of a request, or the response that refuses it
* `Endpoint.request`      what the pool is asked
* `Endpoint.respond`      the response to the answer of the pool
* `Endpoint.unavailable`  the response when there is no pool

Every route of a resource gives its rejection, and one of them is chosen for the response: a body
that cannot be read before a wrong method, and that before any other fault of the body.
-/

namespace TaskPool

inductive Rejection where
  | wrongMethod
  /-- it is not said how long the body is -/
  | unknownLength
  | tooLong
  /-- the body is said to be something else than JSON -/
  | wrongType
  | unreadableBody (why : String)

inductive Endpoint where
  | submit (s : Submission)
  | listTasks
  | showTask (id : TaskId)
  | cancelTask (id : TaskId)
  | listWorkers
  | stats
  | getAffinity (worker : WorkerId)
  | setAffinity (worker : WorkerId) (kinds : List Kind)
  | clearAffinity (worker : WorkerId)
  | requestAllMetrics
  | requestMetrics (worker : WorkerId)
  | events

namespace Rejection

def isWrongMethod : Rejection → Bool
  | wrongMethod => true
  | _ => false

def unreadable? : Rejection → Option String
  | unreadableBody why => some why
  | _ => none

/-- the response to a request that no route has taken -/
def respond (rs : List Rejection) : HttpResponse :=
  if rs.isEmpty then .failure 404 "not found"
  else
    match rs.findSome? unreadable? with
    | some why => .failure 400 why
    | none =>
      if rs.any isWrongMethod then .failure 405 "method not allowed"
      else .failure 500 "internal error"

end Rejection

/-! ## bodies -/

namespace HttpRequest

/-- a length that is said more than once must be the same each time -/
def length? (r : HttpRequest) : Option Nat :=
  match (r.values "content-length").map fun s => Literal.natural UInt64.size s.toList with
  | .ok n :: more => if more.all fun m => m.toOption == some n then some n else none
  | _ => none

/-- visible letters, blanks and tabs; of anything else in a header no text is made -/
def isPlain (c : Char) : Bool := c == '\t' || (decide (' ' ≤ c) && decide (c ≤ '~'))

/-- a body without a type is taken for JSON; the first type counts -/
def isJson (r : HttpRequest) : Bool :=
  match r.values "content-type" with
  | [] => true
  | s :: _ => s.toList.all isPlain && MediaType.ofText? s == some .json

def unreadable : String := "Request body deserialize error"

/-- a body of a shape, of so many bytes at the most -/
def readBody {α : Type} (r : HttpRequest) (limit : Nat) (shape : Shape) (ofJson? : Json → Option α) :
    Except Rejection α :=
  match r.length? with
  | none => .error .unknownLength
  | some n =>
    if limit < n then .error .tooLong
    else if !r.isJson then .error .wrongType
    else
      match shape.ofText r.body with
      | .error f => .error (.unreadableBody (unreadable ++ ": " ++ f.message r.body))
      | .ok j =>
        match ofJson? j with
        | some a => .ok a
        | none => .error (.unreadableBody unreadable)

end HttpRequest

namespace Endpoint

/-- the greatest body of a submission, in bytes -/
def submissionLimit : Nat := 65536

/-- the greatest body of a list of kinds, in bytes -/
def affinityLimit : Nat := 4096

def kindsOfBody (r : HttpRequest) : Except Rejection (List Kind) :=
  r.readBody affinityLimit (.list .kind) (Wire.list? Kind.ofJson?)

/-- the endpoint of a resource for one of its methods -/
def ofResource (r : HttpRequest) : Resource → HttpMethod → Except Rejection Endpoint
  | .submission, _ => (r.readBody submissionLimit Submission.shape Submission.ofJson?).map submit
  | .tasks, _ => .ok listTasks
  | .task id, .delete => .ok (cancelTask id)
  | .task id, _ => .ok (showTask id)
  | .workers, _ => .ok listWorkers
  | .stats, _ => .ok stats
  | .affinity w, .put => (kindsOfBody r).map (setAffinity w)
  | .affinity w, .delete => .ok (clearAffinity w)
  | .affinity w, _ => .ok (getAffinity w)
  | .allMetrics, _ => .ok requestAllMetrics
  | .metrics w, _ => .ok (requestMetrics w)
  | .events, _ => .ok events

/-- one route: it takes requests of one method -/
def ofRoute (r : HttpRequest) (resource : Resource) (m : HttpMethod) : Except Rejection Endpoint :=
  if r.method = m then ofResource r resource m else .error .wrongMethod

end Endpoint

/-- the first endpoint of a list of routes, or the rejections of all of them -/
def firstEndpoint : List (Except Rejection Endpoint) → Except (List Rejection) Endpoint
  | [] => .error []
  | .ok e :: _ => .ok e
  | .error why :: rest => (firstEndpoint rest).mapError (why :: ·)

def HttpRequest.route (r : HttpRequest) : Except HttpResponse Endpoint :=
  let routes :=
    match Resource.ofTarget? r.target with
    | none => []
    | some resource => resource.methods.map (Endpoint.ofRoute r resource)
  (firstEndpoint routes).mapError Rejection.respond

/-! ## the pool's part -/

namespace Endpoint

/-- a submission gets the identifier at hand if it is accepted; events ask again and again -/
def request (fresh : TaskId) : Endpoint → Option Request
  | submit s => some (.submit fresh s.kind s.payload s.options)
  | listTasks => some .statuses
  | showTask id => some (.status id)
  | cancelTask id => some (.cancel id)
  | listWorkers => some .workers
  | stats => some .stats
  | getAffinity w => some (.getAffinity w)
  | setAffinity w kinds => some (.setAffinity w (KindSet.ofList kinds))
  | clearAffinity w => some (.clearAffinity w)
  | requestAllMetrics => some (.requestMetrics none)
  | requestMetrics w => some (.requestMetrics (some w))
  | events => none

def noWorker (w : WorkerId) : HttpResponse :=
  .failure 404 ("worker " ++ toString w ++ " not found")

def noTask (id : TaskId) : HttpResponse := .failure 404 ("task " ++ id.text ++ " is not active")

/-- a submission that is refused: it may be tried again when there is room -/
def refusal (why : Refusal) : HttpResponse :=
  .json (match why with | .queueFull _ => 429 | _ => 503) (TaskResponse.ofRefusal why).json

def respond (e : Endpoint) (a : Answer) : HttpResponse :=
  match e, a with
  | submit _, .refused why => refusal why
  | showTask _, .task (some t) => .json 200 t.json
  | showTask id, .task none => noTask id
  | cancelTask id, .cancelled outcome =>
    .json 200 (CancelResponse.mk id outcome (outcome == .cancelled)).json
  | getAffinity w, .affinity kinds => .json 200 (AffinityResponse.mk w kinds).json
  | setAffinity w kinds, .found true =>
    .json 200 (AffinityResponse.mk w (some (Kind.distinct kinds))).json
  | setAffinity w _, .found false => noWorker w
  | clearAffinity w, .found true => .json 200 (AffinityResponse.mk w none).json
  | clearAffinity w, .found false => noWorker w
  | requestMetrics w, .asked n =>
    if 0 < n then .json 200 (MetricsRequested.mk 1).json else noWorker w
  | _, .tasks ts => .json 200 (.array (ts.map TaskSnapshot.json))
  | _, .workers ws => .json 200 (.array (ws.map WorkerSnapshot.json))
  | _, .stats s => .json 200 s.json
  | _, .asked n => .json 200 (MetricsRequested.mk n).json
  | _, _ => .failure 500 "internal error"

/-- the response to a submission whose task is over -/
def conclude (id : TaskId) (o : Outcome) : HttpResponse :=
  .json 200 (TaskResponse.ofOutcome id o).json

def unavailable : Endpoint → HttpResponse
  | submit _ => refusal .unavailable
  | _ => .failure 503 unavailableText

/-- what a stream of counters sends -/
def statsEvent (s : Stats) : String := eventText "stats" s.json

end Endpoint

end TaskPool
