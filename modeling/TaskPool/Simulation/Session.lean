import TaskPool.Http.Endpoint
import TaskPool.Simulation.Run

/-!
# Callers

A `Session` is a world together with what its callers have asked for and not yet been told.

* `Purpose`           how a caller reads the answer of the pool, and whether it waits for the
                      outcome of a task besides
* `Reply`             what a caller is told
* `Notice`            what is heard outside: replies, outcomes of tasks that somebody waits for,
                      and what the streams of counters send
* `Session.ask`, `Session.send`   a request, a request over HTTP
* `Session.collect`   what is heard since the last time
-/

namespace TaskPool

inductive Purpose where
  | plain
  | submit
  /-- submit a task and wait until it is over -/
  | runTask
  /-- whether the task was cancelled by this -/
  | cancelTask
  /-- whether the worker was asked for its metrics -/
  | askWorker
  | http (e : Endpoint)

inductive Reply where
  | answer (a : Answer)
  | outcome (o : Outcome)
  | whether (holds : Bool)
  | response (r : HttpResponse)
  | unavailable

namespace Purpose

/-- the caller holds on to the pool until the task it submits is over -/
def stays : Purpose → Bool
  | runTask | http (.submit _) => true
  | _ => false

/-- what the caller is told of an answer; nothing yet when it waits for the outcome of the task -/
def reply? : Purpose → Answer → Option Reply
  | runTask, .accepted _ => none
  | http _, .accepted _ => none
  | runTask, .refused why => some (.outcome (.error (.rejected why)))
  | http e, a => some (.response (e.respond a))
  | cancelTask, .cancelled o => some (.whether (o == .cancelled))
  | askWorker, .asked n => some (.whether (decide (0 < n)))
  | _, a => some (.answer a)

def conclude (id : TaskId) (o : Outcome) : Purpose → Reply
  | http _ => .response (Endpoint.conclude id o)
  | _ => .outcome o

/-- what the caller is told without a pool -/
def unavailable : Purpose → Reply
  | submit => .answer (.refused .unavailable)
  | runTask => .outcome (.error (.rejected .unavailable))
  | cancelTask => .whether false
  | http e => .response e.unavailable
  | plain | askWorker => .unavailable

end Purpose

inductive Notice where
  | replied (caller : CallId) (r : Reply)
  | settled (task : TaskId) (o : Outcome)
  | counters (caller : CallId) (s : Stats)
  | closed (caller : CallId)

structure Session where
  world : World
  /-- the number of tasks accepted so far -/
  accepted : Nat
  purposes : List (CallId × Purpose)
  /-- whose outcome is waited for: by a caller, or by whoever holds the task -/
  waiting : List (TaskId × Option CallId)

namespace Session

def new (w : World) : Session := ⟨w, 0, [], []⟩

def purpose (s : Session) (caller : CallId) : Purpose := (s.purposes.lookup caller).getD .plain

def ask (s : Session) (caller : CallId) (p : Purpose) (q : Request) : Session :=
  { s with
    purposes := s.purposes ++ [(caller, p)]
    world := s.world.call caller p.stays q }

/-- a request over HTTP: the response if it is refused at once, or opens a stream -/
def send (s : Session) (caller : CallId) (fresh : TaskId) (r : HttpRequest) :
    Option HttpResponse × Session :=
  match r.route with
  | .error refusal => (some refusal, s)
  | .ok e =>
    match e.request fresh with
    | some q => (none, s.ask caller (.http e) q)
    | none => (some .events, { s with world := s.world.subscribe caller })

/-- nobody holds the task any more -/
def forget (s : Session) (id : TaskId) : Session :=
  { s with
    waiting := s.waiting.filter fun w => !(w.1 == id && w.2.isNone) }

/-- the pool vanishes; what was waited for never comes -/
def destroy (s : Session) : Session :=
  { s with
    waiting := []
    world := s.world.destroy }

def accept (s : Session) (id : TaskId) (holder : Option CallId) : Session :=
  { s with
    accepted := s.accepted + 1
    waiting := s.waiting ++ [(id, holder)] }

def takeAnswer (s : Session) (caller : CallId) (a : Answer) : Session × List Notice :=
  let reply := (s.purpose caller).reply? a
  let s :=
    match a with
    | .accepted id => s.accept id (if reply.isNone then some caller else none)
    | _ => s
  (s, (reply.map (Notice.replied caller)).toList)

def takeOutcome (s : Session) (id : TaskId) (o : Outcome) : Session × List Notice :=
  match s.waiting.lookup id with
  | none => (s, [])
  | some holder =>
    let notice : Notice :=
      match holder with
      | some caller => .replied caller ((s.purpose caller).conclude id o)
      | none => .settled id o
    ({ s with waiting := s.waiting.filter fun w => w.1 != id }, [notice])

def take (s : Session) : Output → Session × List Notice
  | .answered caller a => s.takeAnswer caller a
  | .unavailable caller => (s, [.replied caller (s.purpose caller).unavailable])
  | .settled id o => s.takeOutcome id o
  | .counters caller stats => (s, [.counters caller stats])
  | .closed caller => (s, [.closed caller])

def takeAll (s : Session) : List Output → Session × List Notice
  | [] => (s, [])
  | o :: os =>
    let (s, notices) := s.take o
    let (s, more) := takeAll s os
    (s, notices ++ more)

def collect (s : Session) : Session × List Notice :=
  takeAll { s with world := { s.world with out := [] } } s.world.out

end Session

end TaskPool
