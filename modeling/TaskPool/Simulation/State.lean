import TaskPool.Handler.Table
import TaskPool.Pool.Step

/-!
# A pool with its workers, timers and clock

`World` is everything that moves: the pool, the workers behind its roster, the timers that are
armed, the gates that scripted handlers wait at, and the callers that wait for an answer.  Time
is a number of milliseconds that only `advance` moves (`Simulation.Run`); the calendar shows it
with the microseconds of the operations done so far on top.

* `Actor`    what can run; an actor that has something to do stands once in `ready`, and the
             actors run in the order in which they got there
* `Seat`     a worker together with the handler it runs; workers are numbered by their seats
* `Alarms`   timers of the pool: `fresh` until they run for the first time, then `armed`, then
             `rung` until they have sent their message
* `Sleep`    a deadline and who is woken then; sleeps with one deadline end in the order in which
             they began

What the outside sees of a world is `out`, `log` (the starts of handlers), and, where no pool
takes the messages, `inbox`.
-/

namespace TaskPool

inductive Actor where
  | pool
  | worker (seat : Nat)
  | watcher (seat : Nat)
  | timer (id : TimerId)
  | stream (caller : CallId)
  deriving DecidableEq

/-- what a running handler waits for -/
inductive Hold where
  | nothing
  | until (deadline : Nat)
  | gate (name : String) (granted : Bool)
  deriving DecidableEq

structure Job where
  task : TaskId
  actions : List Action
  hold : Hold

structure Seat where
  worker : Worker
  job : Option Job
  /-- the worker is aborted when it runs next -/
  doomed : Bool
  /-- the watcher has reported the end -/
  reported : Bool

inductive Sleeper where
  | worker (seat : Nat)
  | timer (id : TimerId)
  | stream (caller : CallId)
  deriving DecidableEq

structure Sleep where
  deadline : Nat
  sleeper : Sleeper

inductive TimerPhase where
  | fresh
  | armed (deadline : Nat)
  | rung (deadline : Nat)

structure PoolTimer where
  id : TimerId
  delay : Nat
  repeats : Bool
  alarm : Alarm
  phase : TimerPhase

structure Gate where
  name : String
  permits : Nat
  line : List Nat

/-- a caller that has not got its last answer; one that `stays` waits for its task as well -/
structure Caller where
  id : CallId
  stays : Bool
  task : Option TaskId

/-- a subscriber to the counters of the pool -/
structure Stream where
  caller : CallId
  /-- a question is under way -/
  asking : Bool
  ended : Bool

inductive Output where
  | answered (caller : CallId) (answer : Answer)
  | unavailable (caller : CallId)
  | settled (task : TaskId) (outcome : Outcome)
  | counters (caller : CallId) (stats : Stats)
  | closed (caller : CallId)

structure Start where
  task : TaskId
  worker : WorkerId
  kind : Kind
  run : Nat

structure World where
  clock : Nat
  micros : Nat
  ready : List Actor
  sleeps : List Sleep
  timers : List PoolTimer
  seats : Array Seat
  gates : List Gate
  runs : List (TaskId × Nat)
  handlers : HandlerTable
  inbox : List Message
  /-- messages find a reader -/
  listening : Bool
  pool : Option Pool
  /-- somebody outside holds on to the pool -/
  held : Bool
  callers : List Caller
  streams : List Stream
  log : List Start
  out : List Output

namespace World

/-- 2024-01-01T00:00:00Z -/
def epoch : Timestamp := ⟨1704067200, 0⟩

/-- bytes of memory that the process is said to use -/
def memory : Nat := 16777216

def new (handlers : HandlerTable) (pool : Option Pool) : World where
  clock := 0
  micros := 0
  ready := []
  sleeps := []
  timers := []
  seats := #[]
  gates := []
  runs := []
  handlers := handlers
  inbox := []
  listening := true
  pool := pool
  held := pool.isSome
  callers := []
  streams := []
  log := []
  out := []

/-- the calendar time -/
def now (w : World) : Timestamp := epoch.addMicros (w.clock * 1000 + w.micros)

/-- the clock in nanoseconds -/
def nanos (w : World) : Nat := w.clock * 1000000

def tick (w : World) : World := { w with micros := w.micros + 1 }

def wake (w : World) (a : Actor) : World :=
  if a ∈ w.ready then w else { w with ready := w.ready ++ [a] }

def emit (w : World) (o : Output) : World := { w with out := w.out ++ [o] }

/-- a message to the pool, or to whoever listens in its place -/
def post (w : World) (m : Message) : World :=
  if w.listening then
    let w := { w with inbox := w.inbox ++ [m] }
    if w.pool.isSome then w.wake .pool else w
  else w

def postEvents (w : World) (worker : WorkerId) (events : List Event) : World :=
  events.foldl (fun w e => w.post (.report worker e)) w

def sleep (w : World) (deadline : Nat) (sleeper : Sleeper) : World :=
  { w with sleeps := w.sleeps ++ [⟨deadline, sleeper⟩] }

def cancelSleep (w : World) (sleeper : Sleeper) : World :=
  { w with sleeps := w.sleeps.filter fun s => s.sleeper != sleeper }

def modifySeat (w : World) (seat : Nat) (f : Seat → Seat) : World :=
  { w with seats := w.seats.modify seat f }

/-- a new worker, which runs when its turn comes, and its watcher -/
def hire (w : World) (worker : WorkerId) : World :=
  let seat := w.seats.size
  let w :=
    { w with
      seats := w.seats.push
        { worker := .new worker w.nanos
          job := none
          doomed := false
          reported := false } }
  (w.wake (.worker seat)).wake (.watcher seat)

/-- the seat of the worker hired last under a number -/
def seatOf? (w : World) (worker : WorkerId) : Option Nat :=
  (List.range w.seats.size).reverse.find? fun i =>
    match w.seats[i]? with
    | some s => s.worker.id == worker
    | none => false

/-- false when the worker takes no commands any more -/
def send (w : World) (seat : Nat) (c : Command) : Bool × World :=
  match w.seats[seat]? with
  | none => (false, w)
  | some s =>
    if s.worker.isReachable then
      (true, (w.modifySeat seat fun s => { s with worker := s.worker.send c }).wake (.worker seat))
    else (false, w)

def abort (w : World) (seat : Nat) : World :=
  match w.seats[seat]? with
  | none => w
  | some s =>
    if s.worker.hasEnded then w
    else (w.modifySeat seat fun s => { s with doomed := true }).wake (.worker seat)

def detach (w : World) (seat : Nat) : World :=
  (w.modifySeat seat fun s => { s with worker := s.worker.detach }).wake (.worker seat)

/-- the workers that take no commands any more -/
def gone (w : World) : List WorkerId :=
  (w.seats.toList.filter fun s => !s.worker.isReachable).map fun s => s.worker.id

/-- somebody can still send to the pool -/
def attached (w : World) : Bool :=
  w.held || !w.callers.isEmpty || w.streams.any (fun s => !s.ended) || !w.timers.isEmpty ||
    w.seats.any fun s => !s.worker.hasEnded || !s.reported

def moment (w : World) : Moment := ⟨w.now, w.gone, w.attached⟩

/-! ## gates -/

def findGate (w : World) (name : String) : Gate :=
  (w.gates.find? fun g => g.name == name).getD ⟨name, 0, []⟩

def putGate (w : World) (g : Gate) : World :=
  { w with gates := g :: w.gates.filter fun h => h.name != g.name }

def setHold (w : World) (seat : Nat) (hold : Hold) : World :=
  w.modifySeat seat fun s => { s with job := s.job.map fun j => { j with hold := hold } }

/-- one more permit; it goes to the handler that waits longest -/
def release (w : World) (name : String) : World :=
  let g := w.findGate name
  match g.line with
  | [] => w.putGate { g with permits := g.permits + 1 }
  | seat :: rest =>
    ((w.putGate { g with line := rest }).setHold seat (.gate name true)).wake (.worker seat)

/-- what a handler that is cut short was waiting for becomes free -/
def leaveHold (w : World) (seat : Nat) : Hold → World
  | .nothing => w
  | .until _ => w.cancelSleep (.worker seat)
  | .gate name true => w.release name
  | .gate name false =>
    let g := w.findGate name
    w.putGate { g with line := g.line.filter (· != seat) }

end World

end TaskPool
