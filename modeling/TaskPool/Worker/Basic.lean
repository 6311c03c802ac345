import TaskPool.Worker.Message
import TaskPool.Worker.Meter

/-!
# A worker

A worker takes commands one at a time and runs one handler at a time.

* `Worker.send`     a command arrives
* `Worker.step`     the next thing the worker does by itself: announce that it is ready, take a
                    command, or hear one while a handler runs
* `Worker.finish`   the running handler ends
* `Worker.abort`    the worker is ended from outside
* `Ending.events`   what the watcher of a worker reports once it has ended

A request for metrics is answered at once, also while a handler runs; any other command that
comes while a handler runs is put off (`deferred`) and taken, in order, before later ones.  A
worker ends when it takes `terminate`, when no command is left and none can come any more, when
a handler panics, or when it is aborted.

`Worker.weight` counts what a worker can still do without being sent anything.
-/

namespace TaskPool

/-- how a handler ends: a failure has a chain of causes, a panic may come without a text -/
inductive Ended where
  | value (v : Json)
  | error (causes : List String)
  | panic (detail : Option String)

/-- a chain of causes in one line -/
def causeLine (causes : List String) : String := String.intercalate ": " causes

/-- the detail of a panic that comes without a text -/
def unknownPanic : String := "worker runtime panicked"

inductive Ending where
  | stopped
  | aborted
  | panicked (detail : String)
  deriving DecidableEq

inductive Phase where
  | unstarted
  | waiting
  | running (task : TaskId)
  | ended (how : Ending)
  deriving DecidableEq

structure Worker where
  id : WorkerId
  phase : Phase
  /-- commands sent and not yet taken -/
  inbox : List Command
  /-- more commands can come -/
  attached : Bool
  deferred : List Command
  processed : Nat
  failed : Nat
  meter : Meter

def Ending.events : Ending → List Event
  | stopped => [.exited true]
  | aborted => [.exited false]
  | panicked detail => [.fatal detail, .exited false]

def Phase.weight : Phase → Nat
  | .unstarted => 2
  | .waiting => 1
  | .running _ => 2
  | .ended _ => 0

namespace Worker

def new (id : WorkerId) (now : Nat) : Worker where
  id := id
  phase := .unstarted
  inbox := []
  attached := true
  deferred := []
  processed := 0
  failed := 0
  meter := .new now

def hasEnded (w : Worker) : Bool :=
  match w.phase with
  | .ended _ => true
  | _ => false

/-- a command can still be sent -/
def isReachable (w : Worker) : Bool := !w.hasEnded && w.attached

def send (w : Worker) (c : Command) : Worker := { w with inbox := w.inbox ++ [c] }

/-- nobody holds the worker any more, so no further command can come -/
def detach (w : Worker) : Worker := { w with attached := false }

/-- an ended worker forgets the commands it has not taken -/
def endWith (w : Worker) (how : Ending) : Worker :=
  { w with
    phase := .ended how
    inbox := []
    deferred := [] }

def abort (w : Worker) : Worker := if w.hasEnded then w else w.endWith .aborted

def reportMetrics (w : Worker) (now memory : Nat) : Worker × List Event :=
  let (reading, meter) := w.meter.sample now
  ({ w with meter := meter },
    [.metrics ⟨reading.share, memory, w.processed, w.failed⟩])

/-- what a waiting worker does with a command -/
def obey (w : Worker) (now memory : Nat) : Command → Worker × List Event
  | .task id _ _ =>
    ({ w with
        phase := .running id
        meter := w.meter.enter now },
      [.busy id])
  | .reportMetrics => w.reportMetrics now memory
  | .terminate => (w.endWith .stopped, [])

/-- what a worker does with a command that comes while a handler runs -/
def overhear (w : Worker) (now memory : Nat) : Command → Worker × List Event
  | .reportMetrics => w.reportMetrics now memory
  | c => ({ w with deferred := w.deferred ++ [c] }, [])

def step (w : Worker) (now memory : Nat) : Option (Worker × List Event) :=
  match w.phase with
  | .unstarted => some ({ w with phase := .waiting }, [.ready])
  | .waiting =>
    match w.deferred, w.inbox with
    | c :: rest, _ => some ({ w with deferred := rest }.obey now memory c)
    | [], c :: rest => some ({ w with inbox := rest }.obey now memory c)
    | [], [] => if w.attached then none else some (w.endWith .stopped, [])
  | .running _ =>
    match w.inbox with
    | c :: rest => some ({ w with inbox := rest }.overhear now memory c)
    | [] => none
  | .ended _ => none

/-- the command that a waiting worker takes next -/
def next? (w : Worker) : Option Command :=
  match w.phase with
  | .waiting => (w.deferred ++ w.inbox).head?
  | _ => none

def finish (w : Worker) (now : Nat) (r : Ended) : Worker × List Event :=
  match w.phase with
  | .running task =>
    match r with
    | .value v =>
      ({ w with
          phase := .waiting
          meter := w.meter.leave now
          processed := w.processed + 1 },
        [.result task v, .idle])
    | .error causes =>
      ({ w with
          phase := .waiting
          meter := w.meter.leave now
          failed := w.failed + 1 },
        [.error task (causeLine causes), .idle])
    | .panic detail => (w.endWith (.panicked (detail.getD unknownPanic)), [])
  | _ => (w, [])

def weight (w : Worker) : Nat :=
  3 * w.inbox.length + 2 * w.deferred.length + w.phase.weight

theorem step_of_ended {w : Worker} {how : Ending} (h : w.phase = .ended how) (now memory : Nat) :
    w.step now memory = none := by
  simp [step, h]

end Worker

end TaskPool
