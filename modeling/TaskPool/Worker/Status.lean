/-!
# Worker statuses

What the pool believes a worker to be doing.  A worker is live (`isLive`) until it is asked to
stop or is known to have crashed.
-/

namespace TaskPool

inductive WorkerStatus where
  | starting
  | idle
  | busy
  | stopping
  | crashed
  deriving DecidableEq, Inhabited

namespace WorkerStatus

def all : List WorkerStatus := [starting, idle, busy, stopping, crashed]

def name : WorkerStatus → String
  | starting => "starting"
  | idle => "idle"
  | busy => "busy"
  | stopping => "stopping"
  | crashed => "crashed"

def rank : WorkerStatus → Nat
  | starting => 0
  | idle => 1
  | busy => 2
  | stopping => 3
  | crashed => 4

def isLive : WorkerStatus → Bool
  | stopping | crashed => false
  | starting | idle | busy => true

def ofName? (s : String) : Option WorkerStatus := all.find? fun t => t.name == s

theorem ofName?_name (t : WorkerStatus) : ofName? t.name = some t := by cases t <;> decide

end WorkerStatus

end TaskPool
