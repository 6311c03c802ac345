/-!
# The meter of busy time

A `Meter` counts, in nanoseconds of a clock that never goes back, for how long a handler was
running since the last sample.

* `Meter.enter`    a handler starts
* `Meter.leave`    it ends
* `Meter.sample`   reads the busy time and the time elapsed, and starts the next window

A handler that runs across a sample is cut there: what lies before the cut belongs to the window
that ends, the rest to the next one, so no time is counted twice and none is lost.

`share` is the quotient of the two in percent, at most 100, and 0 for an empty window.
-/

namespace TaskPool

structure Meter where
  /-- busy time of this window, up to `runningSince` -/
  busy : Nat
  runningSince : Option Nat
  windowStart : Nat
  deriving DecidableEq

namespace Meter

def new (now : Nat) : Meter := ⟨0, none, now⟩

def enter (m : Meter) (now : Nat) : Meter := { m with runningSince := some now }

/-- the busy time of this window up to now -/
def busyAt (m : Meter) (now : Nat) : Nat :=
  match m.runningSince with
  | some since => m.busy + (now - since)
  | none => m.busy

def leave (m : Meter) (now : Nat) : Meter :=
  { m with
    busy := m.busyAt now
    runningSince := none }

structure Reading where
  busy : Nat
  elapsed : Nat
  deriving DecidableEq

def sample (m : Meter) (now : Nat) : Reading × Meter :=
  (⟨m.busyAt now, now - m.windowStart⟩, ⟨0, m.runningSince.map fun _ => now, now⟩)

theorem busyAt_leave (m : Meter) (now later : Nat) : (m.leave now).busyAt later = m.busyAt now := rfl

end Meter

/-- nanoseconds as seconds -/
def secondsOf (nanos : Nat) : Float :=
  Float.ofNat (nanos / 1000000000) + Float.ofNat (nanos % 1000000000) / 1000000000.0

def Meter.Reading.share (r : Meter.Reading) : Float :=
  if r.elapsed = 0 then 0.0
  else
    let percent := secondsOf r.busy / secondsOf r.elapsed * 100.0
    if percent < 100.0 then percent else 100.0

end TaskPool
