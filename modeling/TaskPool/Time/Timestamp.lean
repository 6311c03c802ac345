/-!
# Points in time

A `Timestamp` is a count of seconds since 1970-01-01T00:00:00Z and a count of nanoseconds inside
that second.  The nanoseconds reach past one second only inside a leap second, which is kept as
the second `:59` with more than 10⁹ nanoseconds.

* `Timestamp.le`            the order of time
* `Timestamp.nanosSince`    the signed distance of two points; a leap second at one of them counts
                            if the other is at a time of day on its far side
* `Timestamp.millisSince`   the same in whole milliseconds, rounded towards zero
* `Timestamp.addMicros`     a point moved forward
-/

namespace TaskPool

structure Timestamp where
  seconds : Int
  nanos : Nat
  deriving DecidableEq, Inhabited

namespace Timestamp

def lt (a b : Timestamp) : Bool :=
  decide (a.seconds < b.seconds) || (a.seconds == b.seconds && decide (a.nanos < b.nanos))

def le (a b : Timestamp) : Bool := !b.lt a

def totalNanos (t : Timestamp) : Int := t.seconds * 1000000000 + t.nanos

def isLeap (t : Timestamp) : Bool := decide (1000000000 ≤ t.nanos)

def secondOfDay (t : Timestamp) : Int := t.seconds % 86400

/-- the leap second that the times of day of two points have between them -/
def leapNanos (later earlier : Timestamp) : Int :=
  if earlier.isLeap ∧ earlier.secondOfDay < later.secondOfDay then 1000000000
  else if later.isLeap ∧ later.secondOfDay < earlier.secondOfDay then -1000000000
  else 0

def nanosSince (later earlier : Timestamp) : Int :=
  later.totalNanos - earlier.totalNanos + later.leapNanos earlier

def millisSince (later earlier : Timestamp) : Int := (later.nanosSince earlier).tdiv 1000000

/-- the point that lies `n` nanoseconds after the epoch -/
def ofNanos (n : Int) : Timestamp := ⟨n / 1000000000, (n % 1000000000).toNat⟩

def ofMillis (ms : Int) : Timestamp := ofNanos (ms * 1000000)

def addMicros (t : Timestamp) (micros : Nat) : Timestamp :=
  ofNanos (t.totalNanos + micros * 1000)

theorem totalNanos_ofNanos (n : Int) : (ofNanos n).totalNanos = n := by
  simp only [ofNanos, totalNanos]
  omega

theorem lt_iff {a b : Timestamp} :
    a.lt b = true ↔ a.seconds < b.seconds ∨ (a.seconds = b.seconds ∧ a.nanos < b.nanos) := by
  simp [lt]

theorem le_iff {a b : Timestamp} : a.le b = true ↔ ¬ b.lt a = true := by
  simp [le]

theorem lt_asymm {a b : Timestamp} (h : a.lt b = true) : ¬ b.lt a = true := by
  rw [lt_iff] at h ⊢
  omega

theorem lt_of_le_of_ne {a b : Timestamp} (h : a.le b = true) (hne : a ≠ b) : a.lt b = true := by
  obtain ⟨s, n⟩ := a
  obtain ⟨s', n'⟩ := b
  rw [Ne, mk.injEq] at hne
  rw [le_iff, lt_iff] at h
  rw [lt_iff]
  dsimp only at h ⊢
  omega

end Timestamp

end TaskPool
