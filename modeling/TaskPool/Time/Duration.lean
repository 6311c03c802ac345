/-!
# Durations

A `Duration` is a whole number of nanoseconds.  `Duration.text` writes it in the largest of the
units s, ms, µs, ns that makes it at least one, with as many decimals as it needs and no more
(`1.5s`, `250ms`, `0ns`).
-/

namespace TaskPool

structure Duration where
  nanos : Nat
  deriving DecidableEq, Inhabited

namespace Duration

def ofMillis (ms : Nat) : Duration := ⟨ms * 1000000⟩

/-- whole milliseconds, what is left over dropped -/
def millis (d : Duration) : Nat := d.nanos / 1000000

theorem millis_ofMillis (ms : Nat) : (ofMillis ms).millis = ms := by
  simp [ofMillis, millis]

/-- the lowest `places` decimal digits of `n`, without the zeros at the end -/
def fraction (places n : Nat) : String :=
  let digits := (Nat.toDigits 10 (Nat.pow 10 places + n % Nat.pow 10 places)).drop 1
  let kept := (digits.reverse.dropWhile (· == '0')).reverse
  if kept.isEmpty then "" else "." ++ String.ofList kept

/-- `n` units of `10 ^ places` nanoseconds each -/
def inUnit (n places : Nat) (unit : String) : String :=
  toString (n / Nat.pow 10 places) ++ fraction places n ++ unit

def text (d : Duration) : String :=
  if d.nanos ≥ 1000000000 then inUnit d.nanos 9 "s"
  else if d.nanos ≥ 1000000 then inUnit d.nanos 6 "ms"
  else if d.nanos ≥ 1000 then inUnit d.nanos 3 "µs"
  else inUnit d.nanos 0 "ns"

end Duration

end TaskPool
