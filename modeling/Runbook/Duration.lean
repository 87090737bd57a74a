/-!
# Lengths of time

* `Duration.ceilMillis` — a length of time as timers count it, in milliseconds.
* `Duration.describe` writes a length of time in the largest unit in which it is
  at least one, with the fraction cut after its last digit that is not zero.
-/

namespace Runbook

/-- A length of time. -/
structure Duration where
  /-- whole seconds -/
  seconds : Nat
  /-- nanoseconds beyond them -/
  nanos : Nat
  /-- less than a second -/
  nanos_lt : nanos < 1000000000
  deriving DecidableEq, Repr

namespace Duration

/-- So many seconds and nanoseconds. -/
def ofParts (seconds nanos : Nat) : Duration :=
  ⟨seconds + nanos / 1000000000, nanos % 1000000000, Nat.mod_lt _ (by decide)⟩

/-- So many milliseconds. -/
def ofMillis (ms : Nat) : Duration := ofParts (ms / 1000) (ms % 1000 * 1000000)

/-- The length of time in nanoseconds. -/
def inNanos (d : Duration) : Nat := d.seconds * 1000000000 + d.nanos

theorem inNanos_ofMillis (ms : Nat) : (ofMillis ms).inNanos = ms * 1000000 := by
  simp only [inNanos, ofMillis, ofParts]
  omega

/-- The least number of whole milliseconds that is no shorter than so many
nanoseconds. Timers count whole milliseconds and never go off too early. -/
def millisFor (nanos : Nat) : Nat := (nanos + 999999) / 1000000

/-- The least number of whole milliseconds that is no shorter. -/
def ceilMillis (d : Duration) : Nat := millisFor d.inNanos

/-- A number with a fraction of `width` digits, the zeros at its end dropped. -/
def describeFraction (whole fraction width : Nat) : String :=
  let digits := Nat.toDigits 10 fraction
  let all := List.replicate (width - digits.length) '0' ++ digits
  let kept := (all.reverse.dropWhile (· == '0')).reverse
  toString whole ++ (if kept.isEmpty then "" else "." ++ String.ofList kept)

/-- The text of a length of time. -/
def describe (d : Duration) : String :=
  if 0 < d.seconds then describeFraction d.seconds d.nanos 9 ++ "s"
  else if 1000000 ≤ d.nanos then describeFraction (d.nanos / 1000000) (d.nanos % 1000000) 6 ++ "ms"
  else if 1000 ≤ d.nanos then describeFraction (d.nanos / 1000) (d.nanos % 1000) 3 ++ "µs"
  else toString d.nanos ++ "ns"

end Duration

end Runbook
