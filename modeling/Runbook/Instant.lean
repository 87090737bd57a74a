/-!
# Instants and the civil calendar

* `Instant` — a moment of UTC as seconds since the start of 1970 and
  nanoseconds. A leap second shares the count of the second before it and has a
  billion nanoseconds or more. Nothing keeps an instant from having as many
  within a minute, where no leap second is; it then reads as the next second.
* `Day` — a date of the proleptic Gregorian calendar; `Day.toNumber` and
  `Day.ofNumber` convert it to and from a day count by cycles of 400 years that
  begin in March, so that the leap day comes last.
-/

namespace Runbook

/-- Nanoseconds of a second. -/
def nanosPerSecond : Nat := 1000000000

/-- A moment of UTC. -/
structure Instant where
  /-- seconds since the start of 1970 -/
  seconds : Int
  /-- nanoseconds since that second began; a billion or more in a leap second -/
  nanos : Nat
  /-- a leap second is no longer than another one -/
  valid : nanos < 2 * nanosPerSecond
  deriving DecidableEq, Repr

namespace Instant

/-- The start of 1970. -/
def epoch : Instant := ⟨0, 0, by decide⟩

instance : Inhabited Instant := ⟨epoch⟩

/-- The instant with this count, if it is one. -/
def ofCount? (seconds : Int) (nanos : Nat) : Option Instant :=
  if h : nanos < 2 * nanosPerSecond then some ⟨seconds, nanos, h⟩ else none

/-- The instant a number of microseconds after the start of 1970. -/
def ofMicros (micros : Nat) : Instant where
  seconds := (micros / 1000000 : Nat)
  nanos := micros % 1000000 * 1000
  valid := by unfold nanosPerSecond; omega

/-- Drop what is smaller than a microsecond. -/
def truncateMicros (t : Instant) : Instant where
  seconds := t.seconds
  nanos := t.nanos / 1000 * 1000
  valid := by have := t.valid; unfold nanosPerSecond at *; omega

/-- Whether `t` comes before `u`. -/
def before (t u : Instant) : Bool :=
  t.seconds < u.seconds || t.seconds == u.seconds && t.nanos < u.nanos

end Instant

/-! ## Dates -/

/-- A date of the Gregorian calendar, extended in both directions. -/
structure Day where
  /-- the year; the year before 1 is 0 -/
  year : Int
  /-- the month, from 1 -/
  month : Nat
  /-- the day of the month, from 1 -/
  day : Nat
  deriving DecidableEq, Repr

namespace Day

/-- Whether a year has a leap day. -/
def isLeap (year : Int) : Bool :=
  year % 4 == 0 && (year % 100 != 0 || year % 400 == 0)

/-- The number of days of a month. -/
def monthLength (year : Int) (month : Nat) : Nat :=
  if month = 2 then (if isLeap year then 29 else 28)
  else if month = 4 ∨ month = 6 ∨ month = 9 ∨ month = 11 then 30
  else 31

/-- Whether the date exists. -/
def onCalendar (d : Day) : Bool :=
  1 ≤ d.month && d.month ≤ 12 && 1 ≤ d.day && d.day ≤ monthLength d.year d.month

/-- Days of a cycle of 400 years. -/
def cycleDays : Int := 146097

/-- Days from the start of March of the year 0 to the start of 1970. -/
def epochOffset : Int := 719468

/-- The number of days since the start of 1970. -/
def toNumber (d : Day) : Int :=
  let year := if d.month ≤ 2 then d.year - 1 else d.year
  let cycle := year / 400
  let yearOfCycle := year % 400
  let fromMarch : Int := if d.month ≤ 2 then d.month + 9 else d.month - 3
  let dayOfYear := (153 * fromMarch + 2) / 5 + d.day - 1
  let dayOfCycle := yearOfCycle * 365 + yearOfCycle / 4 - yearOfCycle / 100 + dayOfYear
  cycle * cycleDays + dayOfCycle - epochOffset

/-- The date a number of days after the start of 1970. -/
def ofNumber (n : Int) : Day :=
  let shifted := n + epochOffset
  let cycle := shifted / cycleDays
  let dayOfCycle := shifted % cycleDays
  let yearOfCycle :=
    (dayOfCycle - dayOfCycle / 1460 + dayOfCycle / 36524 - dayOfCycle / 146096) / 365
  let dayOfYear := dayOfCycle - (365 * yearOfCycle + yearOfCycle / 4 - yearOfCycle / 100)
  let fromMarch := (5 * dayOfYear + 2) / 153
  let day := dayOfYear - (153 * fromMarch + 2) / 5 + 1
  let month := if fromMarch < 10 then fromMarch + 3 else fromMarch - 9
  let year := yearOfCycle + cycle * 400 + (if month ≤ 2 then 1 else 0)
  ⟨year, month.toNat, day.toNat⟩

end Day

/-! ## Clock time -/

/-- An instant as a reading of a calendar and a clock. -/
structure Reading where
  /-- the date -/
  date : Day
  /-- the hour, from 0 to 23 -/
  hour : Nat
  /-- the minute, from 0 to 59 -/
  minute : Nat
  /-- the second, from 0 to 59, or 60 in a leap second -/
  second : Nat
  /-- nanoseconds of that second -/
  nanos : Nat
  deriving DecidableEq, Repr

/-- The first and the last year in which instants can be read. -/
def yearRange : Int × Int := (-262143, 262142)

namespace Instant

/-- What calendar and clock show at an instant, in UTC. -/
def reading (t : Instant) : Reading :=
  let ofDay := (t.seconds % 86400).toNat
  let leap := nanosPerSecond ≤ t.nanos
  { date := Day.ofNumber (t.seconds / 86400)
    hour := ofDay / 3600
    minute := ofDay / 60 % 60
    second := ofDay % 60 + (if leap then 1 else 0)
    nanos := if leap then t.nanos - nanosPerSecond else t.nanos }

/-- The instant at which clocks that are `offset` seconds ahead of UTC show a
reading. A second of 60 is a leap second. -/
def ofReading? (r : Reading) (offset : Int) : Option Instant :=
  let (second, nanos) :=
    if r.second = 60 then (59, r.nanos + nanosPerSecond) else (r.second, r.nanos)
  ofCount? (r.date.toNumber * 86400 + r.hour * 3600 + r.minute * 60 + second - offset) nanos

end Instant

end Runbook
