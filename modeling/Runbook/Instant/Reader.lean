import Runbook.Instant.Printer
import Runbook.Text.Blank

/-!
# Reading instants

Two readers of RFC 3339 share their parts and differ in what they let pass.

* `Instant.parse` — for records: blanks may stand around the parts, numbers may
  be shorter, the year may have a sign, `UTC` is an offset.
* `Instant.parseStrict` — for stored texts: every part has its full width.

Numbers are checked against their range when they are read; whether the date
exists is looked at last.
-/

namespace Runbook

/-- Why a text is no instant. -/
inductive TimeError where
  /-- the text ends too early -/
  | premature
  /-- a character that cannot stand where it does -/
  | invalid
  /-- a number or a date that does not exist -/
  | outOfRange
  /-- more text than an instant -/
  | trailing
  /-- an instant beyond the calendar -/
  | impossible
  deriving DecidableEq, Repr

/-- The wording of the error. -/
def TimeError.message : TimeError → String
  | .premature => "premature end of input"
  | .invalid => "input contains invalid characters"
  | .outOfRange => "input is out of range"
  | .trailing => "trailing input"
  | .impossible => "no possible date and time matching input"

namespace Instant

/-! ## Parts -/

/-- How many bytes the characters take in UTF-8. -/
def byteCount (s : List Char) : Nat := s.foldl (fun n c => n + c.utf8Size) 0

/-- The number written by decimal digits. -/
def decimal (digits : List Char) : Nat :=
  digits.foldl (fun n c => n * 10 + (c.toNat - '0'.toNat)) 0

/-- The greatest number that is read. -/
def numberMax : Nat := Int64.maxValue.toNatClampNeg

/-- At least `min` and at most `max` digits. A text of fewer than `min` bytes is
too short whatever it holds. -/
def scanNumber (min max : Nat) (s : List Char) : Except TimeError (Nat × List Char) :=
  if byteCount (s.take min) < min then .error .premature
  else
    let digits := (s.take max).takeWhile Char.isDigit
    if digits.length < min then .error .invalid
    else if numberMax < decimal digits then .error .outOfRange
    else .ok (decimal digits, s.drop digits.length)

/-- The character `c`. -/
def scanChar (c : Char) : List Char → Except TimeError (List Char)
  | [] => .error .premature
  | d :: s => if d = c then .ok s else .error .invalid

/-- Fail unless a number lies in its range. -/
def within (low high : Int) (n : Int) : Except TimeError Unit :=
  if low ≤ n ∧ n ≤ high then .ok () else .error .outOfRange

/-- A number of one or two digits, or exactly two if `strict`, in a range. -/
def scanField (strict : Bool) (low high : Nat) (s : List Char) :
    Except TimeError (Nat × List Char) := do
  let (n, s) ← if strict then scanNumber 2 2 s else scanNumber 1 2 (Text.trimLeft s)
  within low high n
  return (n, s)

/-- A separator; blanks may stand in front of it unless `strict`. -/
def scanMark (strict : Bool) (c : Char) (s : List Char) : Except TimeError (List Char) :=
  scanChar c (if strict then s else Text.trimLeft s)

/-- A year: four digits if `strict`; else up to four, or any number after a
sign. -/
def scanYear (strict : Bool) (s : List Char) : Except TimeError (Int × List Char) := do
  if strict then
    let (n, s) ← scanNumber 4 4 s
    return (n, s)
  let (year, s) ← match Text.trimLeft s with
    | '-' :: s => do
      let (n, s) ← scanNumber 1 s.length s
      pure (-(n : Int), s)
    | '+' :: s => do
      let (n, s) ← scanNumber 1 s.length s
      pure ((n : Int), s)
    | s => do
      let (n, s) ← scanNumber 1 4 s
      pure ((n : Int), s)
  within Int32.minValue.toInt Int32.maxValue.toInt year
  return (year, s)

/-- A date and the letter or blank that separates it from the time. -/
def scanDate (strict : Bool) (s : List Char) : Except TimeError (Day × List Char) := do
  let (year, s) ← scanYear strict s
  let s ← scanMark strict '-' s
  let (month, s) ← scanField strict 1 12 s
  let s ← scanMark strict '-' s
  let (day, s) ← scanField strict 1 31 s
  match s with
  | [] => .error .premature
  | c :: s => if c = 't' ∨ c = 'T' ∨ c = ' ' then .ok (⟨year, month, day⟩, s) else .error .invalid

/-- A fraction of a second in nanoseconds. Digits beyond the ninth are dropped. -/
def scanFraction : List Char → Except TimeError (Nat × List Char)
  | '.' :: s => do
    let (n, rest) ← scanNumber 1 9 s
    let used := s.length - rest.length
    -- `used` digits were read, so what is missing to nine is zeros
    return (n * Nat.pow 10 (9 - used), rest.dropWhile Char.isDigit)
  | s => .ok (0, s)

/-- A time of day, of a given date. -/
def scanTime (strict : Bool) (date : Day) (s : List Char) :
    Except TimeError (Reading × List Char) := do
  let (hour, s) ← scanField strict 0 23 s
  let s ← scanMark strict ':' s
  let (minute, s) ← scanField strict 0 59 s
  let s ← scanMark strict ':' s
  let (second, s) ← scanField strict 0 60 s
  let (nanos, s) ← scanFraction s
  return (⟨date, hour, minute, second, nanos⟩, s)

/-- Two digits of an offset. -/
def scanPair (s : List Char) : Except TimeError ((Nat × Nat) × List Char) :=
  if byteCount (s.take 2) < 2 then .error .premature
  else match s with
    | a :: b :: s =>
      if a.isDigit ∧ b.isDigit then .ok ((decimal [a], decimal [b]), s) else .error .invalid
    | _ => .error .invalid

/-- The sign of an offset: whether it is negative. -/
def scanOffsetSign : List Char → Except TimeError (Bool × List Char)
  | [] => .error .premature
  | c :: s =>
    if c = '+' then .ok (false, s)
    else if c = '-' ∨ c = '\u2212' then .ok (true, s)
    else .error .invalid

/-- What stands between hours and minutes of an offset: a colon if `strict`,
else any colons and blanks. -/
def scanOffsetMark (strict : Bool) (s : List Char) : Except TimeError (List Char) :=
  if strict then scanChar ':' s
  else .ok (s.dropWhile fun c => c == ':' || Text.isBlank c)

/-- An offset in seconds: `Z`, or hours and minutes with a sign. -/
def scanOffset (strict : Bool) (s : List Char) : Except TimeError (Int × List Char) :=
  match s with
  | 'Z' :: rest | 'z' :: rest => .ok (0, rest)
  | _ => do
    let (negative, s) ← scanOffsetSign s
    let ((h₁, h₀), s) ← scanPair s
    let s ← scanOffsetMark strict s
    let ((m₁, m₀), s) ← scanPair s
    if 6 ≤ m₁ then .error .outOfRange
    let seconds : Int := (h₁ * 10 + h₀) * 3600 + (m₁ * 10 + m₀) * 60
    return (if negative then -seconds else seconds, s)

/-- Whether the text begins with `UTC` in any case. -/
def startsWithUtc (s : List Char) : Bool :=
  (s.take 3).map Char.toUpper == ['U', 'T', 'C']

/-! ## Whole texts -/

/-- The instant at which clocks with an offset show a reading. -/
def ofScanned (r : Reading) (offset : Int) : Except TimeError Instant := do
  if !r.date.onCalendar then .error .outOfRange
  within yearRange.1 yearRange.2 r.date.year
  within (-86399) 86399 offset
  match ofReading? r offset with
  | none => .error .outOfRange
  | some t =>
    let year := t.reading.date.year
    if yearRange.1 ≤ year ∧ year ≤ yearRange.2 then .ok t else .error .impossible

/-- Read an instant, generously. -/
def parse (text : String) : Except TimeError Instant := do
  let (date, s) ← scanDate false text.toList
  let (r, s) ← scanTime false date s
  let s := Text.trimLeft s
  let (offset, s) ← if startsWithUtc s then .ok (0, s.drop 3) else scanOffset false s
  if !(Text.trimLeft s).isEmpty then .error .trailing
  ofScanned r offset

/-- Read an instant of which every part has its full width. -/
def parseStrict (text : String) : Except TimeError Instant := do
  let (date, s) ← scanDate true text.toList
  let (r, s) ← scanTime true date s
  let (offset, s) ← scanOffset true s
  within (-86340) 86340 offset
  if !s.isEmpty then .error .trailing
  ofScanned r offset

end Instant

end Runbook
