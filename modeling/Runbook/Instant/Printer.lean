import Runbook.Instant

/-!
# Writing instants

RFC 3339 in UTC, with the fewest fraction digits of 0, 3, 6 and 9 that are
exact (`Instant.print`), or always with six, cut off, so that texts sort as
their times do (`Instant.printMicros`). Years outside 0 to 9999 have a sign.
-/

namespace Runbook

/-- A number with at least `width` digits. -/
def padded (width n : Nat) : List Char :=
  let digits := Nat.toDigits 10 n
  List.replicate (width - digits.length) '0' ++ digits

namespace Instant

/-- The text of a year: four digits, or a sign and at least four. -/
def printYear (year : Int) : List Char :=
  if 0 ≤ year ∧ year ≤ 9999 then padded 4 year.toNat
  else (if year < 0 then '-' else '+') :: padded 4 year.natAbs

/-- Date and time up to the second. -/
def printSeconds (r : Reading) : List Char :=
  printYear r.date.year ++ '-' :: padded 2 r.date.month ++ '-' :: padded 2 r.date.day ++
    'T' :: padded 2 r.hour ++ ':' :: padded 2 r.minute ++ ':' :: padded 2 r.second

/-- The shortest exact fraction of a second in steps of three digits. -/
def printFraction (nanos : Nat) : List Char :=
  if nanos = 0 then []
  else if nanos % 1000000 = 0 then '.' :: padded 3 (nanos / 1000000)
  else if nanos % 1000 = 0 then '.' :: padded 6 (nanos / 1000)
  else '.' :: padded 9 nanos

/-- The text of an instant. -/
def print (t : Instant) : String :=
  String.ofList (printSeconds t.reading ++ printFraction t.reading.nanos ++ ['Z'])

/-- The text of an instant with microseconds. -/
def printMicros (t : Instant) : String :=
  String.ofList (printSeconds t.reading ++ '.' :: padded 6 (t.reading.nanos / 1000) ++ ['Z'])

end Instant

end Runbook
