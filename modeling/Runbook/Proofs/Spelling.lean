import Runbook.Proofs.Timestamps

/-!
# Times in every spelling

The generous reader takes a time with a year of four digits in each of its spellings: in UTC, and as
clocks show it that are a number of minutes ahead of UTC or behind it.

* `Instant.ahead` — what such clocks show is what clocks in UTC show so much later.
* `Instant.Spelled` — the spellings of an instant.
* `Instant.parse_printSeconds` — every part is read as it was written.
* `Instant.parse_of_spelled` — each spelling is read as the instant.
-/

namespace Runbook

variable {n : Nat} {c : Char} {s : List Char}

namespace Instant

/-! ## Zones -/

/-- The text at the end of a time: how many seconds its clocks are ahead of UTC. -/
structure Zone (text : List Char) (offset : Int) : Prop where
  /-- it begins with a letter or a sign -/
  begins : ∃ c s, text = c :: s ∧ c.isDigit = false ∧ c ≠ '.' ∧ Text.isBlank c = false
  /-- it is not spelled out -/
  short : startsWithUtc text = false
  /-- it is read so -/
  read : scanOffset false text = .ok (offset, [])

theorem zone_utc : Zone ['Z'] 0 :=
  ⟨⟨'Z', [], rfl, by decide, by decide, by decide⟩, by decide, rfl⟩

/-- The text of an offset: a sign, hours and minutes. -/
def printOffset (minutes : Int) : List Char :=
  (if minutes < 0 then '-' else '+') :: padded 2 (minutes.natAbs / 60) ++
    ':' :: padded 2 (minutes.natAbs % 60)

/-- A digit of an offset is read as it was written. -/
theorem isDigit_and_decimal_digitChar (h : n < 10) :
    n.digitChar.isDigit = true ∧ decimal [n.digitChar] = n := by
  have text := padded_one h
  have digit : n.digitChar ∈ padded 1 n := text ▸ List.mem_cons_self
  exact ⟨isDigit_of_mem_padded digit, text ▸ decimal_padded h⟩

/-- Two digits of an offset are read as they were written. -/
theorem scanPair_padded (fits : n < 100) (rest : List Char) :
    scanPair (padded 2 n ++ rest) = .ok ((n / 10, n % 10), rest) := by
  have text : padded 2 n = [(n / 10).digitChar, (n % 10).digitChar] := by
    rw [padded_succ 0 n, padded_one (by omega)]
    rfl
  have long : ¬ byteCount ((padded 2 n ++ rest).take 2) < 2 := by
    have bytes := length_le_byteCount ((padded 2 n ++ rest).take 2)
    simp only [List.length_take, List.length_append, length_padded (w := 1) fits] at bytes
    omega
  obtain ⟨tens, ten⟩ := isDigit_and_decimal_digitChar (n := n / 10) (by omega)
  obtain ⟨ones, one⟩ := isDigit_and_decimal_digitChar (n := n % 10) (by omega)
  rw [text, List.cons_append, List.cons_append, List.nil_append] at long ⊢
  simp only [scanPair, if_neg long, tens, ten, ones, one, and_self, if_true]

theorem scanOffsetMark_padded (w n : Nat) (rest : List Char) :
    scanOffsetMark false (':' :: (padded w n ++ rest)) = .ok (padded w n ++ rest) := by
  obtain ⟨c, s, text, digit⟩ := exists_cons_padded w n
  have solid := Text.isBlank_eq_false_of_isDigit digit
  have colon : c ≠ ':' := by
    rintro rfl
    simp at digit
  simp [scanOffsetMark, text, solid, colon]

/-- An offset is read as it was written. -/
theorem scanOffset_printOffset {minutes : Int} (day : minutes.natAbs < 1440) :
    scanOffset false (printOffset minutes) = .ok (60 * minutes, []) := by
  have hours := scanPair_padded (n := minutes.natAbs / 60) (by omega)
    (':' :: padded 2 (minutes.natAbs % 60))
  have ofHour := scanPair_padded (n := minutes.natAbs % 60) (by omega) []
  have mark := scanOffsetMark_padded 2 (minutes.natAbs % 60) []
  rw [List.append_nil] at ofHour mark
  have inHour : ¬ 6 ≤ minutes.natAbs % 60 / 10 := by omega
  rw [printOffset]
  generalize hh : minutes.natAbs / 60 = hour at *
  generalize hm : minutes.natAbs % 60 = minute at *
  split
  · next behind =>
    simp [scanOffset, scanOffsetSign, hours, mark, ofHour, inHour, bind, Except.bind, pure,
      Except.pure]
    omega
  · next ahead =>
    simp [scanOffset, scanOffsetSign, hours, mark, ofHour, inHour, bind, Except.bind, pure,
      Except.pure]
    omega

theorem zone_printOffset {minutes : Int} (day : minutes.natAbs < 1440) :
    Zone (printOffset minutes) (60 * minutes) := by
  have read := scanOffset_printOffset day
  by_cases behind : minutes < 0
  · rw [printOffset, if_pos behind] at read ⊢
    exact ⟨⟨_, _, rfl, by decide, by decide, by decide⟩, by simp [startsWithUtc], read⟩
  · rw [printOffset, if_neg behind] at read ⊢
    exact ⟨⟨_, _, rfl, by decide, by decide, by decide⟩, by simp [startsWithUtc], read⟩

/-! ## Whole texts -/

/-- Nanoseconds are read as they were written. -/
theorem scanFraction_printFraction {nanos : Nat} (fits : nanos < nanosPerSecond)
    (ends : c.isDigit = false) (mark : c ≠ '.') :
    scanFraction (printFraction nanos ++ c :: s) = .ok (nanos, c :: s) := by
  unfold nanosPerSecond at fits
  rw [printFraction]
  split
  · next none =>
    subst none
    simp [scanFraction, mark]
  split
  · next millis =>
    rw [scanFraction_padded (by decide) (by omega) ends]
    congr 2
    omega
  split
  · next micros =>
    rw [scanFraction_padded (by decide) (by omega) ends]
    congr 2
    omega
  · rw [scanFraction_padded (by decide) (by omega) ends]
    congr 2
    omega

/-- Every part is read as it was written. -/
theorem parse_printSeconds {r : Reading} {zone : List Char} {offset : Int} (h : r.Written)
    (hz : Zone zone offset) :
    parse (String.ofList (printSeconds r ++ printFraction r.nanos ++ zone)) =
      ofScanned r offset := by
  obtain ⟨⟨c, s, rfl, ends, mark, solid⟩, short, read⟩ := hz
  have fraction := scanFraction_printFraction (s := s) h.time.2.2.2 ends mark
  have trimmed : Text.trimLeft ([] : List Char) = [] := rfl
  simp [parse, printSeconds, scanDate_printed false h.date h.year,
    scanTime_printed false h fraction, Text.trimLeft_cons solid, short, read, trimmed, bind,
    Except.bind]

variable {t : Instant} {minutes : Int}

/-- The instant at which clocks in UTC show what clocks show now that are so many minutes ahead. -/
def ahead (t : Instant) (minutes : Int) : Instant where
  seconds := t.seconds + 60 * minutes
  nanos := t.nanos
  valid := t.valid

/-- Leap seconds are the last of a minute on both of them. -/
theorem regular_ahead : (t.ahead minutes).Regular ↔ t.Regular := by
  have last : (t.seconds + 60 * minutes) % 60 = t.seconds % 60 := by omega
  rw [Regular, Regular, ahead, last]

theorem carried_ahead (t : Instant) (minutes : Int) :
    (t.ahead minutes).carried = t.carried.ahead minutes := by
  by_cases regular : t.Regular
  · rw [carried_eq regular, carried_eq (regular_ahead.2 regular)]
  · rw [carried, carried, if_neg regular, if_neg (mt regular_ahead.1 regular)]
    simp only [ahead, Instant.mk.injEq, and_true]
    omega

theorem ofCount?_eq_some {seconds : Int} {nanos : Nat} (h : ofCount? seconds nanos = some t) :
    t.seconds = seconds ∧ t.nanos = nanos := by
  rw [ofCount?] at h
  split at h
  · obtain rfl := Option.some.inj h
    exact ⟨rfl, rfl⟩
  · cases h

/-- Clocks that are ahead show a reading so much earlier. -/
theorem ofReading?_eq_of_utc {r : Reading} {u : Instant} (h : ofReading? r 0 = some u)
    (offset : Int) : ofReading? r offset = ofCount? (u.seconds - offset) u.nanos := by
  obtain ⟨seconds, nanos⟩ := ofCount?_eq_some h
  rw [seconds, nanos, Int.sub_zero]
  rfl

/-- What clocks show that are ahead is a reading of the instant that clocks show. -/
theorem ofReading?_ahead (t : Instant) (minutes : Int) :
    ofReading? (t.ahead minutes).reading (60 * minutes) = some t.carried := by
  rw [ofReading?_eq_of_utc (ofReading?_reading _), carried_ahead]
  have back : (t.carried.ahead minutes).seconds - 60 * minutes = t.carried.seconds := by
    simp only [ahead]
    omega
  rw [back]
  exact dif_pos t.carried.valid

/-- The text of an instant on clocks that are so many minutes ahead. -/
def printAhead (t : Instant) (minutes : Int) : String :=
  String.ofList (printSeconds (t.ahead minutes).reading ++
    printFraction (t.ahead minutes).reading.nanos ++ printOffset minutes)

/-- The instant that clocks show can be told from what such clocks show. -/
theorem ofScanned_ahead (h : t.FourDigits) (there : (t.ahead minutes).FourDigits)
    (day : minutes.natAbs < 1440) :
    ofScanned (t.ahead minutes).reading (60 * minutes) = .ok t.carried := by
  obtain ⟨first, last⟩ := h
  obtain ⟨first', last'⟩ := there
  have date : (t.ahead minutes).reading.date.onCalendar = true := Day.onCalendar_ofNumber _
  have year : within yearRange.1 yearRange.2 (t.ahead minutes).reading.date.year = .ok () :=
    if_pos (by unfold yearRange; omega)
  have offset : within (-86399) 86399 (60 * minutes) = .ok () := if_pos (by omega)
  have inRange : yearRange.1 ≤ t.reading.date.year ∧ t.reading.date.year ≤ yearRange.2 := by
    unfold yearRange
    omega
  simp [ofScanned, date, year, offset, inRange, ofReading?_ahead, reading_carried, bind,
    Except.bind]

/-- A text of the instant: in UTC, or as clocks show it that are less than a day ahead or behind,
in a year of four digits. -/
def Spelled (t : Instant) (text : String) : Prop :=
  text = t.print ∨ ∃ minutes : Int, minutes.natAbs < 1440 ∧ (t.ahead minutes).FourDigits ∧
    text = t.printAhead minutes

/-- Each spelling of an instant is read as the instant that clocks show. -/
theorem parse_of_spelled {text : String} (h : t.FourDigits) (spelled : t.Spelled text) :
    parse text = .ok t.carried := by
  rcases spelled with rfl | ⟨minutes, day, there, rfl⟩
  · rw [print, parse_printSeconds (written_reading h) zone_utc, ofScanned_reading h]
  · rw [printAhead, parse_printSeconds (written_reading there) (zone_printOffset day),
      ofScanned_ahead h there day]

end Instant

end Runbook
