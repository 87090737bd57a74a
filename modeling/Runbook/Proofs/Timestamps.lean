import Runbook.Instant.Reader
import Runbook.Proofs.Calendar

/-!
# Times as texts

A time with a year of four digits is stored as a text that can be read, and the texts sort as the
times do. A text shows what clocks show, and clocks show a leap second only at the end of a minute.
So a time with as many nanoseconds within a minute is read as the next second.

* `Instant.scanNumber_padded`, `padded_lt` — the same of numbers with a fixed number of digits.
* `Instant.scanDate_printed`, `Instant.scanTime_printed` — dates and times of day, for both readers.
* `Instant.Regular`, `Instant.carried` — the times that clocks tell apart, and the one of them that
  clocks show at any time.
* `Instant.parseStrict_printMicros` — what is read is this time up to its microseconds.
* `Instant.Stored`, `Instant.printMicros_lt` — times that are stored as they are, and their order.
-/

namespace Runbook

variable {n m w low high : Nat} {s x y rest : List Char}

/-! ## Numbers of a fixed width -/

/-- The last digit of a number stands at the end. -/
theorem padded_succ (w n : Nat) :
    padded (w + 2) n = padded (w + 1) (n / 10) ++ [(n % 10).digitChar] := by
  rw [padded, padded]
  by_cases digit : n < 10
  · have only : Nat.toDigits 10 n = [n.digitChar] := Nat.toDigits_of_lt_base digit
    have none : Nat.toDigits 10 (n / 10) = ['0'] := by
      rw [Nat.div_eq_of_lt digit]
      rfl
    simp [only, none, Nat.mod_eq_of_lt digit, List.replicate_succ']
  · have more : Nat.toDigits 10 n = Nat.toDigits 10 (n / 10) ++ [(n % 10).digitChar] :=
      Nat.toDigits_of_base_le (by omega) (by omega)
    simp [more]

/-- A single digit needs no zeros before it. -/
theorem padded_one (h : n < 10) : padded 1 n = [n.digitChar] := by
  have only : Nat.toDigits 10 n = [n.digitChar] := Nat.toDigits_of_lt_base h
  simp [padded, only]

/-- A number that has as many digits, without its last one. -/
theorem div_lt_of_lt_pow (h : n < 10 ^ (w + 2)) : n / 10 < 10 ^ (w + 1) := by
  rw [Nat.pow_succ] at h
  exact Nat.div_lt_of_lt_mul (Nat.mul_comm .. ▸ h)

/-- A number that fits is printed with exactly so many digits. One that does not fit would be
longer, and texts would no longer be of one width. -/
theorem length_padded (h : n < 10 ^ (w + 1)) : (padded (w + 1) n).length = w + 1 := by
  induction w generalizing n with
  | zero => simp [padded_one h]
  | succ w ih => simp [padded_succ, ih (div_lt_of_lt_pow h)]

/-- Zeros are digits, too, so nothing but digits is printed. -/
theorem isDigit_of_mem_padded {c : Char} (h : c ∈ padded w n) : c.isDigit = true := by
  rcases List.mem_append.1 h with zero | digit
  · rw [List.eq_of_mem_replicate zero]
    rfl
  · exact Nat.isDigit_of_mem_toDigits (by decide) (by decide) digit

namespace Instant

/-- Numbers are read digit by digit. -/
theorem decimal_concat (s : List Char) (c : Char) :
    decimal (s ++ [c]) = decimal s * 10 + (c.toNat - '0'.toNat) := List.foldl_append ..

/-- A digit is read as it was written. -/
theorem toNat_digitChar (h : n < 10) : n.digitChar.toNat - '0'.toNat = n := by
  rw [Nat.toNat_digitChar_of_lt_ten h, show '0'.toNat = 48 from rfl, Nat.add_sub_cancel_left]

/-- So the number is read back: zeros before it add nothing. -/
theorem decimal_padded (h : n < 10 ^ (w + 1)) : decimal (padded (w + 1) n) = n := by
  induction w generalizing n with
  | zero =>
    rw [padded_one h]
    exact (decimal_concat [] _).trans (by simpa [decimal] using toNat_digitChar h)
  | succ w ih =>
    rw [padded_succ, decimal_concat, ih (div_lt_of_lt_pow h),
      toNat_digitChar (Nat.mod_lt _ (by decide))]
    omega

end Instant

/-- Digits are ordered as characters in the way they are as numbers. -/
theorem digitChar_lt (h : n < m) (hm : m < 10) : n.digitChar < m.digitChar := by
  have toNat : n.digitChar.toNat < m.digitChar.toNat := by
    rw [Nat.toNat_digitChar_of_lt_ten hm, Nat.toNat_digitChar_of_lt_ten (h.trans hm)]
    omega
  exact toNat

/-- Numbers of one width sort as texts. -/
theorem padded_lt (h : n < m) (fits : m < 10 ^ (w + 1)) :
    padded (w + 1) n ++ x < padded (w + 1) m ++ y := by
  induction w generalizing n m x y with
  | zero =>
    rw [padded_one fits, padded_one (h.trans fits)]
    exact List.cons_lt_cons_iff.2 (.inl (digitChar_lt h fits))
  | succ w ih =>
    rw [padded_succ, padded_succ, List.append_assoc, List.append_assoc]
    by_cases same : n / 10 = m / 10
    · rw [same]
      refine List.append_left_lt (List.cons_lt_cons_iff.2 (.inl (digitChar_lt ?_ ?_))) <;> omega
    · exact ih (by omega) (div_lt_of_lt_pow fits)

/-! ## Blanks -/

/-- A text that does not begin with a blank is not trimmed, -/
theorem Text.trimLeft_cons (solid : Text.isBlank c = false) (s : List Char) :
    Text.trimLeft (c :: s) = c :: s := by
  simp [Text.trimLeft, solid]

/-- as one that begins with a digit does not, -/
theorem Text.isBlank_eq_false_of_isDigit (digit : c.isDigit = true) : Text.isBlank c = false := by
  have first : '0'.toNat = 48 := rfl
  have last : '9'.toNat = 57 := rfl
  rw [Char.isDigit_iff_toNat] at digit
  simp only [Text.isBlank, Bool.or_eq_false_iff, Bool.and_eq_false_iff, decide_eq_false_iff_not,
    beq_eq_false_iff_ne]
  omega

/-- A number begins with a digit. -/
theorem exists_cons_padded (w n : Nat) : ∃ c s, padded w n = c :: s ∧ c.isDigit = true := by
  cases text : padded w n with
  | nil => exact absurd (List.append_eq_nil_iff.1 text).2 Nat.toDigits_ne_nil
  | cons c s => exact ⟨c, s, rfl, isDigit_of_mem_padded (text ▸ List.mem_cons_self)⟩

/-- which a printed number always does. -/
theorem trimLeft_padded (w n : Nat) (rest : List Char) :
    Text.trimLeft (padded w n ++ rest) = padded w n ++ rest := by
  obtain ⟨c, s, text, digit⟩ := exists_cons_padded w n
  rw [text, List.cons_append, Text.trimLeft_cons (Text.isBlank_eq_false_of_isDigit digit)]

/-! ## Reading what was written -/

namespace Instant

/-- Every character takes a byte or more. -/
theorem length_le_byteCount (s : List Char) : s.length ≤ byteCount s := by
  have counted (start : Nat) : start + s.length ≤
      s.foldl (fun n c => n + c.utf8Size) start := by
    induction s generalizing start with
    | nil => exact Nat.le_refl _
    | cons c s ih =>
      have positive := c.utf8Size_pos
      have := ih (start + c.utf8Size)
      simp only [List.length_cons, List.foldl_cons]
      omega
  exact Nat.zero_add s.length ▸ counted 0

/-- A number is read as it was written, if it ends where its digits may end. -/
theorem scanNumber_padded {min max : Nat} (fits : n < 10 ^ (w + 1)) (small : n ≤ numberMax)
    (least : min ≤ w + 1) (most : w + 1 ≤ max)
    (ends : (rest.take (max - (w + 1))).takeWhile Char.isDigit = []) :
    scanNumber min max (padded (w + 1) n ++ rest) = .ok (n, rest) := by
  have length := length_padded fits
  have digits : ((padded (w + 1) n ++ rest).take max).takeWhile Char.isDigit =
      padded (w + 1) n := by
    rw [List.take_append, length, List.take_of_length_le (by omega),
      List.takeWhile_append_of_pos fun c => isDigit_of_mem_padded, ends, List.append_nil]
  have enough : min ≤ byteCount ((padded (w + 1) n ++ rest).take min) := by
    refine Nat.le_trans ?_ (length_le_byteCount _)
    simp only [List.length_take, List.length_append, length]
    omega
  rw [scanNumber, if_neg (by omega)]
  dsimp only
  rw [digits, decimal_padded fits, if_neg (by omega), if_neg (by omega), List.drop_left]

/-- A field of two digits is read as it was written. -/
theorem scanField_padded (strict : Bool) (inside : low ≤ n ∧ n ≤ high) (fits : n < 100) :
    scanField strict low high (padded 2 n ++ rest) = .ok (n, rest) := by
  have small : n ≤ numberMax := by
    have : 100 ≤ numberMax := by decide
    omega
  have number (least : Nat) (h : least ≤ 2) :
      scanNumber least 2 (padded 2 n ++ rest) = .ok (n, rest) :=
    scanNumber_padded fits small h (by decide) rfl
  have within : within low high n = .ok () := if_pos (by omega)
  cases strict <;>
    simp [scanField, trimLeft_padded, number, within, bind, Except.bind, pure, Except.pure]

/-- A mark is read if it is the next character, strictly or not. -/
theorem scanMark_cons (strict : Bool) {c : Char} (solid : Text.isBlank c = false) :
    scanMark strict c (c :: s) = .ok s := by
  cases strict <;> simp [scanMark, scanChar, Text.trimLeft_cons solid]

/-- A fraction of up to nine digits is read in nanoseconds. -/
theorem scanFraction_padded {c : Char} (short : w ≤ 8) (fits : n < 10 ^ (w + 1))
    (ends : c.isDigit = false) :
    scanFraction ('.' :: padded (w + 1) n ++ c :: s) = .ok (n * 10 ^ (8 - w), c :: s) := by
  have small : n ≤ numberMax := by
    have : 10 ^ 9 ≤ numberMax := by decide
    have : 10 ^ (w + 1) ≤ 10 ^ 9 := Nat.pow_le_pow_right (by decide) (by omega)
    omega
  have stops : ((c :: s).take (9 - (w + 1))).takeWhile Char.isDigit = [] := by
    cases 9 - (w + 1) with
    | zero => rfl
    | succ k => simp [ends]
  have number : scanNumber 1 9 (padded (w + 1) n ++ c :: s) = .ok (n, c :: s) :=
    scanNumber_padded fits small (by omega) (by omega) stops
  have used : 9 - (w + 1) = 8 - w := by omega
  simp [scanFraction, number, length_padded fits, ends, used, bind, Except.bind, pure, Except.pure]

end Instant

/-- A reading with a year of four digits. -/
structure Reading.Written (r : Reading) : Prop where
  /-- the year has four digits -/
  year : 0 ≤ r.date.year ∧ r.date.year ≤ 9999
  /-- the date exists -/
  date : r.date.onCalendar = true
  /-- the time of day exists -/
  time : r.hour ≤ 23 ∧ r.minute ≤ 59 ∧ r.second ≤ 60 ∧ r.nanos < nanosPerSecond

namespace Instant

/-- Years of four digits are printed without a sign, -/
theorem printYear_eq {year : Int} (h : 0 ≤ year ∧ year ≤ 9999) :
    printYear year = padded 4 year.toNat := if_pos h

/-- and read back. Other years have a sign and more digits, and are not read by this. -/
theorem scanYear_printYear (strict : Bool) {year : Int} (h : 0 ≤ year ∧ year ≤ 9999) :
    scanYear strict (printYear year ++ rest) = .ok (year, rest) := by
  have small : year.toNat ≤ numberMax := by
    have : 10000 ≤ numberMax := by decide
    omega
  have number (least : Nat) (four : least ≤ 4) :
      scanNumber least 4 (padded 4 year.toNat ++ rest) = .ok (year.toNat, rest) :=
    scanNumber_padded (by omega) small four (by decide) rfl
  cases strict with
  | true => simp [scanYear, printYear_eq h, number, h.1, bind, Except.bind, pure, Except.pure]
  | false =>
    have within : within Int32.minValue.toInt Int32.maxValue.toInt year = .ok () := by
      have least : Int32.minValue.toInt ≤ 0 := by decide
      have greatest : 9999 ≤ Int32.maxValue.toInt := by decide
      exact if_pos (by omega)
    have trimmed := trimLeft_padded 4 year.toNat rest
    have generous := number 1 (by decide)
    -- the text begins with a digit, not with a sign
    obtain ⟨c, s, text, digit⟩ := exists_cons_padded 4 year.toNat
    have minus : c ≠ '-' := by
      rintro rfl
      simp at digit
    have plus : c ≠ '+' := by
      rintro rfl
      simp at digit
    rw [text, List.cons_append] at trimmed generous
    simp only [scanYear, printYear_eq h, text, List.cons_append, trimmed, Bool.false_eq_true,
      if_false]
    split
    · next same => exact absurd (List.cons.inj same).1 minus
    · next same => exact absurd (List.cons.inj same).1 plus
    · simp only [generous, bind, Except.bind, pure, Except.pure, Int.toNat_of_nonneg h.1, within]

/-- Days of the calendar have months and days with at most two digits. -/
theorem month_and_day_of_onCalendar {d : Day} (h : d.onCalendar = true) :
    (1 ≤ d.month ∧ d.month ≤ 12) ∧ 1 ≤ d.day ∧ d.day ≤ 31 := by
  simp only [Day.onCalendar, Bool.and_eq_true, decide_eq_true_eq] at h
  have length : Day.monthLength d.year d.month ≤ 31 := by
    unfold Day.monthLength
    split <;> split <;> omega
  omega

/-- So a date is read part by part, and each part ends where the next mark begins. -/
theorem scanDate_printed (strict : Bool) {d : Day} (h : d.onCalendar = true)
    (year : 0 ≤ d.year ∧ d.year ≤ 9999) :
    scanDate strict (printYear d.year ++ '-' :: (padded 2 d.month ++
      '-' :: (padded 2 d.day ++ 'T' :: rest))) = .ok (d, rest) := by
  obtain ⟨month, day⟩ := month_and_day_of_onCalendar h
  have dash : Text.isBlank '-' = false := rfl
  simp [scanDate, scanYear_printYear strict year, scanMark_cons strict dash,
    scanField_padded strict month (by omega), scanField_padded strict day (by omega), bind,
    Except.bind]

/-- A time of day is read as it was written, up to the fraction of the second. -/
theorem scanTime_printed (strict : Bool) {r : Reading} {nanos : Nat} (h : r.Written)
    (fraction : scanFraction s = .ok (nanos, rest)) :
    scanTime strict r.date (padded 2 r.hour ++ ':' :: (padded 2 r.minute ++
      ':' :: (padded 2 r.second ++ s))) = .ok ({ r with nanos }, rest) := by
  obtain ⟨hour, minute, second, -⟩ := h.time
  have colon : Text.isBlank ':' = false := rfl
  simp [scanTime, scanMark_cons strict colon, fraction,
    scanField_padded strict ⟨Nat.zero_le _, hour⟩ (by omega),
    scanField_padded strict ⟨Nat.zero_le _, minute⟩ (by omega),
    scanField_padded strict ⟨Nat.zero_le _, second⟩ (by omega), bind, Except.bind, pure,
    Except.pure]

/-- Every part is read as it was written. -/
theorem parseStrict_printSeconds {r : Reading} (h : r.Written) :
    parseStrict (String.ofList
        (printSeconds r ++ '.' :: padded 6 (r.nanos / 1000) ++ ['Z'])) =
      ofScanned { r with nanos := r.nanos / 1000 * 1000 } 0 := by
  have micros : r.nanos / 1000 < 10 ^ (5 + 1) := by
    have nanos := h.time.2.2.2
    unfold nanosPerSecond at nanos
    omega
  have fraction := scanFraction_padded (c := 'Z') (s := []) (by decide) micros (by decide)
  have time := scanTime_printed true h fraction
  simp only [List.cons_append] at time
  simp [parseStrict, printSeconds, scanDate_printed true h.date h.year, time, scanOffset, within,
    bind, Except.bind]

/-! ## Instants -/

variable {t u : Instant}

/-- The year of the instant has four digits. -/
def FourDigits (t : Instant) : Prop := 0 ≤ t.reading.date.year ∧ t.reading.date.year ≤ 9999

instance : Decidable t.FourDigits := inferInstanceAs (Decidable (_ ∧ _))

/-- The clock on the wall shows two digits for each part of the time of day. -/
theorem written_reading (h : t.FourDigits) : t.reading.Written := by
  refine ⟨h, Day.onCalendar_ofNumber _, ?_⟩
  have valid := t.valid
  simp only [reading]
  by_cases leap : nanosPerSecond ≤ t.nanos
  · rw [if_pos leap, if_pos leap]
    unfold nanosPerSecond at *
    omega
  · rw [if_neg leap, if_neg leap]
    unfold nanosPerSecond at *
    omega

/-- Dropping nanoseconds drops them from the reading. -/
theorem reading_truncateMicros (t : Instant) : t.truncateMicros.reading =
    { t.reading with nanos := t.reading.nanos / 1000 * 1000 } := by
  have leap : nanosPerSecond ≤ t.nanos / 1000 * 1000 ↔ nanosPerSecond ≤ t.nanos := by
    unfold nanosPerSecond
    omega
  simp only [reading, truncateMicros, leap, Reading.mk.injEq, true_and]
  split
  · unfold nanosPerSecond
    omega
  · rfl

/-! ### Leap seconds -/

/-- If the instant is in a leap second, that one comes at the end of a minute. -/
def Regular (t : Instant) : Prop := t.nanos < nanosPerSecond ∨ t.seconds % 60 = 59

instance : Decidable t.Regular := inferInstanceAs (Decidable (_ ∨ _))

/-- The instant that clocks show: where they have no leap second, the second after it has come. -/
def carried (t : Instant) : Instant :=
  if t.Regular then t
  else
    { seconds := t.seconds + 1
      nanos := t.nanos - nanosPerSecond
      valid := by have := t.valid; omega }

/-- A leap second at the end of a minute is not carried. -/
theorem carried_eq (h : t.Regular) : t.carried = t := if_pos h

/-- After it has been carried the fraction is less than a second. -/
theorem regular_carried (t : Instant) : t.carried.Regular := by
  have valid := t.valid
  rw [carried]
  split
  · next regular => exact regular
  · exact .inl (by dsimp only; unfold nanosPerSecond at *; omega)

/-- Clocks show the same: the second after one within a minute is in that minute too. -/
theorem reading_carried (t : Instant) : t.carried.reading = t.reading := by
  by_cases regular : t.Regular
  · rw [carried_eq regular]
  · obtain ⟨leap, within⟩ := not_or.1 regular
    have leap := Nat.not_lt.1 leap
    have past : ¬ nanosPerSecond ≤ t.nanos - nanosPerSecond := by
      have valid := t.valid
      unfold nanosPerSecond at *
      omega
    have date : (t.seconds + 1) / 86400 = t.seconds / 86400 := by omega
    have ofDay : ((t.seconds + 1) % 86400).toNat = (t.seconds % 86400).toNat + 1 := by omega
    simp only [carried, if_neg regular, reading, date, ofDay, if_neg past, if_pos leap,
      Reading.mk.injEq, true_and, and_true]
    omega

/-- A regular instant can be told from its reading. -/
theorem ofReading?_of_regular (h : t.Regular) : ofReading? t.reading 0 = some t := by
  obtain ⟨seconds, nanos, valid⟩ := t
  have counted : ofCount? seconds nanos = some ⟨seconds, nanos, valid⟩ := dif_pos valid
  rw [← counted]
  simp only [ofReading?, reading, Day.toNumber_ofNumber]
  by_cases leap : nanosPerSecond ≤ nanos
  · -- the second before a leap second is the last one of a minute
    have last : seconds % 60 = 59 := h.resolve_left (Nat.not_lt.2 leap)
    rw [if_pos leap, if_pos leap, if_pos (by omega), Nat.sub_add_cancel leap]
    exact congrArg (ofCount? · nanos) (by dsimp only; omega)
  · rw [if_neg leap, if_neg leap, if_neg (by omega)]
    exact congrArg (ofCount? · nanos) (by dsimp only; omega)

/-- From the reading of any other one the instant is told that clocks show. -/
theorem ofReading?_reading (t : Instant) : ofReading? t.reading 0 = some t.carried := by
  rw [← reading_carried]
  exact ofReading?_of_regular (regular_carried t)

/-! ### Texts that are stored -/

/-- An instant with a year of four digits is read from its reading, as clocks show it. -/
theorem ofScanned_reading (h : t.FourDigits) : ofScanned t.reading 0 = .ok t.carried := by
  obtain ⟨first, last⟩ := h
  have date : t.reading.date.onCalendar = true := Day.onCalendar_ofNumber _
  have inRange : yearRange.1 ≤ t.reading.date.year ∧ t.reading.date.year ≤ yearRange.2 := by
    unfold yearRange
    omega
  simp [ofScanned, date, within, inRange, ofReading?_reading, reading_carried, bind, Except.bind]

/-- What is less than a microsecond has no part in the year, -/
theorem fourDigits_truncateMicros : t.truncateMicros.FourDigits ↔ t.FourDigits := by
  rw [FourDigits, reading_truncateMicros, FourDigits]

/-- nor in whether clocks show the time. -/
theorem regular_truncateMicros : t.truncateMicros.Regular ↔ t.Regular := by
  refine or_congr ?_ Iff.rfl
  simp only [truncateMicros]
  unfold nanosPerSecond
  omega

/-- What is read of the text of an instant that is stored: what clocks show, up to microseconds. -/
def asStored (t : Instant) : Instant := t.carried.truncateMicros

/-- Of a regular instant only what is smaller than a microsecond is lost. -/
theorem asStored_of_regular (h : t.Regular) : t.asStored = t.truncateMicros := by
  rw [asStored, carried_eq h]

/-- It does not matter what is lost first. -/
theorem carried_truncateMicros (t : Instant) : t.truncateMicros.carried = t.asStored := by
  by_cases regular : t.Regular
  · rw [carried_eq (regular_truncateMicros.2 regular), asStored_of_regular regular]
  · have rest : t.nanos / 1000 * 1000 - nanosPerSecond =
        (t.nanos - nanosPerSecond) / 1000 * 1000 := by
      unfold nanosPerSecond
      omega
    rw [asStored, carried, carried, if_neg regular, if_neg (mt regular_truncateMicros.1 regular)]
    simp only [truncateMicros, rest]

/-- So what is stored is a time that clocks show, -/
theorem regular_asStored (t : Instant) : t.asStored.Regular :=
  regular_truncateMicros.2 (regular_carried t)

/-- Nothing more is lost when it is stored again. -/
theorem asStored_asStored (t : Instant) : t.asStored.asStored = t.asStored := by
  rw [asStored_of_regular (regular_asStored t)]
  simp [asStored, truncateMicros]

/-- and the year of it has as many digits as before: clocks show the same year for a second that is
carried, since it is carried within a minute. -/
theorem fourDigits_asStored : t.asStored.FourDigits ↔ t.FourDigits := by
  rw [asStored, fourDigits_truncateMicros, FourDigits, reading_carried, FourDigits]

/-- A stored text is read as the time that clocks show, up to its microseconds. -/
theorem parseStrict_printMicros (h : t.FourDigits) :
    parseStrict t.printMicros = .ok t.asStored := by
  rw [printMicros, parseStrict_printSeconds (written_reading h), ← reading_truncateMicros,
    ofScanned_reading (fourDigits_truncateMicros.2 h), carried_truncateMicros]

/-! ## The order of texts -/

/-- Clocks show the instant as it is, in a year of four digits. -/
structure Civil (t : Instant) : Prop where
  /-- the year has four digits -/
  years : t.FourDigits
  /-- a leap second comes at the end of a minute -/
  regular : t.Regular

instance : Decidable t.Civil :=
  decidable_of_iff (t.FourDigits ∧ t.Regular) ⟨fun h => ⟨h.1, h.2⟩, fun h => ⟨h.1, h.2⟩⟩

/-- The instant can be stored as it is: clocks show it, and it is a whole number of microseconds. -/
structure Stored (t : Instant) : Prop extends t.Civil where
  /-- nothing is smaller than a microsecond -/
  whole : t.nanos % 1000 = 0

instance : Decidable t.Stored :=
  decidable_of_iff (t.Civil ∧ t.nanos % 1000 = 0) ⟨fun h => ⟨h.1, h.2⟩, fun h => ⟨h.1, h.2⟩⟩

/-- A time that can be stored as it is is stored as it is. -/
theorem Stored.asStored_eq (h : t.Stored) : t.asStored = t := by
  have regular := h.regular
  obtain ⟨seconds, nanos, valid⟩ := t
  have whole : nanos / 1000 * 1000 = nanos := Nat.div_mul_cancel (Nat.dvd_of_mod_eq_zero h.whole)
  simp only [asStored_of_regular regular, truncateMicros, whole]

/-- What is read can be stored as it is. -/
theorem stored_asStored (h : t.FourDigits) : t.asStored.Stored where
  years := fourDigits_asStored.2 h
  regular := regular_asStored t
  whole := by simp [asStored, truncateMicros]

/-- The text of what is stored is the text that was stored. -/
theorem printMicros_asStored (t : Instant) : t.asStored.printMicros = t.printMicros := by
  simp [asStored, printMicros, reading_truncateMicros, reading_carried, printSeconds]

/-- A text goes before another one if its first number is less, or else the rest goes before. -/
theorem padded_append_lt {P : Prop} (h : n < m ∨ n = m ∧ P) (fits : m < 10 ^ (w + 1))
    (rest : P → x < y) : padded (w + 1) n ++ x < padded (w + 1) m ++ y := by
  rcases h with less | ⟨rfl, same⟩
  · exact padded_lt less fits
  · exact List.append_left_lt (rest same)

/-- The same behind a mark. -/
theorem mark_padded_append_lt {P : Prop} {c : Char} (h : n < m ∨ n = m ∧ P)
    (fits : m < 10 ^ (w + 1)) (rest : P → x < y) :
    c :: (padded (w + 1) n ++ x) < c :: (padded (w + 1) m ++ y) :=
  List.cons_lt_cons_iff.2 (.inr ⟨rfl, padded_append_lt h fits rest⟩)

/-- One reading shows an earlier time of day than another one, up to microseconds. -/
def Earlier (r s : Reading) : Prop :=
  r.hour < s.hour ∨ r.hour = s.hour ∧ (r.minute < s.minute ∨ r.minute = s.minute ∧
    (r.second < s.second ∨ r.second = s.second ∧ r.nanos / 1000 < s.nanos / 1000))

/-- A later time on one day is shown as such, also in a leap second. -/
theorem earlier_reading (ht : t.Stored) (hu : u.Stored) (h : t.before u = true)
    (day : t.seconds / 86400 = u.seconds / 86400) : Earlier t.reading u.reading := by
  have whole := ht.whole
  have whole' := hu.whole
  have regular := ht.regular
  have regular' := hu.regular
  have valid := t.valid
  have valid' := u.valid
  simp only [Regular] at regular regular'
  simp only [before, Bool.or_eq_true, Bool.and_eq_true, decide_eq_true_eq, beq_iff_eq] at h
  simp only [Earlier, reading]
  -- only the first one can be the leap second of an earlier minute
  by_cases leap : nanosPerSecond ≤ t.nanos <;> by_cases leap' : nanosPerSecond ≤ u.nanos <;>
    simp only [leap, leap', if_true, if_false] <;> unfold nanosPerSecond at * <;> omega

/-- Readings sort as texts. -/
theorem printSeconds_lt {r s : Reading} (hr : r.Written) (hs : s.Written)
    (h : r.date.Before s.date ∨ r.date = s.date ∧ Earlier r s) :
    printSeconds r ++ '.' :: padded 6 (r.nanos / 1000) ++ ['Z'] <
      printSeconds s ++ '.' :: padded 6 (s.nanos / 1000) ++ ['Z'] := by
  obtain ⟨month, day⟩ := month_and_day_of_onCalendar hs.date
  obtain ⟨first, last⟩ := hs.year
  obtain ⟨hour, minute, second, nanos⟩ := hs.time
  simp only [printSeconds, printYear_eq hr.year, printYear_eq hs.year, List.append_assoc,
    List.cons_append]
  -- the fields stand from the year down, each of a fixed width, so the first that differs decides
  have order : r.date.year.toNat < s.date.year.toNat ∨
      r.date.year.toNat = s.date.year.toNat ∧ (r.date.month < s.date.month ∨
        r.date.month = s.date.month ∧ (r.date.day < s.date.day ∨
          r.date.day = s.date.day ∧ Earlier r s)) := by
    have positive := hr.year.1
    rcases h with (year | ⟨year, month | ⟨month, day⟩⟩) | ⟨date, earlier⟩
    · exact .inl (by omega)
    · exact .inr ⟨by omega, .inl month⟩
    · exact .inr ⟨by omega, .inr ⟨month, .inl day⟩⟩
    · exact .inr ⟨by rw [date], .inr ⟨by rw [date], .inr ⟨by rw [date], earlier⟩⟩⟩
  refine padded_append_lt order (by omega) fun order => ?_
  refine mark_padded_append_lt order (by omega) fun order => ?_
  refine mark_padded_append_lt order (by omega) fun order => ?_
  refine mark_padded_append_lt order (by omega) fun order => ?_
  refine mark_padded_append_lt order (by omega) fun order => ?_
  refine mark_padded_append_lt order (by omega) fun order => ?_
  have micros : s.nanos / 1000 < 10 ^ 6 := by
    unfold nanosPerSecond at nanos
    omega
  exact mark_padded_append_lt (P := False) (.inl order) micros nofun

/-- A later time has a later text. -/
theorem printMicros_lt (ht : t.Stored) (hu : u.Stored) (h : t.before u = true) :
    t.printMicros < u.printMicros := by
  rw [String.lt_iff, printMicros, printMicros, String.toList_ofList, String.toList_ofList]
  refine printSeconds_lt (written_reading ht.years) (written_reading hu.years) ?_
  rcases Int.lt_trichotomy (t.seconds / 86400) (u.seconds / 86400) with less | same | more
  · exact .inl (Day.before_ofNumber less)
  · exact .inr ⟨congrArg Day.ofNumber same, earlier_reading ht hu h same⟩
  · simp only [before, Bool.or_eq_true, Bool.and_eq_true, decide_eq_true_eq, beq_iff_eq] at h
    omega

end Instant

end Runbook
