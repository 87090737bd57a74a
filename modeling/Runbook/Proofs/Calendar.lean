import Mathlib.Data.Int.SuccPred
import Mathlib.Order.Monotone.Basic
import Mathlib.Tactic.IntervalCases
import Runbook.Instant

/-!
# The calendar

The dates of days are right: every day has a date of the calendar, from which it can be told, and
later days have later dates.

* `Day.marchStart` — the day on which the March of a year begins. Years are counted from there, so
  that the leap day is the last one.
* `Day.Counted`, `Day.counted_ofNumber` — the date of a day, by the year and the month from March.
* `Day.toNumber_ofNumber`, `Day.onCalendar_ofNumber`, `Day.before_ofNumber`.
-/

namespace Runbook

namespace Day

variable {n m year : Int}

theorem isLeap_iff (year : Int) :
    isLeap year = true ↔ year % 4 = 0 ∧ (year % 100 ≠ 0 ∨ year % 400 = 0) := by
  simp [isLeap]

/-! ## Years from March -/

/-- The days from the March of the year 0 to the March of a year. -/
def marchStart (year : Int) : Int := 365 * year + year / 4 - year / 100 + year / 400

/-- A year from March has a leap day in the end if the next year has one. -/
theorem marchStart_succ (year : Int) :
    marchStart (year + 1) = marchStart year + 365 + if isLeap (year + 1) then 1 else 0 := by
  unfold marchStart
  split
  · next leap =>
    rw [isLeap_iff] at leap
    omega
  · next leap =>
    rw [isLeap_iff] at leap
    omega

theorem marchStart_mono (h : n ≤ m) : marchStart n ≤ marchStart m := by
  refine monotone_int_of_le_succ (fun year => ?_) h
  rw [marchStart_succ]
  split <;> omega

/-- The calendar repeats itself. -/
theorem marchStart_cycle (cycle year : Int) :
    marchStart (cycle * 400 + year) = cycle * 146097 + marchStart year := by
  have fourth : (cycle * 400 + year) / 4 = cycle * 100 + year / 4 := by omega
  have century : (cycle * 400 + year) / 100 = cycle * 4 + year / 100 := by omega
  have whole : (cycle * 400 + year) / 400 = cycle + year / 400 := by omega
  rw [marchStart, marchStart, fourth, century, whole]
  omega

/-- What the year of a day in its cycle is computed from. -/
def yearDays (d : Int) : Int := d - d / 1460 + d / 36524 - d / 146096

theorem yearDays_mono (h : n ≤ m) : yearDays n ≤ yearDays m := by
  refine monotone_int_of_le_succ (fun d => ?_) h
  unfold yearDays
  omega

/-- The first and the last day of every year of a cycle. -/
theorem yearDays_bounds (h₀ : 0 ≤ year) (h₁ : year < 400) :
    365 * year ≤ yearDays (marchStart year) ∧
      yearDays (marchStart (year + 1) - 1) ≤ 365 * year + 364 := by
  have all : ∀ y : Fin 400, 365 * (y : Int) ≤ yearDays (marchStart y) ∧
      yearDays (marchStart (y + 1) - 1) ≤ 365 * (y : Int) + 364 := by
    decide +kernel
  have here := all ⟨year.toNat, by omega⟩
  rwa [show (((⟨year.toNat, by omega⟩ : Fin 400) : Nat) : Int) = year by simp [h₀]] at here

/-- A day of a cycle lies in the year that is computed for it: in another one it would have been
computed to lie there, because the computed years grow with the days. -/
theorem marchStart_yearDays {d : Int} (h₀ : 0 ≤ d) (h₁ : d < cycleDays) :
    0 ≤ yearDays d / 365 ∧ yearDays d / 365 < 400 ∧ marchStart (yearDays d / 365) ≤ d ∧
      d < marchStart (yearDays d / 365 + 1) := by
  unfold cycleDays at h₁
  have inRange : 0 ≤ yearDays d / 365 ∧ yearDays d / 365 < 400 := by
    unfold yearDays
    omega
  obtain ⟨low, high⟩ := inRange
  generalize hy : yearDays d / 365 = y at low high ⊢
  refine ⟨low, high, ?_, ?_⟩
  · by_contra early
    have first : y ≠ 0 := by
      rintro rfl
      exact early h₀
    have bound := (@yearDays_bounds (y - 1) (by omega) (by omega)).2
    rw [Int.sub_add_cancel] at bound
    have grows : yearDays d ≤ yearDays (marchStart y - 1) := yearDays_mono (by omega)
    omega
  · by_contra late
    have last : y ≠ 399 := by
      rintro rfl
      have : marchStart (399 + 1) = 146097 := by decide
      omega
    have bound := (@yearDays_bounds (y + 1) (by omega) (by omega)).1
    have grows : yearDays (marchStart (y + 1)) ≤ yearDays d := yearDays_mono (by omega)
    omega

/-! ## Dates -/

/-- The days of a year before a month; months are counted from March. -/
def monthStart (month : Int) : Int := (153 * month + 2) / 5

/-- The day `n` is that day of that month of the year; months and years are counted from March. -/
structure Counted (n year month day : Int) : Prop where
  /-- the months are counted from 0 -/
  ofYear : 0 ≤ month ∧ month ≤ 11
  /-- the days are counted from 1, and end before the next month, or year -/
  ofMonth : 1 ≤ day ∧ day ≤ monthStart (month + 1) - monthStart month ∧
    marchStart year + monthStart month + day ≤ marchStart (year + 1)
  /-- the day is found so -/
  number : n + epochOffset = marchStart year + monthStart month + day - 1

/-- The date of such a day. The months before March belong to the next year. -/
def ofMarch (year month day : Int) : Day :=
  if month < 10 then ⟨year, (month + 3).toNat, day.toNat⟩
  else ⟨year + 1, (month - 9).toNat, day.toNat⟩

/-- The date that is computed is that of the day. -/
theorem counted_ofNumber (n : Int) : ∃ year month day, Counted n year month day ∧
    ofNumber n = ofMarch year month day := by
  -- days are counted from a cycle of 400 years, then within its years
  have inCycle : 0 ≤ (n + epochOffset) % cycleDays ∧ (n + epochOffset) % cycleDays < cycleDays := by
    unfold cycleDays
    omega
  obtain ⟨low, high, starts, ends⟩ := marchStart_yearDays inCycle.1 inCycle.2
  unfold yearDays at low high starts ends
  generalize hd : (n + epochOffset) % cycleDays = d at *
  generalize hq : (n + epochOffset) / cycleDays = q
  generalize hy : (d - d / 1460 + d / 36524 - d / 146096) / 365 = y at *
  have count : n + epochOffset = q * 146097 + d := by
    unfold cycleDays at hd hq
    omega
  have cycle := marchStart_cycle q y
  have cycle' := marchStart_cycle q (y + 1)
  rw [← Int.add_assoc] at cycle'
  have start : marchStart y = 365 * y + y / 4 - y / 100 := by
    unfold marchStart
    omega
  have length := marchStart_succ y
  -- the day of the year, from the first of March
  generalize hdoy : d - (365 * y + y / 4 - y / 100) = doy
  have inYear : 0 ≤ doy ∧ doy ≤ 365 := by
    split at length <;> omega
  generalize hm : (5 * doy + 2) / 153 = m
  refine ⟨q * 400 + y, m, doy - (153 * m + 2) / 5 + 1, ⟨by omega, ?_, ?_⟩, ?_⟩
  · rw [cycle, cycle']
    unfold monthStart
    omega
  · rw [cycle, count]
    unfold monthStart
    omega
  -- January and February belong to the year before
  · simp only [ofNumber, ofMarch, hd, hq, hy, hdoy, hm]
    by_cases late : m < 10
    · rw [if_pos late, if_pos late, if_neg (by omega)]
      simp only [Day.mk.injEq, and_true]
      omega
    · rw [if_neg late, if_neg late, if_pos (by omega)]
      simp only [Day.mk.injEq, and_true]
      omega

/-- The number of such a date. -/
theorem toNumber_ofMarch {month day : Int} (h : 0 ≤ month ∧ month ≤ 11) (hd : 1 ≤ day) :
    (ofMarch year month day).toNumber + epochOffset =
      marchStart year + monthStart month + day - 1 := by
  have cycle := marchStart_cycle (year / 400) (year % 400)
  have whole : year / 400 * 400 + year % 400 = year := by omega
  have first : marchStart (year % 400) =
      year % 400 * 365 + year % 400 / 4 - year % 400 / 100 := by
    unfold marchStart
    omega
  rw [whole, first] at cycle
  rw [cycle, ofMarch]
  unfold monthStart
  split
  · have late : ¬ (month + 3).toNat ≤ 2 := by omega
    have hm : ((month + 3).toNat : Int) - 3 = month := by omega
    have hday : (day.toNat : Int) = day := by omega
    simp only [toNumber, cycleDays, if_neg late, hm, hday]
    omega
  · have early : (month - 9).toNat ≤ 2 := by omega
    have hm : ((month - 9).toNat : Int) + 9 = month := by omega
    have hday : (day.toNat : Int) = day := by omega
    simp only [toNumber, cycleDays, if_pos early, hm, hday, Int.add_sub_cancel]
    omega

/-- A day can be told from its date. -/
theorem toNumber_ofNumber (n : Int) : (ofNumber n).toNumber = n := by
  obtain ⟨year, month, day, counted, date⟩ := counted_ofNumber n
  have number := counted.number
  have back := @toNumber_ofMarch year _ _ counted.ofYear counted.ofMonth.1
  rw [date]
  omega

/-- Every day has a date of the calendar. -/
theorem onCalendar_ofNumber (n : Int) : (ofNumber n).onCalendar = true := by
  obtain ⟨year, month, day, counted, date⟩ := counted_ofNumber n
  obtain ⟨low, high⟩ := counted.ofYear
  obtain ⟨first, last, inYear⟩ := counted.ofMonth
  rw [marchStart_succ] at inYear
  unfold monthStart at last inYear
  rw [date, ofMarch]
  -- the length of each month is looked up
  interval_cases month <;> simp [onCalendar, monthLength] at * <;> grind

/-- One date comes before another one. -/
def Before (d e : Day) : Prop :=
  d.year < e.year ∨ d.year = e.year ∧ (d.month < e.month ∨ d.month = e.month ∧ d.day < e.day)

/-- A later day has a later date. -/
theorem before_ofNumber (h : n < m) : (ofNumber n).Before (ofNumber m) := by
  obtain ⟨year, month, day, ⟨⟨low, high⟩, ⟨first, last, inYear⟩, number⟩, date⟩ :=
    counted_ofNumber n
  obtain ⟨year', month', day', ⟨⟨low', high'⟩, ⟨first', last', inYear'⟩, number'⟩, date'⟩ :=
    counted_ofNumber m
  have atStart : 0 ≤ monthStart month := by
    unfold monthStart
    omega
  have years : year ≤ year' := by
    by_contra later
    have ordered : marchStart (year' + 1) ≤ marchStart year := marchStart_mono (by omega)
    omega
  have months : year = year' → month < month' ∨ month = month' ∧ day < day' := by
    rintro rfl
    have ordered : month' < month → monthStart (month' + 1) ≤ monthStart month := by
      unfold monthStart
      omega
    by_cases same : month = month'
    · subst same
      exact .inr ⟨rfl, by omega⟩
    · exact .inl (by omega)
  rw [date, date', ofMarch, ofMarch]
  -- a month before March belongs to the next year
  split <;> split <;> simp only [Before] <;> omega

end Day

end Runbook
