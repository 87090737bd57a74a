import Mathlib.Data.List.Induction
import Mathlib.Data.List.TakeWhile
import Runbook.Proofs.Calls
import Runbook.Proofs.Reading
import Runbook.Proofs.Spelling
import Runbook.Record.Codec

/-!
# Times that are read

Whatever text a record is read from, its times are such as clocks show. A leap second is given by
the second 60 of a minute, and all offsets are whole minutes, so it comes at the end of a minute in
UTC too.

* `Instant.lt_of_scanFraction`, `Instant.minutes_of_scanOffset` — the two parts of a text on which
  this depends.
* `Instant.regular_of_parse` — so a time that is read is regular.
* `Form.Yields` — what holds of all that a form makes.
* `RunRecord.regular_of_read`, `Visit.regular_of_read` — so all times of a record are.
-/

namespace Runbook

theorem exists_of_map_eq_ok {ε α β : Type} {x : Except ε α} {f : α → β} {b : β}
    (h : x.map f = .ok b) : ∃ a, x = .ok a ∧ f a = b := by
  cases x with
  | error e => cases h
  | ok a => exact ⟨a, rfl, Except.ok.inj h⟩

namespace Instant

variable {s rest : List Char} {n nanos : Nat} {offset : Int} {strict : Bool} {t : Instant}
  {r : Reading}

/-! ## Parts -/

/-- A number is less than the power of ten with as many zeros as it has digits. -/
theorem decimal_lt (digits : ∀ c ∈ s, c.isDigit = true) : decimal s < 10 ^ s.length := by
  induction s using List.reverseRecOn with
  | nil => simp [decimal]
  | append_singleton s c ih =>
    obtain ⟨before, last⟩ := List.forall_mem_append.1 digits
    have digit := (Char.isDigit_iff_toNat.1 (last c (List.mem_singleton_self c))).2
    have nine : '9'.toNat = 57 := rfl
    have zero : '0'.toNat = 48 := rfl
    have less := ih before
    rw [decimal_concat, List.length_append, List.length_singleton, Nat.pow_succ]
    omega

/-- A number that is read has at most so many digits, and they are left out of the rest. -/
theorem length_of_scanNumber {min max : Nat} (h : scanNumber min max s = .ok (n, rest)) :
    ∃ k ≤ max, n < 10 ^ k ∧ s.length - rest.length = k := by
  rw [scanNumber] at h
  split at h
  · cases h
  · dsimp only at h
    split at h
    · cases h
    · split at h
      · cases h
      · obtain ⟨rfl, rfl⟩ := Prod.mk.inj (Except.ok.inj h)
        have taken := (List.takeWhile_sublist (p := Char.isDigit) (l := s.take max)).length_le
        rw [List.length_take] at taken
        refine ⟨((s.take max).takeWhile Char.isDigit).length, by omega, decimal_lt fun c hc => ?_,
          ?_⟩
        · exact List.mem_takeWhile_imp hc
        · rw [List.length_drop]
          omega

/-- A fraction is less than a second: what is missing to nine digits is zeros. -/
theorem lt_of_scanFraction (h : scanFraction s = .ok (nanos, rest)) : nanos < nanosPerSecond := by
  rw [scanFraction.eq_def] at h
  split at h
  · next s =>
    obtain ⟨⟨n, rest'⟩, number, h⟩ := exists_of_bind_eq_ok h
    obtain ⟨k, short, less, used⟩ := length_of_scanNumber number
    obtain ⟨rfl, -⟩ := Prod.mk.inj (Except.ok.inj h)
    have scaled : n * 10 ^ (9 - k) < 10 ^ k * 10 ^ (9 - k) :=
      Nat.mul_lt_mul_of_pos_right less (Nat.pow_pos (by decide))
    rw [← Nat.pow_add, Nat.add_sub_cancel' short] at scaled
    rw [used]
    exact scaled
  · obtain ⟨rfl, -⟩ := Prod.mk.inj (Except.ok.inj h)
    decide

theorem lt_of_scanTime {date : Day} (h : scanTime strict date s = .ok (r, rest)) :
    r.nanos < nanosPerSecond := by
  obtain ⟨⟨hour, s₁⟩, -, h⟩ := exists_of_bind_eq_ok h
  obtain ⟨s₂, -, h⟩ := exists_of_bind_eq_ok h
  obtain ⟨⟨minute, s₃⟩, -, h⟩ := exists_of_bind_eq_ok h
  obtain ⟨s₄, -, h⟩ := exists_of_bind_eq_ok h
  obtain ⟨⟨second, s₅⟩, -, h⟩ := exists_of_bind_eq_ok h
  obtain ⟨⟨nanos, s₆⟩, fraction, h⟩ := exists_of_bind_eq_ok h
  obtain ⟨rfl, -⟩ := Prod.mk.inj (Except.ok.inj h)
  exact lt_of_scanFraction fraction

/-- Offsets are given in hours and minutes. -/
theorem minutes_of_scanOffset (h : scanOffset strict s = .ok (offset, rest)) : offset % 60 = 0 := by
  rw [scanOffset.eq_def] at h
  split at h
  · obtain ⟨rfl, -⟩ := Prod.mk.inj (Except.ok.inj h)
    rfl
  · obtain ⟨rfl, -⟩ := Prod.mk.inj (Except.ok.inj h)
    rfl
  · obtain ⟨⟨negative, s₁⟩, -, h⟩ := exists_of_bind_eq_ok h
    obtain ⟨⟨⟨h₁, h₀⟩, s₂⟩, -, h⟩ := exists_of_bind_eq_ok h
    obtain ⟨s₃, -, h⟩ := exists_of_bind_eq_ok h
    obtain ⟨⟨⟨m₁, m₀⟩, s₄⟩, -, h⟩ := exists_of_bind_eq_ok h
    dsimp only at h
    split at h
    · cases h
    · obtain ⟨rfl, -⟩ := Prod.mk.inj (Except.ok.inj h)
      cases negative <;> simp only [Bool.false_eq_true, if_false, if_true] <;> omega

/-! ## Whole texts -/

/-- Clocks that are whole minutes ahead have their leap seconds when clocks in UTC have them. -/
theorem regular_of_ofReading? (h : ofReading? r offset = some t) (less : r.nanos < nanosPerSecond)
    (minutes : offset % 60 = 0) : t.Regular := by
  simp only [ofReading?] at h
  obtain ⟨seconds, nanos⟩ := ofCount?_eq_some h
  rw [Regular, seconds, nanos]
  by_cases leap : r.second = 60
  · rw [if_pos leap]
    right
    dsimp only
    omega
  · rw [if_neg leap]
    exact .inl less

theorem regular_of_ofScanned (h : ofScanned r offset = .ok t) (less : r.nanos < nanosPerSecond)
    (minutes : offset % 60 = 0) : t.Regular := by
  rw [ofScanned] at h
  dsimp only at h
  split at h
  · cases h
  · obtain ⟨-, -, h⟩ := exists_of_bind_eq_ok h
    obtain ⟨-, -, h⟩ := exists_of_bind_eq_ok h
    split at h
    · cases h
    · next found =>
      split at h
      · obtain rfl := Except.ok.inj h
        exact regular_of_ofReading? found less minutes
      · cases h

/-- A time that is read is such as clocks show. -/
theorem regular_of_parse {text : String} (h : parse text = .ok t) : t.Regular := by
  obtain ⟨⟨date, s₁⟩, -, h⟩ := exists_of_bind_eq_ok h
  obtain ⟨⟨r, s₂⟩, time, h⟩ := exists_of_bind_eq_ok h
  have less := lt_of_scanTime time
  dsimp only at h
  split at h
  · obtain ⟨⟨offset, s₃⟩, zone, h⟩ := exists_of_bind_eq_ok h
    obtain ⟨rfl, -⟩ := Prod.mk.inj (Except.ok.inj zone)
    dsimp only at h
    split at h
    · cases h
    · exact regular_of_ofScanned h less rfl
  · obtain ⟨⟨offset, s₃⟩, zone, h⟩ := exists_of_bind_eq_ok h
    dsimp only at h
    split at h
    · cases h
    · exact regular_of_ofScanned h less (minutes_of_scanOffset zone)

end Instant

/-! ## Forms -/

theorem Draft.mismatch_ne_ok {α : Type} (d : Draft) (expected : String) (a : α) :
    d.mismatch expected ≠ .ok a := by
  intro h
  obtain ⟨found, -, failed⟩ := exists_of_bind_eq_ok h
  cases failed

namespace Form

variable {α β : Type} {form : Form α} {P : α → Prop} {Q : β → Prop} {name : String}

/-- All that the form makes has a property. -/
def Yields (form : Form α) (P : α → Prop) : Prop :=
  ∀ source given a, form.build source given = .ok a → P a

theorem yields_any (form : Form α) : form.Yields fun _ => True := fun _ _ _ _ => trivial

/-- A field has the property if its shape gives it. -/
theorem yields_field {shape : Shape α}
    (h : ∀ source d a, shape.decode source d = .ok a → P a) : (field name shape).Yields P := by
  intro source given a made
  simp only [field, single] at made
  split at made
  · exact h _ _ _ made
  · cases made

/-- An optional one has it if there is a value. -/
theorem yields_optional {shape : Shape α}
    (h : ∀ source d a, shape.decode source d = .ok a → P a) :
    (optional name shape).Yields fun o => ∀ a ∈ o, P a := by
  intro source given o made
  simp only [optional, single, Shape.option] at made
  split at made
  · split at made
    · obtain rfl := Except.ok.inj made
      simp
    · cases made
    · obtain ⟨a, value, rfl⟩ := exists_of_map_eq_ok made
      simpa using h _ _ _ value
  · obtain rfl := Except.ok.inj made
    simp

theorem Yields.map {g : α → β} (h : form.Yields P) (imp : ∀ a, P a → Q (g a)) :
    (g <$> form).Yields Q := by
  intro source given b made
  obtain ⟨a, value, rfl⟩ := exists_of_map_eq_ok (x := form.build source given) made
  exact imp a (h _ _ _ value)

/-- What is made of a function and a value has the property if the function gives it to all values
that the form can make. -/
theorem Yields.seq {f : Form (α → β)} (hf : f.Yields fun g => ∀ a, P a → Q (g a))
    (hx : form.Yields P) : (f <*> form).Yields Q := by
  intro source given b made
  obtain ⟨g, function, made⟩ := exists_of_bind_eq_ok (x := f.build source given) made
  obtain ⟨a, value, rfl⟩ := exists_of_map_eq_ok (x := form.build source given) made
  exact hf _ _ _ function a (hx _ _ _ value)

/-- A record that is read is made by its form. -/
theorem Yields.of_read (h : form.Yields P) {text : String} {a : α}
    (read : Json.read (form.record name) text = .ok a) : P a := by
  obtain ⟨d, decoded⟩ := Json.exists_decode_of_read read
  simp only [record] at decoded
  split at decoded
  · obtain ⟨inner, -, decoded⟩ := exists_of_bind_eq_ok decoded
    obtain ⟨-, -, decoded⟩ := exists_of_bind_eq_ok decoded
    obtain ⟨-, -, decoded⟩ := exists_of_bind_eq_ok decoded
    exact h _ _ _ decoded
  · obtain ⟨inner, -, decoded⟩ := exists_of_bind_eq_ok decoded
    obtain ⟨excess, -, decoded⟩ := exists_of_bind_eq_ok decoded
    obtain ⟨a, made, decoded⟩ := exists_of_bind_eq_ok decoded
    obtain ⟨-, -, decoded⟩ := exists_of_bind_eq_ok decoded
    obtain rfl := Except.ok.inj decoded
    exact h _ _ _ made
  · exact absurd decoded (Draft.mismatch_ne_ok _ _ _)

end Form

/-! ## Records -/

theorem Instant.regular_of_decode (source : Source) (d : Draft) (t : Instant)
    (h : Instant.shape.decode source d = .ok t) : t.Regular := by
  simp only [Instant.shape, Shape.formatted] at h
  split at h
  · next text =>
    cases read : Instant.parse text with
    | error e =>
      rw [read] at h
      cases h
    | ok u =>
      rw [read] at h
      obtain rfl := Except.ok.inj h
      exact Instant.regular_of_parse read
  · exact absurd h (Draft.mismatch_ne_ok _ _ _)

/-- A run that is read has times that clocks show. -/
theorem RunRecord.regular_of_read {text : String} {r : RunRecord}
    (read : Json.read RunRecord.shape text = .ok r) : r.EveryTime Instant.Regular := by
  have time (name : String) : (Form.field name Instant.shape).Yields Instant.Regular :=
    Form.yields_field Instant.regular_of_decode
  suffices yields : RunRecord.form.Yields fun a => a.EveryTime Instant.Regular from
    yields.of_read read
  refine .seq (.seq (.seq (.seq (.seq (.seq (.seq (.seq (.map (Form.yields_any _) ?_)
    (Form.yields_any _)) (Form.yields_any _)) (Form.yields_any _)) (Form.yields_any _))
    (Form.yields_any _)) (Form.yields_any _)) (time _)) (time _)
  rintro id - name - bizId - bizType - tenantId - status - context - created first updated last
  exact ⟨first, last⟩

/-- So has a visit. -/
theorem Visit.regular_of_read {text : String} {v : Visit}
    (read : Json.read Visit.shape text = .ok v) : v.EveryTime Instant.Regular := by
  suffices yields : Visit.form.Yields fun a => a.EveryTime Instant.Regular from yields.of_read read
  refine .seq (.seq (.seq (.seq (.seq (.seq (.seq (.seq (.seq (.seq (.map (Form.yields_any _) ?_)
    (Form.yields_any _)) (Form.yields_any _)) (Form.yields_any _)) (Form.yields_any _))
    (Form.yields_any _)) (Form.yields_any _)) (Form.yields_any _)) (Form.yields_any _))
    (Form.yields_field Instant.regular_of_decode)) (Form.yields_optional Instant.regular_of_decode)
  rintro id - parentId - bizId - tenantId - name - status - result - kind - operationId -
    start first stop last
  exact ⟨first, last⟩

end Runbook
