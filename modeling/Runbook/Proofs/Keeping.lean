import Runbook.Proofs.Atomicity
import Runbook.Proofs.Sweep

/-!
# What the relational store keeps

Times are stored as texts, and of a time that clocks show only what is smaller than a microsecond is
lost by that. So a record is read as it was written, up to its microseconds, and sorting by the
texts is sorting by the times.

* `Instant.Kept` — a time and its text.
* `Relational.ReadsRun`, `Relational.ReadsVisit` — a record is what is read of the store.
* `Relational.ShowsUpdate` — what is read after an update, of a row that is new and of one that is
  written over.
* `Relational.Printed` — the times of creation are texts of times, and so their order is that of
  the texts.
* `Relational.Keeps`, `Relational.keeps_of_performAll` — what is read of the records that the store
  accepts, and in which order, after any calls.
* `Relational.redated_differs` — a record that is written over another one is not read as a whole,
  and a time that no clock shows is read as another one.
-/

namespace Runbook

/-! ## Times -/

namespace Instant

variable {t u : Instant}

/-- All stored texts have one length. -/
theorem length_printMicros (h : t.FourDigits) : t.printMicros.length = 27 := by
  obtain ⟨year, date, hour, minute, second, nanos⟩ := written_reading h
  obtain ⟨month, day⟩ := month_and_day_of_onCalendar date
  have two {n : Nat} (small : n < 100) : (padded 2 n).length = 2 := length_padded small
  have four : (padded 4 t.reading.date.year.toNat).length = 4 := length_padded (by omega)
  have six : (padded 6 (t.reading.nanos / 1000)).length = 6 := by
    apply length_padded
    unfold nanosPerSecond at nanos
    omega
  rw [← String.length_toList, printMicros, String.toList_ofList]
  simp [printSeconds, printYear_eq year, four, six, two (n := t.reading.date.month) (by omega),
    two (n := t.reading.date.day) (by omega), two (n := t.reading.hour) (by omega),
    two (n := t.reading.minute) (by omega), two (n := t.reading.second) (by omega)]

/-- Texts sort as the times do that are read of them. -/
theorem printMicros_lt_iff (ht : t.FourDigits) (hu : u.FourDigits) :
    t.printMicros < u.printMicros ↔ t.asStored.before u.asStored = true := by
  constructor
  · intro less
    rcases before_of_printMicros_le ht hu (String.not_lt.1 (String.lt_asymm less)) with
      earlier | ⟨-, same⟩
    · exact earlier
    · exact absurd (same ▸ less) (String.lt_irrefl _)
  · intro earlier
    have less := printMicros_lt (stored_asStored ht) (stored_asStored hu) earlier
    rwa [printMicros_asStored, printMicros_asStored] at less

/-- A text that begins with a sign is no time. -/
theorem parseStrict_cons_ne_ok {c : Char} {s : List Char} (sign : c.isDigit = false) :
    parseStrict (String.ofList (c :: s)) ≠ .ok u := by
  have number : scanNumber 4 4 (c :: s) = .error .premature ∨
      scanNumber 4 4 (c :: s) = .error .invalid := by
    rw [scanNumber]
    split
    · exact .inl rfl
    · simp [sign]
  rcases number with failed | failed <;>
    simp [parseStrict, scanDate, scanYear, failed, bind, Except.bind]

/-- Only times with years of four digits can be read. -/
theorem readStored_printMicros_iff :
    readStored t.printMicros = .ok u ↔ t.FourDigits ∧ u = t.asStored := by
  by_cases years : t.FourDigits
  · rw [readStored, parseStrict_printMicros years]
    simp [years, Except.mapError, eq_comm]
  · have sign : ∃ c s, c.isDigit = false ∧ t.printMicros = String.ofList (c :: s) := by
      have year : ¬ (0 ≤ t.reading.date.year ∧ t.reading.date.year ≤ 9999) := years
      rw [printMicros, printSeconds, printYear, if_neg year]
      split
      · exact ⟨'-', _, rfl, rfl⟩
      · exact ⟨'+', _, rfl, rfl⟩
    obtain ⟨c, s, sign, text⟩ := sign
    rw [text, readStored]
    cases read : parseStrict (String.ofList (c :: s)) with
    | error e => simp [years, Except.mapError]
    | ok u' => exact absurd read (parseStrict_cons_ne_ok sign)

/-- Of two texts in order, the second is not read as the earlier time. -/
theorem before_eq_false_of_le {a b : Instant} (h : t.printMicros ≤ u.printMicros)
    (ha : readStored t.printMicros = .ok a) (hb : readStored u.printMicros = .ok b) :
    b.before a = false := by
  obtain ⟨ht, rfl⟩ := readStored_printMicros_iff.1 ha
  obtain ⟨hu, rfl⟩ := readStored_printMicros_iff.1 hb
  rw [Bool.eq_false_iff, ne_eq, ← printMicros_lt_iff hu ht]
  exact String.not_lt.2 h

/-- What is stored of two times that clocks show. -/
structure Kept (t u : Instant) : Prop where
  /-- a text is read as the time up to its microseconds -/
  read : readStored t.printMicros = .ok t.truncateMicros
  /-- all texts have one length -/
  length : t.printMicros.length = 27
  /-- one text is less than the other if its time is earlier -/
  order : t.printMicros < u.printMicros ↔ t.truncateMicros.before u.truncateMicros = true

/-- Such times are told apart by their texts and come in the same order, as the texts have one
width. For years of more digits this would not hold. -/
theorem kept (ht : t.Civil) (hu : u.Civil) : t.Kept u where
  read := asStored_of_regular ht.regular ▸ readStored_printMicros_iff.2 ⟨ht.years, rfl⟩
  length := length_printMicros ht.years
  order := asStored_of_regular ht.regular ▸ asStored_of_regular hu.regular ▸
    printMicros_lt_iff ht.years hu.years

end Instant

/-- The record with times of whole microseconds. -/
def RunRecord.truncate (r : RunRecord) : RunRecord :=
  { r with createdAt := r.createdAt.truncateMicros, updatedAt := r.updatedAt.truncateMicros }

/-- The record with times of whole microseconds. -/
def Visit.truncate (v : Visit) : Visit :=
  { v with
    startTime := v.startTime.truncateMicros, endTime := v.endTime.map Instant.truncateMicros }

/-- If clocks show its times, the record is read so. -/
theorem RunRecord.asStored_eq_truncate {r : RunRecord} (times : r.EveryTime Instant.Civil) :
    r.asStored = r.truncate := by
  rw [asStored, Instant.asStored_of_regular times.1.regular,
    Instant.asStored_of_regular times.2.regular, truncate]

/-- So it is with a visit. -/
theorem Visit.asStored_eq_truncate {v : Visit} (times : v.EveryTime Instant.Civil) :
    v.asStored = v.truncate := by
  have ended : v.endTime.map Instant.asStored = v.endTime.map Instant.truncateMicros :=
    Option.map_congr fun t ht => Instant.asStored_of_regular (times.2 t ht).regular
  rw [asStored, Instant.asStored_of_regular times.1.regular, ended, truncate]

/-! ## Rows -/

section

variable {α : Type} {key : α → String} {merge : α → α → α} {l new : List α} {a b : α} {k : String}

/-- Who is not written to is found as before. -/
theorem find?_foldl_upsert_of_ne (keeps : ∀ b a, key (merge b a) = key b)
    (other : k ∉ new.map key) :
    (new.foldl (upsert key merge) l).find? (key · == k) = l.find? (key · == k) := by
  induction new generalizing l with
  | nil => rfl
  | cons a new ih =>
    rw [List.map_cons, List.mem_cons, not_or] at other
    rw [List.foldl_cons, ih other.2, find?_upsert keeps, if_neg (Ne.symm other.1)]

/-- Of several records, one that nothing else is written over is stored: as it is if its key is
new, and else over what was stored. -/
theorem find?_foldl_upsert (keeps : ∀ b a, key (merge b a) = key b) (self : merge a a = a)
    (twice : ∀ b, merge (merge b a) a = merge b a) (h : a ∈ new)
    (alone : ∀ b ∈ new, key b = key a → b = a) :
    (new.foldl (upsert key merge) l).find? (key · == key a) =
      some ((l.find? (key · == key a)).elim a (merge · a)) := by
  induction new generalizing l with
  | nil => cases h
  | cons c new ih =>
    obtain ⟨here, rest⟩ := List.forall_mem_cons.1 alone
    rw [List.foldl_cons]
    by_cases again : a ∈ new
    · rw [ih again rest, find?_upsert keeps]
      by_cases same : key c = key a
      · obtain rfl := here same
        cases found : l.find? (key · == key c) <;> simp [self, twice]
      · rw [if_neg same]
    · obtain rfl := (List.mem_cons.1 h).resolve_right again
      have other : key a ∉ new.map key := by
        intro listed
        obtain ⟨b, hb, same⟩ := List.mem_map.1 listed
        exact again (rest b hb same ▸ hb)
      rw [find?_foldl_upsert_of_ne keeps other, find?_upsert keeps, if_pos rfl]

/-- To sort by a text is to sort by an order: it is transitive, -/
theorem ascending_trans (text : α → String) (a b c : α) (hab : decide (text a ≤ text b) = true)
    (hbc : decide (text b ≤ text c) = true) : decide (text a ≤ text c) = true :=
  descending_trans text c b a hbc hab

/-- and any two can be compared. -/
theorem ascending_total (text : α → String) (a b : α) :
    (decide (text a ≤ text b) || decide (text b ≤ text a)) = true := descending_total text b a

end

section

variable {row new : RunRow} {r old : RunRecord}

/-- A row keeps its ID when it is written over, -/
theorem RunRow.id_overwrite (row new : RunRow) : (row.overwrite new).id = row.id := rfl

/-- also the row of a visit. -/
theorem VisitRow.id_overwrite (row new : VisitRow) : (row.overwrite new).id = row.id := rfl

/-- A row is read column by column. -/
theorem RunRow.toRecord_eq_ok : row.toRecord = .ok r ↔
    ∃ createdAt updatedAt, readStored row.createdAt = .ok createdAt ∧
      readStored row.updatedAt = .ok updatedAt ∧
      r = ⟨row.id, row.name, row.bizId, row.bizType, row.tenantId, row.status, row.context,
        createdAt, updatedAt⟩ := by
  rw [toRecord]
  cases readStored row.createdAt <;> cases readStored row.updatedAt <;>
    simp [bind, Except.bind, pure, Except.pure, eq_comm]

/-- So is a row of a visit. -/
theorem VisitRow.toVisit_eq_ok {row : VisitRow} {v : Visit} : row.toVisit = .ok v ↔
    ∃ startTime endTime, readStored row.startTime = .ok startTime ∧
      readStoredOption row.endTime = .ok endTime ∧
      v = ⟨row.id, row.parentId, row.bizId, row.tenantId, row.name, row.status, row.result,
        row.kind, row.operationId, startTime, endTime⟩ := by
  rw [toVisit]
  cases readStored row.startTime <;> cases readStoredOption row.endTime <;>
    simp [bind, Except.bind, pure, Except.pure, eq_comm]

/-- What is read of a row that a run is written over. -/
theorem RunRow.toRecord_overwrite (read : row.toRecord = .ok old)
    (times : r.EveryTime Instant.FourDigits) :
    (row.overwrite (.ofRecord r)).toRecord = .ok (old.overwrite r.asStored) := by
  obtain ⟨createdAt, _, created, -, rfl⟩ := toRecord_eq_ok.1 read
  obtain ⟨_, updatedAt, -, updated, same⟩ := toRecord_eq_ok.1 (RunRecord.toRecord_ofRecord times)
  refine toRecord_eq_ok.2 ⟨createdAt, updatedAt, created, updated, ?_⟩
  have time : r.asStored.updatedAt = updatedAt := congrArg RunRecord.updatedAt same
  simp [RunRecord.overwrite, overwrite, ofRecord, ← time, RunRecord.asStored]

/-- A visit that was written over is read with the columns of both writes: those that a visit
changes are of the second one. -/
theorem VisitRow.toVisit_overwrite {row : VisitRow} {v old : Visit} (read : row.toVisit = .ok old)
    (times : v.EveryTime Instant.FourDigits) :
    (row.overwrite (.ofVisit v)).toVisit = .ok (old.overwrite v.asStored) := by
  obtain ⟨startTime, _, started, -, rfl⟩ := toVisit_eq_ok.1 read
  obtain ⟨_, endTime, -, ended, same⟩ := toVisit_eq_ok.1 (Visit.toVisit_ofVisit times)
  refine toVisit_eq_ok.2 ⟨startTime, endTime, started, ended, ?_⟩
  have time : v.asStored.endTime = endTime := congrArg Visit.endTime same
  simp [Visit.overwrite, overwrite, ofVisit, ← time, Visit.asStored]

end

namespace Relational

variable {t t' : Relational} {rs : List RunRecord} {vs ws : List Visit} {r old : RunRecord}
  {v w : Visit}

/-! ### Reading several rows -/

section

variable {ρ α : Type} {read : ρ → Except EngineError α} {row : ρ} {rows : List ρ} {l : List α}

/-- Rows are read if the first one can be and the others can. -/
theorem readRows_cons_eq_ok : readRows read (row :: rows) = .ok l ↔
    ∃ a as, read row = .ok a ∧ readRows read rows = .ok as ∧ l = a :: as := by
  rw [readRows]
  cases read row <;> cases readRows read rows <;>
    simp [bind, Except.bind, pure, Except.pure, eq_comm]

/-- What is read of rows in some order is in such an order. -/
theorem pairwise_of_readRows {R : ρ → ρ → Prop} {S : α → α → Prop}
    (order : rows.Pairwise R) (answer : readRows read rows = .ok l)
    (imp : ∀ x ∈ rows, ∀ y ∈ rows, R x y → ∀ a b, read x = .ok a → read y = .ok b → S a b) :
    l.Pairwise S ∧ ∀ a ∈ l, ∃ x ∈ rows, read x = .ok a := by
  induction rows generalizing l with
  | nil =>
    cases answer
    exact ⟨.nil, by simp⟩
  | cons x rows ih =>
    obtain ⟨a, as, first, rest, rfl⟩ := readRows_cons_eq_ok.1 answer
    obtain ⟨here, later⟩ := List.pairwise_cons.1 order
    obtain ⟨sorted, source⟩ := ih later rest fun y hy z hz =>
      imp y (List.mem_cons_of_mem _ hy) z (List.mem_cons_of_mem _ hz)
    refine ⟨List.pairwise_cons.2 ⟨fun b hb => ?_, sorted⟩, ?_⟩
    · obtain ⟨y, hy, second⟩ := source b hb
      exact imp x List.mem_cons_self y (List.mem_cons_of_mem _ hy) (here y hy) a b first second
    · refine List.forall_mem_cons.2 ⟨⟨x, List.mem_cons_self, first⟩, fun b hb => ?_⟩
      obtain ⟨y, hy, second⟩ := source b hb
      exact ⟨y, List.mem_cons_of_mem _ hy, second⟩

end

/-! ### What is read -/

/-- This run is read by its ID. -/
def ReadsRun (t : Relational) (r : RunRecord) : Prop := t.get r.id = .ok (some r)

instance : Decidable (t.ReadsRun r) := inferInstanceAs (Decidable (_ = _))

/-- What is read of a run is read of the row that is found by its ID. -/
theorem readsRun_iff : t.ReadsRun r ↔
    ∃ row, t.runs.find? (·.id == r.id) = some row ∧ row.toRecord = .ok r := by
  rw [ReadsRun, get]
  cases t.runs.find? (·.id == r.id) with
  | none => simp
  | some row => cases read : row.toRecord <;> simp [Except.map, read]

/-- This visit is what is read of the row with its ID. -/
def ReadsVisit (t : Relational) (v : Visit) : Prop :=
  ∃ row, t.visits.find? (·.id == v.id) = some row ∧ row.toVisit = .ok v

/-- Of some rows, the first with an ID is read first of those with it. -/
theorem find?_of_readRows {p : VisitRow → Bool} {rows : List VisitRow} {row : VisitRow}
    (found : rows.find? (·.id == v.id) = some row) (passes : p row = true)
    (read : row.toVisit = .ok v) (answer : readRows VisitRow.toVisit (rows.filter p) = .ok vs) :
    vs.find? (·.id == v.id) = some v := by
  induction rows generalizing vs with
  | nil => cases found
  | cons x rows ih =>
    rw [List.find?_cons] at found
    split at found
    · obtain rfl := Option.some.inj found
      rw [List.filter_cons_of_pos passes] at answer
      obtain ⟨a, as, first, -, rfl⟩ := readRows_cons_eq_ok.1 answer
      obtain rfl : v = a := Except.ok.inj (read.symm.trans first)
      simp
    · next other =>
      by_cases inside : p x = true
      · rw [List.filter_cons_of_pos inside] at answer
        obtain ⟨a, as, first, rest, rfl⟩ := readRows_cons_eq_ok.1 answer
        obtain ⟨_, _, -, -, rfl⟩ := VisitRow.toVisit_eq_ok.1 first
        rw [List.find?_cons_of_neg (by simpa using other)]
        exact ih found rest
      · rw [List.filter_cons_of_neg inside] at answer
        exact ih found answer

/-- Whoever reads the visits of its run finds it under its ID. -/
theorem ReadsVisit.shown (h : t.ReadsVisit v) {d : RunDetail}
    (answer : t.detail v.parentId = .ok (some d)) : d.visits.find? (·.id == v.id) = some v := by
  obtain ⟨row, found, read⟩ := h
  have parent : row.parentId = v.parentId := by
    obtain ⟨_, _, -, -, rfl⟩ := VisitRow.toVisit_eq_ok.1 read
    rfl
  rw [detail] at answer
  cases got : t.get v.parentId with
  | error e => simp [got, bind, Except.bind] at answer
  | ok run =>
    cases run with
    | none => simp [got, bind, Except.bind, pure, Except.pure] at answer
    | some run =>
      cases visits : readRows VisitRow.toVisit (t.visits.filter (·.parentId == v.parentId)) with
      | error e => simp [got, visits, bind, Except.bind] at answer
      | ok vs =>
        simp only [got, visits, bind, Except.bind, pure, Except.pure, Except.ok.injEq,
          Option.some.injEq] at answer
        subst answer
        exact find?_of_readRows found (by simp [parent]) read visits

/-! ### What is written -/

/-- There is none if there is no such run, -/
theorem find?_runs_eq_none : t.runs.find? (·.id == r.id) = none ↔ t.hasRun r.id = false := by
  simp [hasRun]

/-- or no such visit. -/
theorem find?_visits_eq_none : t.visits.find? (·.id == v.id) = none ↔ t.hasVisit v.id = false := by
  simp [hasVisit]

/-- A run that was accepted is new, and its row comes last. -/
theorem createRun_eq (accepted : (t.createRun r).1 = .ok ()) :
    t.hasRun r.id = false ∧ (t.createRun r).2 = { t with runs := t.runs ++ [.ofRecord r] } := by
  rw [createRun] at accepted ⊢
  split at accepted
  · cases accepted
  · next fresh => exact ⟨by simpa using fresh, by rw [if_neg fresh]⟩

/-- So it is with a visit. -/
theorem createVisit_eq (accepted : (t.createVisit v).1 = .ok ()) :
    t.hasVisit v.id = false ∧
      (t.createVisit v).2 = { t with visits := t.visits ++ [.ofVisit v] } := by
  rw [createVisit] at accepted ⊢
  split at accepted
  · cases accepted
  · next fresh =>
    split at accepted
    · cases accepted
    · next parent => exact ⟨by simpa using fresh, by rw [if_neg fresh, if_neg parent]⟩

/-- An update that was accepted has written all of its rows, and its run was there or is new. -/
theorem update_eq (accepted : (t.update r ws).1 = .ok ()) : (t.update r ws).2 =
    { runs := upsert RunRow.id RunRow.overwrite t.runs (.ofRecord r)
      visits := (ws.map .ofVisit).foldl (upsert VisitRow.id VisitRow.overwrite) t.visits } := by
  obtain ⟨t', written, after⟩ := exists_of_update_eq_ok accepted
  rw [after, upsertVisits_eq_ok written, upsertRun_eq]

/-- What a call does not write stays. -/
theorem find?_perform (t : Relational) (q : StoreRequest) :
    (∀ id ∉ q.runs.map RunRecord.id,
      (q.perform t).2.runs.find? (·.id == id) = t.runs.find? (·.id == id)) ∧
    ∀ id ∉ q.visits.map Visit.id,
      (q.perform t).2.visits.find? (·.id == id) = t.visits.find? (·.id == id) := by
  have unchanged {t' : Relational} (same : t' = t) :
      (∀ id ∉ q.runs.map RunRecord.id,
        t'.runs.find? (·.id == id) = t.runs.find? (·.id == id)) ∧
      ∀ id ∉ q.visits.map Visit.id,
        t'.visits.find? (·.id == id) = t.visits.find? (·.id == id) := by
    subst same
    exact ⟨fun _ _ => rfl, fun _ _ => rfl⟩
  -- a call that is refused changes nothing; one that is accepted writes rows with its own IDs
  cases q with
  | createRun r =>
    cases answer : (t.createRun r).1 with
    | error e => exact unchanged (createRun_of_error answer)
    | ok =>
      change (∀ id ∉ _, (t.createRun r).2.runs.find? _ = _) ∧
        ∀ id ∉ _, (t.createRun r).2.visits.find? _ = _
      rw [(createRun_eq answer).2]
      refine ⟨fun id other => ?_, fun _ _ => rfl⟩
      have ne : r.id ≠ id := by simpa [StoreRequest.runs, eq_comm] using other
      simp [List.find?_append, RunRow.ofRecord, ne]
  | createVisit v =>
    cases answer : (t.createVisit v).1 with
    | error e => exact unchanged (createVisit_of_error answer)
    | ok =>
      change (∀ id ∉ _, (t.createVisit v).2.runs.find? _ = _) ∧
        ∀ id ∉ _, (t.createVisit v).2.visits.find? _ = _
      rw [(createVisit_eq answer).2]
      refine ⟨fun _ _ => rfl, fun id other => ?_⟩
      have ne : v.id ≠ id := by simpa [StoreRequest.visits, eq_comm] using other
      simp [List.find?_append, VisitRow.ofVisit, ne]
  | update r ws =>
    cases answer : (t.update r ws).1 with
    | error e =>
      exact unchanged (StoreRequest.perform_of_error (q := .update r ws)
        (Reply.map_eq_error.2 answer))
    | ok =>
      change (∀ id ∉ _, (t.update r ws).2.runs.find? _ = _) ∧
        ∀ id ∉ _, (t.update r ws).2.visits.find? _ = _
      rw [update_eq answer]
      refine ⟨fun id other => ?_, fun id other => ?_⟩
      · have ne : r.id ≠ id := by simpa [StoreRequest.runs, eq_comm] using other
        exact (find?_upsert RunRow.id_overwrite _ _ _).trans (if_neg ne)
      · refine find?_foldl_upsert_of_ne VisitRow.id_overwrite ?_
        rwa [List.map_map]
  | _ => exact unchanged rfl

/-- What is read after an update, of the records that nothing else is written over. -/
structure ShowsUpdate (t t' : Relational) (r : RunRecord) (ws : List Visit) : Prop where
  /-- a run that was not stored is read as it was written -/
  newRun : r.EveryTime Instant.FourDigits → t.hasRun r.id = false → t'.ReadsRun r.asStored
  /-- one that was takes over what a run changes while it is at work -/
  knownRun : r.EveryTime Instant.FourDigits → ∀ old, t.ReadsRun old → old.id = r.id →
    t'.ReadsRun (old.overwrite r.asStored)
  /-- a visit that was not stored is read as it was written -/
  newVisit : ∀ v ∈ ws, (∀ w ∈ ws, w.id = v.id → w = v) → v.EveryTime Instant.FourDigits →
    t.hasVisit v.id = false → t'.ReadsVisit v.asStored
  /-- one that was takes over what a run changes while it is at work -/
  knownVisit : ∀ v ∈ ws, (∀ w ∈ ws, w.id = v.id → w = v) → v.EveryTime Instant.FourDigits →
    ∀ old, t.ReadsVisit old → old.id = v.id → t'.ReadsVisit (old.overwrite v.asStored)

/-- So what is read after it is what it has written, and of the others what was read before. -/
theorem showsUpdate (accepted : (t.update r ws).1 = .ok ()) :
    ShowsUpdate t (t.update r ws).2 r ws := by
  rw [update_eq accepted]
  have run : (upsert RunRow.id RunRow.overwrite t.runs (.ofRecord r)).find? (·.id == r.id) =
      some ((t.runs.find? (·.id == r.id)).elim (.ofRecord r) (·.overwrite (.ofRecord r))) :=
    (find?_upsert RunRow.id_overwrite _ _ _).trans (if_pos rfl)
  -- of visits with one ID the last would be there, but this one is alone
  have visit {v : Visit} (hv : v ∈ ws) (alone : ∀ w ∈ ws, w.id = v.id → w = v) :
      ((ws.map VisitRow.ofVisit).foldl (upsert VisitRow.id VisitRow.overwrite) t.visits).find?
        (·.id == v.id) = some ((t.visits.find? (·.id == v.id)).elim (.ofVisit v)
          (·.overwrite (.ofVisit v))) := by
    refine find?_foldl_upsert (a := .ofVisit v) VisitRow.id_overwrite rfl (fun _ => rfl)
      (List.mem_map_of_mem hv) fun row hrow same => ?_
    obtain ⟨w, hw, rfl⟩ := List.mem_map.1 hrow
    rw [alone w hw same]
  constructor
  -- a run that is new, one that was there, and the same for visits
  · intro times fresh
    rw [find?_runs_eq_none.2 fresh] at run
    exact readsRun_iff.2 ⟨_, run, RunRecord.toRecord_ofRecord times⟩
  · intro times old read own
    obtain ⟨row, found, read⟩ := readsRun_iff.1 read
    rw [← own, found] at run
    exact readsRun_iff.2 ⟨_, run, RunRow.toRecord_overwrite read times⟩
  · intro v hv alone times fresh
    have found := visit hv alone
    rw [find?_visits_eq_none.2 fresh] at found
    exact ⟨_, found, Visit.toVisit_ofVisit times⟩
  · intro v hv alone times old ⟨row, stored, read⟩ own
    have found := visit hv alone
    rw [← own, stored] at found
    exact ⟨_, found, VisitRow.toVisit_overwrite read times⟩

/-! ### What is listed -/

/-- Every time of creation is stored as the text of some time. -/
def Printed (t : Relational) : Prop := ∀ row ∈ t.runs, ∃ u : Instant, row.createdAt = u.printMicros

/-- Every call writes texts that were printed and nothing else. -/
theorem Printed.perform (h : t.Printed) (q : StoreRequest) : (q.perform t).2.Printed := by
  have new (r : RunRecord) : ∃ u : Instant, (RunRow.ofRecord r).createdAt = u.printMicros :=
    ⟨r.createdAt, rfl⟩
  cases q with
  | createRun r =>
    cases answer : (t.createRun r).1 with
    | error e => exact (createRun_of_error answer).symm ▸ h
    | ok =>
      change (t.createRun r).2.Printed
      rw [(createRun_eq answer).2]
      exact List.forall_mem_append.2 ⟨h, by simpa using new r⟩
  | createVisit v =>
    cases answer : (t.createVisit v).1 with
    | error e => exact (createVisit_of_error answer).symm ▸ h
    | ok =>
      change (t.createVisit v).2.Printed
      rw [(createVisit_eq answer).2]
      exact h
  | update r ws =>
    cases answer : (t.update r ws).1 with
    | error e =>
      have kept := StoreRequest.perform_of_error (q := .update r ws) (Reply.map_eq_error.2 answer)
      exact kept.symm ▸ h
    | ok =>
      change (t.update r ws).2.Printed
      rw [update_eq answer]
      exact forall_upsert h (new r) fun row hrow _ => h row hrow
  | _ => exact h

/-- So all that is stored are texts of times, whatever was called, and texts of times are of one
width. -/
theorem Printed.performAll (h : t.Printed) (qs : List StoreRequest) :
    (StoreRequest.performAll t qs).Printed := by
  induction qs generalizing t with
  | nil => exact h
  | cons q qs ih => exact ih (h.perform q)

/-- Of two rows in the order of their texts, the second is not read with the earlier time. -/
theorem Printed.before_eq_false (h : t.Printed) {row row' : RunRow} (hrow : row ∈ t.runs)
    (hrow' : row' ∈ t.runs) (order : row.createdAt ≤ row'.createdAt) {a b : RunRecord}
    (ha : row.toRecord = .ok a) (hb : row'.toRecord = .ok b) :
    b.createdAt.before a.createdAt = false := by
  obtain ⟨u, text⟩ := h row hrow
  obtain ⟨u', text'⟩ := h row' hrow'
  obtain ⟨createdAt, _, created, -, rfl⟩ := RunRow.toRecord_eq_ok.1 ha
  obtain ⟨createdAt', _, created', -, rfl⟩ := RunRow.toRecord_eq_ok.1 hb
  rw [text] at created order
  rw [text'] at created' order
  exact Instant.before_eq_false_of_le order created created'

/-- The runs of a page come in the order of their times, the latest first. -/
theorem Printed.list_sorted (h : t.Printed) {q : RunQuery} {runs : List RunRecord} {total : Nat}
    (answer : t.list q = .ok (runs, total)) :
    runs.Pairwise fun a b => a.createdAt.before b.createdAt = false := by
  have order : (t.matching q).Pairwise fun a b => decide (b.createdAt ≤ a.createdAt) = true :=
    List.pairwise_mergeSort (descending_trans RunRow.createdAt)
      (descending_total RunRow.createdAt) _
  have inside : ∀ row ∈ t.matching q, row ∈ t.runs := fun row hrow =>
    List.mem_reverse.1 (List.mem_filter.1 (List.mem_mergeSort.1 hrow)).1
  have page : (q.pageOf maxSkipped (t.matching q)).Sublist (t.matching q) :=
    (List.take_sublist _ _).trans (List.drop_sublist _ _)
  rw [list] at answer
  cases rows : readRows RunRow.toRecord (q.pageOf maxSkipped (t.matching q)) with
  | error e => simp [rows, bind, Except.bind] at answer
  | ok runs' =>
    obtain ⟨rfl, -⟩ : runs' = runs ∧ _ := by
      simpa [rows, bind, Except.bind, pure, Except.pure] using answer
    refine (pairwise_of_readRows (order.sublist page) rows ?_).1
    intro x hx y hy le a b ha hb
    exact h.before_eq_false (inside y (page.subset hy)) (inside x (page.subset hx))
      (of_decide_eq_true le) hb ha

/-- The runs that have not ended come in the order of their times, the earliest first. -/
theorem Printed.unfinished_sorted (h : t.Printed) {runs : List RunRecord}
    (answer : t.unfinished = .ok runs) :
    runs.Pairwise fun a b => b.createdAt.before a.createdAt = false := by
  have order := List.pairwise_mergeSort (ascending_trans RunRow.createdAt)
    (ascending_total RunRow.createdAt) (t.ofStatus .initializing ++ t.ofStatus .processing)
  refine (pairwise_of_readRows order answer ?_).1
  intro x hx y hy le a b ha hb
  have inside {row : RunRow} (hrow : row ∈ t.ofStatus .initializing ++ t.ofStatus .processing) :
      row ∈ t.runs := by
    rw [ofStatus, ofStatus, List.mem_append, List.mem_filter, List.mem_filter] at hrow
    exact hrow.elim And.left And.left
  exact h.before_eq_false (inside (List.mem_mergeSort.1 hx)) (inside (List.mem_mergeSort.1 hy))
    (of_decide_eq_true le) ha hb

/-! ## What is kept -/

/-- The store keeps the records that it accepts, and lists them in the order of their times. -/
structure Keeps (t : Relational) : Prop where
  /-- a run that is inserted is read as it was written, up to microseconds -/
  createRun : ∀ r : RunRecord, r.EveryTime Instant.FourDigits → (t.createRun r).1 = .ok () →
    (t.createRun r).2.ReadsRun r.asStored
  /-- so is a visit -/
  createVisit : ∀ v : Visit, v.EveryTime Instant.FourDigits → (t.createVisit v).1 = .ok () →
    (t.createVisit v).2.ReadsVisit v.asStored
  /-- so is what is written by an update, where it does not write to a row that is stored -/
  update : ∀ (r : RunRecord) (ws : List Visit), (t.update r ws).1 = .ok () →
    ShowsUpdate t (t.update r ws).2 r ws
  /-- a run is read as before until it is written again -/
  runStays : ∀ (q : StoreRequest) (r : RunRecord), t.ReadsRun r → r.id ∉ q.runs.map RunRecord.id →
    (q.perform t).2.ReadsRun r
  /-- so is a visit -/
  visitStays : ∀ (q : StoreRequest) (v : Visit), t.ReadsVisit v → v.id ∉ q.visits.map Visit.id →
    (q.perform t).2.ReadsVisit v
  /-- the visits of a run are read under their IDs -/
  shown : ∀ (v : Visit) (d : RunDetail), t.ReadsVisit v → t.detail v.parentId = .ok (some d) →
    d.visits.find? (·.id == v.id) = some v
  /-- on a page, no run comes before a later one -/
  newestFirst : ∀ (q : RunQuery) (runs : List RunRecord) (total : Nat),
    t.list q = .ok (runs, total) →
    runs.Pairwise fun a b => a.createdAt.before b.createdAt = false
  /-- of the runs that have not ended, none comes before an earlier one -/
  oldestFirst : ∀ runs : List RunRecord, t.unfinished = .ok runs →
    runs.Pairwise fun a b => b.createdAt.before a.createdAt = false

/-- So the tables keep what they are given, and show it in the order of its times. -/
theorem Printed.keeps (h : t.Printed) : t.Keeps where
  createRun r times accepted := by
    obtain ⟨fresh, after⟩ := createRun_eq accepted
    rw [after]
    have missing := find?_runs_eq_none.2 fresh
    refine readsRun_iff.2 ⟨.ofRecord r, ?_, RunRecord.toRecord_ofRecord times⟩
    rw [RunRecord.id_asStored, List.find?_append, missing]
    simp [RunRow.ofRecord]
  createVisit v times accepted := by
    obtain ⟨fresh, after⟩ := createVisit_eq accepted
    rw [after]
    have missing := find?_visits_eq_none.2 fresh
    refine ⟨.ofVisit v, ?_, Visit.toVisit_ofVisit times⟩
    rw [Visit.id_asStored, List.find?_append, missing]
    simp [VisitRow.ofVisit]
  update r ws accepted := showsUpdate accepted
  runStays q r read other := by
    obtain ⟨row, found, read⟩ := readsRun_iff.1 read
    exact readsRun_iff.2 ⟨row, ((find?_perform t q).1 r.id other).trans found, read⟩
  visitStays q v read other := by
    obtain ⟨row, found, read⟩ := read
    exact ⟨row, ((find?_perform t q).2 v.id other).trans found, read⟩
  shown v d read answer := read.shown answer
  newestFirst q runs total answer := h.list_sorted answer
  oldestFirst runs answer := h.unfinished_sorted answer

/-- The store answers, since it can read all that is stored. -/
structure Answers (t : Relational) : Prop where
  /-- a visit is found under its ID among those of its run -/
  detail : ∀ v, t.ReadsVisit v →
    ∃ d, t.detail v.parentId = .ok (some d) ∧ d.visits.find? (·.id == v.id) = some v
  /-- runs that match a query are listed -/
  list : ∀ q : RunQuery, ∃ runs, t.list q = .ok (runs, (t.matching q).length)
  /-- the runs that have not ended are -/
  unfinished : ∃ runs, t.unfinished = .ok runs

/-- It does if all times have years of four digits. -/
theorem Reachable.answers (reachable : t.Reachable) : t.Answers := by
  obtain ⟨rs, vs, held⟩ := reachable.held
  refine ⟨fun v read => ?_, fun q => ?_, ?_⟩
  · obtain ⟨row, found, toVisit⟩ := id read
    have parent : row.parentId = v.parentId := by
      obtain ⟨_, _, -, -, rfl⟩ := VisitRow.toVisit_eq_ok.1 toVisit
      rfl
    have stored := reachable.anchored row (List.mem_of_find?_eq_some found)
    rw [parent, held.tables, ids_holding] at stored
    obtain ⟨r, hr, own⟩ := List.mem_map.1 stored
    obtain ⟨d, answer⟩ : ∃ d, t.detail v.parentId = .ok (some d) := by
      rw [held.detail_eq, held.stored_eq, ← own, find?_key_eq_some held.runIds hr]
      exact ⟨_, rfl⟩
    exact ⟨d, answer, read.shown answer⟩
  · have total : (t.matching q).length = (sorted q rs).length := by
      rw [held.tables, matching_holding, List.length_map]
      rfl
    exact ⟨_, total ▸ held.list_onPage q q.page⟩
  · obtain ⟨runs, answer, -⟩ := held.unfinished_spec
    exact ⟨runs, answer⟩

/-- Stored texts keep the value and the order of times that clocks show in years of four digits. So
the store keeps the records with such times that it accepts, and lists them in the order of their
times; if the years of all stored times have four digits, it always does. -/
theorem keeps_of_performAll :
    (∀ t u : Instant, t.Civil → u.Civil → t.Kept u) ∧
      ((∀ r : RunRecord, r.EveryTime Instant.Civil → r.asStored = r.truncate) ∧
        ∀ v : Visit, v.EveryTime Instant.Civil → v.asStored = v.truncate) ∧
      (∀ qs, (StoreRequest.performAll empty qs).Keeps) ∧
      ∀ t : Relational, t.Reachable → t.Answers :=
  ⟨fun _ _ => Instant.kept,
    ⟨fun _ => RunRecord.asStored_eq_truncate, fun _ => Visit.asStored_eq_truncate⟩,
    fun qs => (Printed.performAll (by simp [Printed, empty]) qs).keeps, fun _ => Reachable.answers⟩

/-- A run that is created one nanosecond before the end of a leap second, and a visit of it that
begins then. -/
def lastMoment : RunRecord × Visit :=
  let run := RunRecord.create "r" "p" "b" "t" "u" ⟨1483228799, 1999999999, by decide⟩
  (run, .create "v" run "start" .immediate run.createdAt)

/-- Both are read up to the microsecond, and their text goes before the one of the next year. -/
theorem lastMoment_keeps :
    let r := lastMoment.1
    let v := lastMoment.2
    let t := StoreRequest.performAll empty [.createRun r]
    r.createdAt.printMicros = "2016-12-31T23:59:60.999999Z" ∧
    readStored r.createdAt.printMicros = .ok r.createdAt.truncateMicros ∧
    r.createdAt.printMicros < (Instant.ofMicros 1483228800000000).printMicros ∧
    t.ReadsRun r.truncate ∧ (t.createVisit v).2.ReadsVisit v.truncate ∧
    (t.update { r with status := .processing } [v]).2.ReadsRun
      { r.truncate with status := .processing } ∧
    (t.update { r with status := .processing } [v]).2.ReadsVisit v.truncate ∧
    t.Reachable ∧ ∃ runs, t.unfinished = .ok runs := by
  intro r v t
  have civil : r.EveryTime Instant.Civil := by decide +kernel
  have civil' : v.EveryTime Instant.Civil := by decide +kernel
  have years := civil.mono fun _ => Instant.Civil.years
  have years' := civil'.mono fun _ => Instant.Civil.years
  obtain ⟨times, ⟨whole, whole'⟩, keeps, answers⟩ := keeps_of_performAll
  have kept := times r.createdAt (.ofMicros 1483228800000000) civil.1 (by decide +kernel)
  rw [← whole r civil, ← whole' v civil']
  have run := (keeps []).createRun r years (by decide +kernel)
  have updated := (keeps [.createRun r]).update { r with status := .processing } [v]
    (by decide +kernel)
  have reachable : t.Reachable := .performAll .empty (by decide +kernel)
  refine ⟨by decide +kernel, kept.read, kept.order.2 (by decide +kernel), run, ?_, ?_, ?_,
    reachable, (answers t reachable).unfinished⟩
  · exact (keeps [.createRun r]).createVisit v years' (by decide +kernel)
  · exact updated.knownRun years _ run rfl
  · exact updated.newVisit v (List.mem_singleton_self v) (by simp) years' (by decide +kernel)

/-- A run that is stored with one time of creation and written with another one is not read as it
was written. And a time within a minute with the nanoseconds of a leap second is read as one in the
next second. -/
theorem redated_differs :
    (∃ (t : Relational) (r : RunRecord), t.Reachable ∧ r.EveryTime Instant.Civil ∧
      (t.update r []).1 = .ok () ∧ ¬ (t.update r []).2.ReadsRun r.truncate) ∧
    ∃ t : Instant, t.FourDigits ∧ readStored t.printMicros ≠ .ok t.truncateMicros := by
  constructor
  · let run (micros : Nat) : RunRecord := .create "r" "p" "b" "t" "u" (.ofMicros micros)
    refine ⟨(empty.createRun (run 0)).2, run 1000000, ?_, ?_, ?_, ?_⟩
    · exact .call (q := .createRun (run 0)) (by decide +kernel) .empty
    · decide +kernel
    · decide +kernel
    · decide +kernel
  · refine ⟨⟨0, 1500000000, by decide⟩, by decide +kernel, fun read => ?_⟩
    exact absurd (Instant.readStored_printMicros_iff.1 read).2 (by decide +kernel)

end Relational

end Runbook
