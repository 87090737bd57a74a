import Runbook.Proofs.Calls

/-!
# Tables of records

The rows of the relational store are written from records, with their times as texts. So a state of
the store is told by two lists of records, and its calls are told by what they do to these lists.

* `Relational.holding` — the tables that hold some records.
* `RunRecord.asStored`, `Visit.asStored` — what is read of a record.
* `Relational.detail_holding`, `unfinished_holding`, `matching_holding` — the reads.
* `upsert`, `Relational.upsertRun_holding`, `upsertVisits_holding` — the writes.
* `Relational.Reachable.held` — so it is with all states, and nothing is stored twice.
-/

namespace Runbook

/-! ## Writing over -/

section

variable {α : Type} {key : α → String} {merge : α → α → α} {l new : List α} {a b : α}

/-- Write a record over the one with its key, or else at the end. -/
def upsert (key : α → String) (merge : α → α → α) (l : List α) (a : α) : List α :=
  if key a ∈ l.map key then l.map fun b => if key b = key a then merge b a else b else l ++ [a]

/-- What is written is stored, or was, or has been written over. -/
theorem forall_upsert {P : α → Prop} (stored : ∀ b ∈ l, P b) (new : P a)
    (written : ∀ b ∈ l, key b = key a → P (merge b a)) : ∀ b ∈ upsert key merge l a, P b := by
  intro b hb
  rw [upsert] at hb
  split at hb
  · obtain ⟨c, hc, rfl⟩ := List.mem_map.1 hb
    split
    · next same => exact written c hc same
    · exact stored c hc
  · rcases List.mem_append.1 hb with hb | hb
    · exact stored b hb
    · rwa [List.mem_singleton.1 hb]

/-- What was stored is written over. -/
theorem mem_upsert (stored : b ∈ l) (same : key b = key a) : merge b a ∈ upsert key merge l a := by
  rw [upsert, if_pos (same ▸ List.mem_map_of_mem stored)]
  exact List.mem_map.2 ⟨b, stored, if_pos same⟩

/-- What is never written over changes only at the end. -/
theorem map_upsert {β : Type} {f : α → β} (keeps : ∀ b a, f (merge b a) = f b) (l : List α)
    (a : α) : (upsert key merge l a).map f =
      if key a ∈ l.map key then l.map f else l.map f ++ [f a] := by
  rw [upsert]
  split
  · rw [List.map_map]
    refine List.map_congr_left fun b _ => ?_
    by_cases same : key b = key a <;> simp [same, keeps]
  · rw [List.map_append, List.map_singleton]

variable (keeps : ∀ b a, key (merge b a) = key b)

include keeps

/-- No key is lost by a write, -/
theorem subset_keys_upsert (l : List α) (a : α) :
    l.map key ⊆ (upsert key merge l a).map key := by
  rw [map_upsert keeps]
  split
  · exact List.Subset.refl _
  · exact List.subset_append_left ..

/-- the key that is written is there after it, -/
theorem mem_keys_upsert (l : List α) (a : α) : key a ∈ (upsert key merge l a).map key := by
  rw [map_upsert keeps]
  split
  · next known => exact known
  · exact List.mem_append_right _ (List.mem_singleton_self _)

/-- and no key comes twice, as a record that is new is added only if its key is not there. -/
theorem nodup_keys_upsert (distinct : (l.map key).Nodup) :
    ((upsert key merge l a).map key).Nodup := by
  rw [map_upsert keeps]
  split
  · exact distinct
  · next fresh => exact distinct.append (List.nodup_singleton _) (by simpa using fresh)

/-- What is found under a key then. -/
theorem find?_upsert (l : List α) (a : α) (k : String) :
    (upsert key merge l a).find? (key · == k) =
      if key a = k then some ((l.find? (key · == k)).elim a (merge · a))
      else l.find? (key · == k) := by
  rw [upsert]
  split
  · next known =>
    have keys :
        (key · == k) ∘ (fun b => if key b = key a then merge b a else b) = (key · == k) := by
      funext b
      by_cases same : key b = key a <;> simp [same, keeps]
    rw [List.find?_map, keys]
    split
    · next here =>
      subst here
      obtain ⟨b, hb, same⟩ := List.mem_map.1 known
      have some : (l.find? (key · == key a)).isSome :=
        List.find?_isSome.2 ⟨b, hb, by simpa using same⟩
      obtain ⟨c, found⟩ := Option.isSome_iff_exists.1 some
      have own : key c = key a := by simpa using List.find?_some found
      simp [found, own]
    · next elsewhere =>
      cases found : l.find? (key · == k) with
      | none => rfl
      | some c =>
        have own : key c = k := by simpa using List.find?_some found
        simp [own, Ne.symm elsewhere]
  · next fresh =>
    rw [List.find?_append]
    split
    · next here =>
      subst here
      have missing : l.find? (key · == key a) = none :=
        List.find?_eq_none.2 fun b hb clash => fresh (beq_iff_eq.1 clash ▸ List.mem_map_of_mem hb)
      simp [missing]
    · next elsewhere => simp [elsewhere]

/-- If every key that was written is stored, each record takes over what was written with its
key. -/
theorem foldl_upsert_eq_map (distinct : (new.map key).Nodup)
    (known : new.map key ⊆ l.map key) : new.foldl (upsert key merge) l =
      l.map fun b => (new.find? (key · == key b)).elim b (merge b) := by
  induction new generalizing l with
  | nil => simp
  | cons a new ih =>
    rw [List.map_cons, List.nodup_cons] at distinct
    rw [List.map_cons, List.cons_subset] at known
    have keys : (upsert key merge l a).map key = l.map key := by
      rw [map_upsert keeps, if_pos known.1]
    rw [List.foldl_cons, ih distinct.2 (keys ▸ known.2), upsert, if_pos known.1, List.map_map]
    refine List.map_congr_left fun b _ => ?_
    by_cases same : key b = key a
    · -- nothing is written with this key later
      have later : new.find? (key · == key a) = none := by
        refine List.find?_eq_none.2 fun c hc clash => distinct.1 ?_
        exact beq_iff_eq.1 clash ▸ List.mem_map_of_mem hc
      simp [same, keeps, later]
    · simp [same, Ne.symm same]

end

/-! ## Rows -/

namespace RunRecord

variable {r new : RunRecord}

/-- The record as it is read when it was stored: its times are as clocks show them, and have only
microseconds. -/
def asStored (r : RunRecord) : RunRecord :=
  { r with createdAt := r.createdAt.asStored, updatedAt := r.updatedAt.asStored }

/-- Take over what a run changes while it is at work. -/
def overwrite (r new : RunRecord) : RunRecord :=
  { r with status := new.status, context := new.context, updatedAt := new.updatedAt }

@[simp] theorem id_asStored (r : RunRecord) : r.asStored.id = r.id := rfl

@[simp] theorem status_asStored (r : RunRecord) : r.asStored.status = r.status := rfl

@[simp] theorem id_overwrite (r new : RunRecord) : (r.overwrite new).id = r.id := rfl

/-- A row is read as the run that it was made from, but for what the texts of its times leave
out. -/
theorem toRecord_ofRecord (h : r.EveryTime Instant.FourDigits) :
    (RunRow.ofRecord r).toRecord = .ok r.asStored := by
  simp [RunRow.toRecord, RunRow.ofRecord, readStored, Instant.parseStrict_printMicros h.1,
    Instant.parseStrict_printMicros h.2, asStored, Except.mapError, bind, Except.bind, pure,
    Except.pure]

/-- Each time of a run that was written over comes from one of the two writes. -/
theorem EveryTime.overwrite {P : Instant → Prop} (h : r.EveryTime P) (h' : new.EveryTime P) :
    (r.overwrite new).EveryTime P := ⟨h.1, h'.2⟩

/-- Write a run over the one with its ID. -/
abbrev upsert : List RunRecord → RunRecord → List RunRecord :=
  Runbook.upsert RunRecord.id overwrite

end RunRecord

namespace Visit

variable {v w new : Visit} {vs ws : List Visit}

/-- The record as it is read when it was stored: its times are as clocks show them, and have only
microseconds. -/
def asStored (v : Visit) : Visit :=
  { v with
    startTime := v.startTime.asStored, endTime := v.endTime.map Instant.asStored }

/-- Take over what a run changes while it is at work. -/
def overwrite (v new : Visit) : Visit :=
  { v with
    status := new.status, result := new.result, operationId := new.operationId,
    endTime := new.endTime }

@[simp] theorem id_asStored (v : Visit) : v.asStored.id = v.id := rfl

@[simp] theorem id_overwrite (v new : Visit) : (v.overwrite new).id = v.id := rfl

@[simp] theorem parentId_overwrite (v new : Visit) : (v.overwrite new).parentId = v.parentId := rfl

/-- So it is with a visit, whose end may be open. -/
theorem toVisit_ofVisit (h : v.EveryTime Instant.FourDigits) :
    (VisitRow.ofVisit v).toVisit = .ok v.asStored := by
  obtain ⟨start, stop⟩ := h
  have ended : readStoredOption (v.endTime.map Instant.printMicros) =
      .ok (v.endTime.map Instant.asStored) := by
    cases time : v.endTime with
    | none => rfl
    | some t =>
      have read := Instant.parseStrict_printMicros (stop t time)
      simp [readStoredOption, readStored, read, Except.mapError, Except.map]
  simp [VisitRow.toVisit, VisitRow.ofVisit, readStored, Instant.parseStrict_printMicros start,
    ended, asStored, Except.mapError, bind, Except.bind, pure, Except.pure]

/-- Each time of a visit that was written over comes from one of the two writes. -/
theorem EveryTime.overwrite {P : Instant → Prop} (h : v.EveryTime P) (h' : new.EveryTime P) :
    (v.overwrite new).EveryTime P := ⟨h.1, h'.2⟩

/-- Write a visit over the one with its ID. -/
abbrev upsert : List Visit → Visit → List Visit := Runbook.upsert Visit.id overwrite

end Visit

namespace Relational

variable {t : Relational} {rs : List RunRecord} {vs ws : List Visit} {r : RunRecord} {v : Visit}
  {id : String}

/-- The tables with the rows of these records. -/
def holding (rs : List RunRecord) (vs : List Visit) : Relational :=
  ⟨rs.map .ofRecord, vs.map .ofVisit⟩

/-! ## Reads -/

/-- Rows that can be read are read one by one. A single one that cannot be read would fail the
whole. -/
theorem readRows_map {ρ α β : Type} {read : ρ → Except EngineError β} {row : α → ρ}
    {f : α → β} {l : List α} (h : ∀ a ∈ l, read (row a) = .ok (f a)) :
    readRows read (l.map row) = .ok (l.map f) := by
  induction l with
  | nil => rfl
  | cons a l ih =>
    obtain ⟨here, rest⟩ := List.forall_mem_cons.1 h
    simp [readRows, here, ih rest, bind, Except.bind, pure, Except.pure]

/-- The tables have the runs that they hold, -/
theorem hasRun_holding : (holding rs vs).hasRun id = true ↔ id ∈ rs.map RunRecord.id := by
  simp [hasRun, holding, RunRow.ofRecord]

/-- and the visits. -/
theorem hasVisit_holding : (holding rs vs).hasVisit id = true ↔ id ∈ vs.map Visit.id := by
  simp [hasVisit, holding, VisitRow.ofVisit]

section

variable (runs : ∀ r ∈ rs, r.EveryTime Instant.FourDigits)

include runs

/-- Of the rows with an ID the first one is read; when nothing is stored twice there is no other. -/
theorem get_holding :
    (holding rs vs).get id = .ok ((rs.find? (·.id == id)).map RunRecord.asStored) := by
  have row : (rs.map RunRow.ofRecord).find? (·.id == id) =
      (rs.find? (·.id == id)).map RunRow.ofRecord := List.find?_map
  rw [get, holding, row]
  cases found : rs.find? (·.id == id) with
  | none => rfl
  | some r =>
    have times := runs r (List.mem_of_find?_eq_some found)
    simp [RunRecord.toRecord_ofRecord times, Except.map]

/-- A run is read with its visits. -/
theorem detail_holding (visits : ∀ v ∈ vs, v.EveryTime Instant.FourDigits) :
    (holding rs vs).detail id = .ok ((rs.find? (·.id == id)).map fun r =>
      ⟨r.asStored, (vs.filter (·.parentId == id)).map Visit.asStored, []⟩) := by
  have rows : (vs.map VisitRow.ofVisit).filter (·.parentId == id) =
      (vs.filter (·.parentId == id)).map VisitRow.ofVisit := List.filter_map
  have read : readRows VisitRow.toVisit ((vs.filter (·.parentId == id)).map VisitRow.ofVisit) =
      .ok ((vs.filter (·.parentId == id)).map Visit.asStored) :=
    readRows_map fun v hv => Visit.toVisit_ofVisit (visits v (List.mem_filter.1 hv).1)
  rw [detail, get_holding runs]
  cases rs.find? (·.id == id) with
  | none => rfl
  | some r => simp [holding, rows, read, bind, Except.bind, pure, Except.pure]

omit runs in
/-- Runs that have not ended have one of two statuses. -/
theorem active_perm (rs : List RunRecord) : (rs.filter (·.status == .initializing) ++
    rs.filter (·.status == .processing)).Perm (rs.filter fun r => !r.status.isTerminal) := by
  have active := List.filter_append_perm (·.status == .initializing)
    (rs.filter fun r : RunRecord => !r.status.isTerminal)
  rw [List.filter_filter, List.filter_filter] at active
  convert active using 4 with r r
  · cases r.status <;> simp [Status.isTerminal]
  · cases r.status <;> simp [Status.isTerminal]

/-- The runs that have not ended are read by the texts of their creation. -/
theorem unfinished_holding : (holding rs vs).unfinished =
    .ok (((rs.filter (·.status == .initializing) ++
      rs.filter (·.status == .processing)).mergeSort fun a b =>
        decide (a.createdAt.printMicros ≤ b.createdAt.printMicros)).map RunRecord.asStored) := by
  have rows (s : Status) : (holding rs vs).ofStatus s =
      (rs.filter (·.status == s)).map RunRow.ofRecord := List.filter_map
  rw [unfinished, rows, rows, ← List.map_append,
    ← List.map_mergeSort (f := RunRow.ofRecord) fun a _ b _ => rfl]
  refine readRows_map fun r hr => RunRecord.toRecord_ofRecord (runs r ?_)
  rcases List.mem_append.1 (List.mem_mergeSort.1 hr) with hr | hr
  · exact (List.mem_filter.1 hr).1
  · exact (List.mem_filter.1 hr).1

end

/-- The runs that match are sorted by the texts of their creation. -/
theorem matching_holding (q : RunQuery) : (holding rs vs).matching q =
    ((rs.reverse.filter q.accepts).mergeSort fun a b =>
      decide (b.createdAt.printMicros ≤ a.createdAt.printMicros)).map RunRow.ofRecord := by
  have rows : (rs.map RunRow.ofRecord).reverse.filter (accepts q) =
      (rs.reverse.filter q.accepts).map RunRow.ofRecord := by
    rw [← List.map_reverse, List.filter_map]
    rfl
  rw [matching, holding, rows, List.map_mergeSort]
  exact fun a _ b _ => rfl

/-! ## Writes -/

/-- To write over the rows is to write over the records that they were made from: the columns that
are written over are those that a run changes. -/
theorem upsertRun_holding (r : RunRecord) : (holding rs vs).upsertRun r =
    holding (RunRecord.upsert rs r) vs := by
  rw [upsertRun, RunRecord.upsert, upsert]
  by_cases known : r.id ∈ rs.map RunRecord.id
  · rw [if_pos (hasRun_holding.2 known), if_pos known]
    simp only [holding, List.map_map, Relational.mk.injEq, and_true]
    refine List.map_congr_left fun s _ => ?_
    by_cases same : s.id = r.id
    · simp [RunRow.ofRecord, same, RunRow.overwrite, RunRecord.overwrite]
    · simp [RunRow.ofRecord, same]
  · rw [if_neg (mt hasRun_holding.1 known), if_neg known]
    simp [holding]

/-- So it is with a visit. A new one needs its run, and one that is there has it already. -/
theorem upsertVisit_holding (v : Visit) : (holding rs vs).upsertVisit v =
    if v.id ∈ vs.map Visit.id ∨ v.parentId ∈ rs.map RunRecord.id then
      .ok (holding rs (Visit.upsert vs v))
    else .error (.storage .foreignKeyViolated) := by
  rw [upsertVisit, Visit.upsert, upsert]
  by_cases known : v.id ∈ vs.map Visit.id
  · rw [if_pos (hasVisit_holding.2 known), if_pos (.inl known), if_pos known]
    simp only [holding, List.map_map, Except.ok.injEq, Relational.mk.injEq, true_and]
    refine List.map_congr_left fun w _ => ?_
    by_cases same : w.id = v.id
    · simp [VisitRow.ofVisit, same, VisitRow.overwrite, Visit.overwrite]
    · simp [VisitRow.ofVisit, same]
  · rw [if_neg (mt hasVisit_holding.1 known), if_neg known]
    by_cases parent : v.parentId ∈ rs.map RunRecord.id
    · rw [if_neg (by simp [hasRun_holding.2 parent]), if_pos (.inr parent)]
      simp [holding]
    · have missing : (holding rs vs).hasRun v.parentId = false :=
        Bool.eq_false_iff.2 (mt hasRun_holding.1 parent)
      rw [if_pos (by simp [missing]), if_neg (by simp [known, parent])]

/-- Visits of stored runs are written, one after the other. -/
theorem upsertVisits_holding
    (stored : ∀ v ∈ ws, v.id ∈ vs.map Visit.id ∨ v.parentId ∈ rs.map RunRecord.id) :
    (holding rs vs).upsertVisits ws = .ok (holding rs (ws.foldl Visit.upsert vs)) := by
  induction ws generalizing vs with
  | nil => rfl
  | cons v ws ih =>
    obtain ⟨here, rest⟩ := List.forall_mem_cons.1 stored
    have grown : ∀ w ∈ ws, w.id ∈ (Visit.upsert vs v).map Visit.id ∨
        w.parentId ∈ rs.map RunRecord.id := fun w hw =>
      (rest w hw).imp_left fun known => subset_keys_upsert Visit.id_overwrite vs v known
    rw [upsertVisits, upsertVisit_holding, if_pos here]
    exact ih grown

/-! ## States -/

/-- The state holds records with times that can be read, none of them twice. -/
structure Held (t : Relational) (rs : List RunRecord) (vs : List Visit) : Prop where
  /-- these are the records -/
  tables : t = holding rs vs
  /-- no run is stored twice -/
  runIds : (rs.map RunRecord.id).Nodup
  /-- no visit is stored twice -/
  visitIds : (vs.map Visit.id).Nodup
  /-- the runs can be read -/
  runTimes : ∀ r ∈ rs, r.EveryTime Instant.FourDigits
  /-- the visits can be read -/
  visitTimes : ∀ v ∈ vs, v.EveryTime Instant.FourDigits

/-- A run with a new ID can be inserted. -/
theorem Held.addRun (h : t.Held rs vs) (times : r.EveryTime Instant.FourDigits)
    (fresh : ¬ t.hasRun r.id = true) :
    Held { t with runs := t.runs ++ [.ofRecord r] } (rs ++ [r]) vs := by
  obtain ⟨rfl, runIds, visitIds, runTimes, visitTimes⟩ := h
  refine ⟨by simp [holding], ?_, visitIds, ?_, visitTimes⟩
  · rw [List.map_append]
    rw [hasRun_holding] at fresh
    exact runIds.append (List.nodup_singleton _) (by simpa using fresh)
  · exact List.forall_mem_append.2 ⟨runTimes, by simpa using times⟩

/-- A run that is created is new or refused, so there are no two of one ID. -/
theorem Held.createRun (h : t.Held rs vs) (times : r.EveryTime Instant.FourDigits) :
    ∃ rs', (t.createRun r).2.Held rs' vs := by
  rw [Relational.createRun]
  split
  · exact ⟨rs, h⟩
  · next fresh => exact ⟨_, h.addRun times fresh⟩

/-- So can a visit. -/
theorem Held.addVisit (h : t.Held rs vs) (times : v.EveryTime Instant.FourDigits)
    (fresh : ¬ t.hasVisit v.id = true) :
    Held { t with visits := t.visits ++ [.ofVisit v] } rs (vs ++ [v]) := by
  obtain ⟨rfl, runIds, visitIds, runTimes, visitTimes⟩ := h
  refine ⟨by simp [holding], runIds, ?_, runTimes, ?_⟩
  · rw [List.map_append]
    rw [hasVisit_holding] at fresh
    exact visitIds.append (List.nodup_singleton _) (by simpa using fresh)
  · exact List.forall_mem_append.2 ⟨visitTimes, by simpa using times⟩

/-- A visit that is created has its run, since it is refused otherwise. -/
theorem Held.createVisit (h : t.Held rs vs) (times : v.EveryTime Instant.FourDigits) :
    ∃ vs', (t.createVisit v).2.Held rs vs' := by
  rw [Relational.createVisit]
  split
  · exact ⟨vs, h⟩
  · next fresh =>
    split
    · exact ⟨vs, h⟩
    · exact ⟨_, h.addVisit times fresh⟩

/-- A run that is written over keeps its ID, and its visits keep their run. -/
theorem Held.upsertRun (h : t.Held rs vs) (times : r.EveryTime Instant.FourDigits) :
    (t.upsertRun r).Held (RunRecord.upsert rs r) vs := by
  obtain ⟨rfl, runIds, visitIds, runTimes, visitTimes⟩ := h
  exact ⟨upsertRun_holding r, nodup_keys_upsert RunRecord.id_overwrite runIds, visitIds,
    forall_upsert runTimes times fun s hs _ => (runTimes s hs).overwrite times, visitTimes⟩

/-- Visits that could be written are stored. -/
theorem Held.upsertVisits {t' : Relational} (h : t.Held rs vs)
    (times : ∀ w ∈ ws, w.EveryTime Instant.FourDigits) (written : t.upsertVisits ws = .ok t') :
    t'.Held rs (ws.foldl Visit.upsert vs) := by
  induction ws generalizing t vs with
  | nil =>
    cases written
    exact h
  | cons v ws ih =>
    obtain ⟨here, rest⟩ := List.forall_mem_cons.1 times
    obtain ⟨rfl, runIds, visitIds, runTimes, visitTimes⟩ := h
    rw [Relational.upsertVisits, upsertVisit_holding] at written
    split at written
    · refine ih ⟨rfl, runIds, nodup_keys_upsert Visit.id_overwrite visitIds, runTimes, ?_⟩ rest
        written
      exact forall_upsert visitTimes here fun w hw _ => (visitTimes w hw).overwrite here
    · cases written

/-- An update writes the run before the visits, which may therefore be under it. If one of them is
refused, nothing of it stays. -/
theorem Held.update (h : t.Held rs vs) (run : r.EveryTime Instant.FourDigits)
    (visits : ∀ w ∈ ws, w.EveryTime Instant.FourDigits) :
    ∃ rs' vs', (t.update r ws).2.Held rs' vs' := by
  rw [Relational.update]
  split
  · next written => exact ⟨_, _, (h.upsertRun run).upsertVisits visits written⟩
  · exact ⟨rs, vs, h⟩

/-- All states are of this kind. -/
theorem Reachable.held (h : t.Reachable) : ∃ rs vs, t.Held rs vs := by
  induction h with
  | empty => exact ⟨[], [], rfl, List.nodup_nil, List.nodup_nil, by simp, by simp⟩
  | @call t q times _ ih =>
    obtain ⟨rs, vs, held⟩ := ih
    cases q with
    | createRun r =>
      obtain ⟨rs', held⟩ := held.createRun (times.runs r (List.mem_singleton_self r))
      exact ⟨rs', vs, held⟩
    | createVisit v =>
      obtain ⟨vs', held⟩ := held.createVisit (times.visits v (List.mem_singleton_self v))
      exact ⟨rs, vs', held⟩
    | update r ws => exact held.update (times.runs r (List.mem_singleton_self r)) times.visits
    | _ => exact ⟨rs, vs, held⟩

end Relational

end Runbook
