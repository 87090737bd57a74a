import Runbook.Proofs.Tables

/-!
# Closing all orphaned runs

Closing the orphaned runs is complete and touches nothing else, and it has nothing to do a second
time. The runs are listed once, and closed one by one while the listing stays as it was.

* `Visit.Orphaned`, `RunDetail.Orphaned` — what becomes of a run.
* `Recovery.Sweeps` — what closing all runs does, as told by the calls of the store.
* `Recovery.Closable` — what it needs of a store: `Memory.closable`, `Relational.closable`.
* `Recovery.sweeps_of_reachable` — so it is in every state that either store can come to.
-/

namespace Runbook

/-- A visit before and after its run is closed: if it has not ended, it fails. -/
def Visit.Orphaned (v w : Visit) : Prop :=
  if v.status = .initializing ∨ v.status = .processing then
    ∃ now, w = { v with
      status := .error, result := "task failed: orphaned by restart", endTime := some now }
  else w = v

/-- A run before and after it is closed. -/
structure RunDetail.Orphaned (d d' : RunDetail) : Prop where
  /-- the run fails -/
  run : ∃ now, d'.run = { d.run with status := .error, updatedAt := now }
  /-- so do its visits that have not ended -/
  visits : List.Forall₂ Visit.Orphaned d.visits d'.visits
  /-- and that is all -/
  nodeNames : d'.nodeNames = d.nodeNames

theorem message_orphaned : orphaned.message = "task failed: orphaned by restart" := rfl

theorem Visit.orphaned_close (v : Visit) (now : Instant) : v.Orphaned (v.close now) := by
  rw [Orphaned, close, isActive]
  cases status : v.status <;> simp [Status.isTerminal, fail, message_orphaned]

theorem Visit.orphaned_closeAll (clock : Nat → Instant) (n : Nat) (vs : List Visit) :
    List.Forall₂ Orphaned vs (closeAll clock n vs) := by
  induction vs generalizing n with
  | nil => exact .nil
  | cons v vs ih => exact .cons (v.orphaned_close _) (ih _)

theorem RunDetail.orphaned_close (d : RunDetail) (clock : Nat → Instant) (n : Nat) :
    d.Orphaned (d.close clock n) := ⟨⟨_, rfl⟩, Visit.orphaned_closeAll clock n d.visits, rfl⟩

namespace Recovery

variable {σ : Type} [Store σ] {s s' : σ} {clock kept : Nat → Instant} {n : Nat}
  {runs : List RunRecord}

/-- Closing all runs, with a clock that has been read `n` times, brings the store from `s` to `s'`;
these were the runs that had not ended. -/
structure Sweeps (clock : Nat → Instant) (n : Nat) (s s' : σ) (runs : List RunRecord) : Prop where
  /-- they were listed as such -/
  listed : Store.unfinished s = (.ok runs, s)
  /-- their IDs are the answer, in that order -/
  closes : ∃ n', sweep clock (s, n) = (.ok (runs.map RunRecord.id), s', n')
  /-- each of them stands there once -/
  once : (runs.map RunRecord.id).Nodup
  /-- they had not ended, and now they have -/
  orphans : ∀ id ∈ runs.map RunRecord.id, ∃ d d', Store.detail id s = (.ok (some d), s) ∧
    (d.run.status = .initializing ∨ d.run.status = .processing) ∧
    Store.detail id s' = (.ok (some d'), s') ∧ d.Orphaned d'
  /-- the others had ended, and are as they were -/
  others : ∀ id ∉ runs.map RunRecord.id, ∃ found, Store.detail id s = (.ok found, s) ∧
    (∀ d ∈ found, d.run.status ≠ .initializing ∧ d.run.status ≠ .processing) ∧
    Store.detail id s' = (.ok found, s')
  /-- there is nothing left to close -/
  none : Store.unfinished s' = (.ok [], s')
  /-- so closing again, at any time, does nothing -/
  again : ∀ later k, sweep later (s', k) = (.ok [], s', k)

/-! ## What is needed of a store -/

/-- What closing runs needs of a store in a `Good` state: it has `stored` something of each run, it
lists those that have not ended, and it writes what is closed, with the readings of the clock as
they are `kept`. -/
structure Closable (clock kept : Nat → Instant) (Good : σ → Prop)
    (stored : σ → String → Option RunDetail) : Prop where
  /-- what is stored of a run is read -/
  detail : ∀ {s}, Good s → ∀ id, Store.detail id s = (.ok (stored s id), s)
  /-- it is stored under its own ID -/
  own : ∀ {s id d}, Good s → stored s id = some d → d.run.id = id
  /-- the runs that have not ended are listed -/
  unfinished : ∀ {s}, Good s → ∃ runs, Store.unfinished s = (.ok runs, s) ∧
    (runs.map RunRecord.id).Nodup ∧ ∀ id, id ∈ runs.map RunRecord.id ↔
      ∃ d, stored s id = some d ∧ d.run.status.isTerminal = false
  /-- a closed run is written, and nothing else -/
  update : ∀ {s id d} n, Good s → stored s id = some d →
    ∃ s', Store.update (d.close clock n).run (d.close clock n).visits s = (.ok (), s') ∧
      Good s' ∧ stored s' id = some (d.close kept n) ∧
      ∀ other ≠ id, stored s' other = stored s other

namespace Closable

variable {Good : σ → Prop} {stored : σ → String → Option RunDetail}
  (h : Closable clock kept Good stored)

include h

/-- The listed runs are closed, each at its reading of the clock, and only they. -/
theorem closeAll (good : Good s) (n : Nat) (distinct : (runs.map RunRecord.id).Nodup)
    (found : ∀ id ∈ runs.map RunRecord.id, ∃ d, stored s id = some d) :
    ∃ s' n', ∃ index : String → Nat,
      closeAll clock runs (s, n) = (.ok (runs.map RunRecord.id), s', n') ∧ Good s' ∧
      ∀ id, stored s' id = if id ∈ runs.map RunRecord.id then
        (stored s id).map (RunDetail.close kept (index id)) else stored s id := by
  induction runs generalizing s n with
  | nil => exact ⟨s, n, fun _ => 0, rfl, good, by simp⟩
  | cons run runs ih =>
    rw [List.map_cons, List.nodup_cons] at distinct
    rw [List.map_cons, List.forall_mem_cons] at found
    obtain ⟨⟨d, here⟩, rest⟩ := found
    obtain ⟨s₁, written, good₁, closed, others⟩ := h.update n good here
    have kept₁ : ∀ id ∈ runs.map RunRecord.id, stored s₁ id = stored s id := fun id hid =>
      others id fun same => distinct.1 (same ▸ hid)
    obtain ⟨s₂, n₂, index, answer, good₂, all⟩ :=
      ih good₁ (n + d.readings) distinct.2 fun id hid => kept₁ id hid ▸ rest id hid
    refine ⟨s₂, n₂, fun id => if id = run.id then n else index id, ?_, good₂, fun id => ?_⟩
    · simp [Recovery.closeAll, h.detail good, here, written, answer, Except.map, h.own good here]
    · rw [all id, List.map_cons]
      by_cases same : id = run.id
      · subst same
        simp [distinct.1, here, closed]
      · simp only [List.mem_cons, same, false_or, others id same, if_false]

/-- What closing all runs does. -/
theorem sweeps (good : Good s) (n : Nat) : ∃ runs s', Sweeps clock n s s' runs := by
  obtain ⟨runs, listed, once, orphans⟩ := h.unfinished good
  obtain ⟨s', n', index, closed, good', all⟩ := h.closeAll good n once fun id hid =>
    ((orphans id).1 hid).imp fun _ => And.left
  obtain ⟨left, listed', -, orphans'⟩ := h.unfinished good'
  -- a closed run is not listed any more, and one that was not listed is as it was
  have nobody : left = [] := by
    refine List.eq_nil_iff_forall_not_mem.2 fun run hrun => ?_
    obtain ⟨d', found', active⟩ := (orphans' run.id).1 (List.mem_map_of_mem hrun)
    rw [all run.id] at found'
    split at found'
    · obtain ⟨d, -, rfl⟩ := Option.map_eq_some_iff.1 found'
      cases active
    · next passed => exact passed ((orphans _).2 ⟨d', found', active⟩)
  subst nobody
  refine ⟨runs, s', listed, ⟨n', ?_⟩, once, fun id hid => ?_, fun id hid => ?_, listed',
    fun later k => ?_⟩
  · simp [sweep, listed, closed]
  · obtain ⟨d, found, active⟩ := (orphans id).1 hid
    refine ⟨d, d.close kept (index id), found ▸ h.detail good id, ?_, ?_, d.orphaned_close ..⟩
    · cases status : d.run.status <;> simp [status, Status.isTerminal] at active ⊢
    · rw [h.detail good' id, all id, if_pos hid, found, Option.map_some]
  · refine ⟨stored s id, h.detail good id, fun d found => ?_, ?_⟩
    · have ended := mt (orphans id).2 hid
      constructor
      · exact fun status => ended ⟨d, found, by rw [status]; rfl⟩
      · exact fun status => ended ⟨d, found, by rw [status]; rfl⟩
    · rw [h.detail good' id, all id, if_neg hid]
  · simp [sweep, listed', Recovery.closeAll]

end Closable

end Recovery

/-! ## The two stores -/

namespace Memory

variable {m : Memory} {id : String}

theorem unfinished_spec (sound : m.Sound) : (m.unfinished.map RunRecord.id).Nodup ∧
    ∀ id, id ∈ m.unfinished.map RunRecord.id ↔
      ∃ d, m.detail id = some d ∧ d.run.status.isTerminal = false := by
  have ids : (m.unfinished.map RunRecord.id).Sublist (m.entries.map (·.run.id)) := by
    rw [show m.entries.map (·.run.id) = (m.entries.map MemoryEntry.run).map RunRecord.id by simp]
    exact List.filter_sublist.map _
  refine ⟨sound.runs.sublist ids, fun id => ⟨fun hid => ?_, ?_⟩⟩
  · obtain ⟨r, hr, rfl⟩ := List.mem_map.1 hid
    obtain ⟨inside, active⟩ := List.mem_filter.1 hr
    obtain ⟨e, he, rfl⟩ := List.mem_map.1 inside
    have found : m.find? e.run.id = some e := find?_key_eq_some sound.runs he
    exact ⟨_, congrArg (Option.map _) found, by simpa using active⟩
  · rintro ⟨d, found, active⟩
    exact mem_unfinished found active

theorem closable (clock : Nat → Instant) :
    Recovery.Closable clock clock (fun m : Memory => m.Sound ∧ m.readOnly = false)
      fun m id => m.detail id where
  detail _ _ := rfl
  own _ found := id_of_detail found
  unfinished good := ⟨_, rfl, unfinished_spec good.1⟩
  update := by
    rintro m id d n ⟨sound, writable⟩ found
    have own : (d.close clock n).run.id = id := id_of_detail (d := d) found
    obtain ⟨written, writable'⟩ :=
      update_of_writable (d.close clock n).run (d.close clock n).visits writable
    have entry := List.mem_of_find?_eq_some (detail_eq_some.1 found).2
    refine ⟨_, Prod.ext written rfl, ⟨sound.update _ _, writable'⟩, ?_, fun other ne => ?_⟩
    · exact Recovery.detail_update_close writable found (sound.visits _ entry)
    · exact detail_update_of_ne _ (own ▸ ne.symm)

end Memory

namespace Relational

variable {t : Relational} {rs : List RunRecord} {vs : List Visit} {id : String}

/-- What is stored of a run, as it is read. -/
def stored (t : Relational) (id : String) : Option RunDetail := (t.detail id).toOption.join

namespace Held

variable (h : t.Held rs vs)

include h

theorem stored_eq (id : String) : t.stored id = (rs.find? (·.id == id)).map fun r =>
    ⟨r.asStored, (vs.filter (·.parentId == id)).map Visit.asStored, []⟩ := by
  rw [stored, h.tables, detail_holding h.runTimes h.visitTimes]
  rfl

theorem stored_eq_some {d : RunDetail} : t.stored id = some d ↔ ∃ r ∈ rs, r.id = id ∧
    d = ⟨r.asStored, (vs.filter (·.parentId == id)).map Visit.asStored, []⟩ := by
  rw [h.stored_eq, Option.map_eq_some_iff]
  constructor
  · rintro ⟨r, found, rfl⟩
    exact ⟨r, List.mem_of_find?_eq_some found, by simpa using List.find?_some found, rfl⟩
  · rintro ⟨r, hr, rfl, rfl⟩
    exact ⟨r, find?_key_eq_some h.runIds hr, rfl⟩

theorem detail_eq (id : String) : t.detail id = .ok (t.stored id) := by
  rw [h.stored_eq, h.tables, detail_holding h.runTimes h.visitTimes]

theorem unfinished_spec : ∃ runs, t.unfinished = .ok runs ∧ (runs.map RunRecord.id).Nodup ∧
    ∀ id, id ∈ runs.map RunRecord.id ↔
      ∃ d, t.stored id = some d ∧ d.run.status.isTerminal = false := by
  refine ⟨_, h.tables ▸ unfinished_holding h.runTimes, ?_⟩
  rw [List.map_map, show RunRecord.id ∘ RunRecord.asStored = RunRecord.id from rfl]
  -- the order does not matter
  have ids := ((List.mergeSort_perm _ fun a b : RunRecord =>
    decide (a.createdAt.printMicros ≤ b.createdAt.printMicros)).trans
      (active_perm rs)).map RunRecord.id
  refine ⟨ids.nodup_iff.2 (h.runIds.sublist (List.filter_sublist.map _)), fun id => ?_⟩
  rw [ids.mem_iff, List.mem_map]
  constructor
  · rintro ⟨r, hr, own⟩
    obtain ⟨inside, active⟩ := List.mem_filter.1 hr
    exact ⟨_, h.stored_eq_some.2 ⟨r, inside, own, rfl⟩, by simpa using active⟩
  · rintro ⟨d, stored, active⟩
    obtain ⟨r, inside, own, rfl⟩ := h.stored_eq_some.1 stored
    exact ⟨r, List.mem_filter.2 ⟨inside, by simpa using active⟩, own⟩

end Held

/-! ### Writing what is closed -/

theorem everyTime_close {v : Visit} {now : Instant} (times : v.EveryTime Instant.FourDigits)
    (time : now.FourDigits) : (v.asStored.close now).EveryTime Instant.FourDigits := by
  have start := Instant.fourDigits_asStored.2 times.1
  rw [Visit.close]
  split
  · exact ⟨start, by simpa [Visit.fail] using time⟩
  · refine ⟨start, fun t ht => ?_⟩
    obtain ⟨u, hu, rfl⟩ := Option.map_eq_some_iff.1 ht
    exact Instant.fourDigits_asStored.2 (times.2 u hu)

/-- What is read of a visit when it was read, closed and written. -/
theorem asStored_overwrite_close (v : Visit) (now : Instant) :
    (v.overwrite (v.asStored.close now)).asStored = v.asStored.close now.asStored := by
  rw [Visit.close, Visit.close]
  split
  · rfl
  · simp [Visit.asStored, Visit.overwrite, Function.comp_def,
      Instant.asStored_asStored]

/-- The record of a run that is closed. -/
def closeRun (now : Instant) (r : RunRecord) : RunRecord :=
  { r.asStored with status := .error, updatedAt := now }

@[simp] theorem id_closeRun (now : Instant) (r : RunRecord) : (closeRun now r).id = r.id := rfl

/-- Visits with different IDs are closed each at its own reading of the clock, whatever that
shows. -/
theorem closeAll_eq_map (distinct : (vs.map Visit.id).Nodup) (n : Nat) : ∃ index : String → Nat,
    ∀ clock, Visit.closeAll clock n vs = vs.map fun v => v.close (clock (index v.id)) := by
  induction vs generalizing n with
  | nil => exact ⟨fun _ => 0, fun _ => rfl⟩
  | cons v vs ih =>
    obtain ⟨new, distinct⟩ := List.nodup_cons.1 distinct
    obtain ⟨index, closed⟩ := ih distinct (if v.isActive then n + 1 else n)
    refine ⟨fun id => if id = v.id then n else index id, fun clock => ?_⟩
    rw [Visit.closeAll, closed, List.map_cons]
    dsimp only
    rw [if_pos rfl]
    congr 1
    refine List.map_congr_left fun w hw => ?_
    have other : w.id ≠ v.id := fun same => new (same ▸ List.mem_map_of_mem hw)
    rw [if_neg other]

section

variable (id : String) (now : String → Instant)

/-- The visits of a run that is closed, in their places; each of them is closed at its own time. -/
def closeVisits (vs : List Visit) : List Visit :=
  vs.map fun v => if v.parentId = id then v.overwrite (v.asStored.close (now v.id)) else v

theorem filter_closeVisits (vs : List Visit) (other : String) :
    (closeVisits id now vs).filter (·.parentId == other) =
      closeVisits id now (vs.filter (·.parentId == other)) := by
  rw [closeVisits, List.filter_map]
  congr 2
  funext v
  simp only [Function.comp_apply]
  split <;> rfl

/-- What is read of the run then is closed. -/
theorem asStored_closeVisits (vs : List Visit) :
    ((closeVisits id now vs).filter (·.parentId == id)).map Visit.asStored =
      ((vs.filter (·.parentId == id)).map Visit.asStored).map
        fun v => v.close (now v.id).asStored := by
  rw [filter_closeVisits, closeVisits, List.map_map, List.map_map]
  refine List.map_congr_left fun v hv => ?_
  have here : v.parentId = id := by simpa using (List.mem_filter.1 hv).2
  simp only [Function.comp_apply, if_pos here, asStored_overwrite_close, Visit.id_asStored]

theorem filter_closeVisits_of_ne {other : String} (vs : List Visit) (ne : other ≠ id) :
    (closeVisits id now vs).filter (·.parentId == other) =
      vs.filter (·.parentId == other) := by
  rw [filter_closeVisits, closeVisits]
  refine (List.map_congr_left fun v hv => if_neg ?_).trans (List.map_id _)
  have elsewhere : v.parentId = other := by simpa using (List.mem_filter.1 hv).2
  exact elsewhere ▸ ne

/-- Only the visits of the run are written. -/
theorem foldl_upsert_close (distinct : (vs.map Visit.id).Nodup) :
    (((vs.filter (·.parentId == id)).map Visit.asStored).map fun v => v.close (now v.id)).foldl
      Visit.upsert vs = closeVisits id now vs := by
  rw [List.map_map, closeVisits]
  have ids : ((vs.filter (·.parentId == id)).map
      ((fun v => v.close (now v.id)) ∘ Visit.asStored)).map Visit.id =
        (vs.filter (·.parentId == id)).map Visit.id := by
    rw [List.map_map]
    exact List.map_congr_left fun v _ => by simp
  have inside : ((vs.filter (·.parentId == id)).map Visit.id).Sublist (vs.map Visit.id) :=
    List.filter_sublist.map _
  have own := ids ▸ distinct.sublist inside
  rw [foldl_upsert_eq_map Visit.id_overwrite own (ids ▸ inside.subset)]
  -- of each row, does one of the closed rows overwrite it?
  refine List.map_congr_left fun v hv => ?_
  split
  · next here =>
    have hw := List.mem_map_of_mem (f := (fun v => v.close (now v.id)) ∘ Visit.asStored)
      (List.mem_filter.2 ⟨hv, beq_iff_eq.2 here⟩ : v ∈ vs.filter (·.parentId == id))
    have found := find?_key_eq_some own hw
    simp only [Function.comp_apply, Visit.id_close, Visit.id_asStored] at found
    rw [found]
    rfl
  · next elsewhere =>
    have missing : ((vs.filter (·.parentId == id)).map
        ((fun v => v.close (now v.id)) ∘ Visit.asStored)).find? (·.id == v.id) = none := by
      refine List.find?_eq_none.2 fun w hw same => ?_
      obtain ⟨x, hx, rfl⟩ := List.mem_map.1 hw
      obtain ⟨hx, parent⟩ := List.mem_filter.1 hx
      have eq : x = v := List.inj_on_of_nodup_map distinct hx hv (by simpa using same)
      exact elsewhere (eq ▸ beq_iff_eq.1 parent)
    rw [missing, Option.elim_none]

end

/-- What is stored when a run is closed. -/
theorem Held.update_close (h : t.Held rs vs) {r : RunRecord} (hr : r ∈ rs) {last : Instant}
    {now : String → Instant} (time : last.FourDigits) (times : ∀ id, (now id).FourDigits) :
    ∃ t', t.update (closeRun last r)
        (((vs.filter (·.parentId == r.id)).map Visit.asStored).map fun v => v.close (now v.id)) =
      (.ok (), t') ∧
      t'.Held (RunRecord.upsert rs (closeRun last r)) (closeVisits r.id now vs) := by
  have runTimes : (closeRun last r).EveryTime Instant.FourDigits :=
    ⟨Instant.fourDigits_asStored.2 (h.runTimes r hr).1, time⟩
  have visitTimes : ∀ w ∈ ((vs.filter (·.parentId == r.id)).map Visit.asStored).map
      (fun v => v.close (now v.id)), w.EveryTime Instant.FourDigits := by
    intro w hw
    rw [List.map_map] at hw
    obtain ⟨v, hv, rfl⟩ := List.mem_map.1 hw
    exact everyTime_close (h.visitTimes v (List.mem_filter.1 hv).1) (times _)
  have stored := h.upsertRun runTimes
  have written : (t.upsertRun (closeRun last r)).upsertVisits
      (((vs.filter (·.parentId == r.id)).map Visit.asStored).map fun v => v.close (now v.id)) =
        .ok (holding (RunRecord.upsert rs (closeRun last r)) (closeVisits r.id now vs)) := by
    rw [stored.tables, upsertVisits_holding, foldl_upsert_close _ _ h.visitIds]
    intro w hw
    rw [List.map_map] at hw
    obtain ⟨v, hv, rfl⟩ := List.mem_map.1 hw
    left
    simpa using ⟨v, (List.mem_filter.1 hv).1, rfl⟩
  refine ⟨_, by rw [Relational.update, written], ?_⟩
  have held := stored.upsertVisits visitTimes written
  rwa [foldl_upsert_close _ _ h.visitIds] at held

/-- The visits of a run have different IDs, also as they are read. -/
theorem Held.nodup_read (h : t.Held rs vs) (id : String) :
    (((vs.filter (·.parentId == id)).map Visit.asStored).map Visit.id).Nodup := by
  rw [List.map_map, show Visit.id ∘ Visit.asStored = Visit.id from rfl]
  exact h.visitIds.sublist (List.filter_sublist.map _)

theorem closable {clock : Nat → Instant} (times : ∀ n, (clock n).FourDigits) :
    Recovery.Closable clock (fun n => (clock n).asStored)
      (fun t : Relational => ∃ rs vs, t.Held rs vs) stored where
  detail := by
    rintro t ⟨rs, vs, held⟩ id
    exact Prod.ext (held.detail_eq id) rfl
  own := by
    rintro t id d ⟨rs, vs, held⟩ found
    obtain ⟨r, -, own, rfl⟩ := held.stored_eq_some.1 found
    exact own
  unfinished := by
    rintro t ⟨rs, vs, held⟩
    obtain ⟨runs, listed, spec⟩ := held.unfinished_spec
    exact ⟨runs, Prod.ext listed rfl, spec⟩
  update := by
    rintro t id d n ⟨rs, vs, held⟩ found
    obtain ⟨r, hr, rfl, rfl⟩ := held.stored_eq_some.1 found
    obtain ⟨index, closed⟩ := closeAll_eq_map (held.nodup_read r.id) n
    obtain ⟨t', written, held'⟩ := held.update_close hr (times _) fun id => times (index id)
    rw [← closed] at written
    refine ⟨t', written, ⟨_, _, held'⟩, ?_, fun other ne => ?_⟩
    · refine held'.stored_eq_some.2 ⟨_, mem_upsert hr rfl, rfl, ?_⟩
      rw [asStored_closeVisits, RunDetail.close, closed]
      rfl
    · rw [held'.stored_eq, held.stored_eq, find?_upsert RunRecord.id_overwrite, id_closeRun,
        if_neg (Ne.symm ne), filter_closeVisits_of_ne _ _ vs ne]

end Relational

namespace Recovery

/-- Closing all orphaned runs closes exactly the runs that have not ended, and leaves nothing for a
second time: in the store in memory if it can be written to, and in the relational store. The clock
may show anything, if the years it shows have four digits in the relational store. -/
theorem sweeps_of_reachable (clock : Nat → Instant) (n : Nat) :
    (∀ m : Memory, m.Reachable → m.readOnly = false → ∃ runs m', Sweeps clock n m m' runs) ∧
      ((∀ n, (clock n).FourDigits) → ∀ t : Relational, t.Reachable →
        ∃ runs t', Sweeps clock n t t' runs) := by
  refine ⟨fun m reachable writable => ?_, fun times t reachable => ?_⟩
  · exact (Memory.closable clock).sweeps ⟨reachable.sound, writable⟩ n
  · exact (Relational.closable times).sweeps reachable.held n

/-- Three runs: one has not started, one is at work with a visit that has ended and one that has
not, and one has ended although its visit has not. -/
def scattered : List StoreRequest :=
  let run (id : String) (status : Status) : RunRecord :=
    { RunRecord.create id "p" "b" "t" "u" .epoch with status }
  let visit (id : String) (run : String) (status : Status) : Visit :=
    ⟨id, run, "b", "u", "n", status, "", .immediate, "", .epoch, none⟩
  [.createRun (run "r" .initializing), .createRun (run "s" .processing),
    .createVisit (visit "v" "s" .finished), .createVisit (visit "w" "s" .processing),
    .createRun (run "q" .finished), .createVisit (visit "x" "q" .processing)]

theorem scattered_sweeps :
    (∃ runs m', Sweeps (fun n => .ofMicros n) 0 (StoreRequest.performAll Memory.empty scattered)
      m' runs ∧ runs.map RunRecord.id = ["r", "s"]) ∧
    ∃ runs t', Sweeps (fun _ => .epoch) 0 (StoreRequest.performAll Relational.empty scattered) t'
      runs := by
  refine ⟨?_, ?_⟩
  · obtain ⟨runs, m', swept⟩ := (sweeps_of_reachable (fun n => .ofMicros n) 0).1 _
      (.performAll .empty scattered) rfl
    refine ⟨runs, m', swept, ?_⟩
    cases swept.listed
    rfl
  · exact (sweeps_of_reachable (fun _ => .epoch) 0).2 (fun _ => by decide +kernel) _
      (.performAll .empty (by decide +kernel))

end Recovery

end Runbook
