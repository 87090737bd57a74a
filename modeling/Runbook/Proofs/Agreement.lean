import Mathlib.Data.List.Induction
import Runbook.Proofs.Tables

/-!
# The two stores agree

Whoever keeps some discipline cannot tell the two stores apart, except by the wording of errors. The
store in memory replaces whole records, and the tables only take over what a run changes: that is
the same if nothing else changes. The tables are sorted by times, and the store in memory by the
order of writing: that is the same if the runs are written in the order of their times.

* `Disciplined` — the discipline.
* `Agrees` — both stores hold the same records, which come from some writes.
* `Disciplined.stores_agree` — so both give the same answers to all calls.
-/

namespace Runbook

/-! ## Discipline -/

/-- The runs that some calls write, in the order of the writes. -/
def runsWritten (qs : List StoreRequest) : List RunRecord := qs.flatMap StoreRequest.runs

/-- The visits that some calls write, in the order of the writes. -/
def visitsWritten (qs : List StoreRequest) : List Visit := qs.flatMap StoreRequest.visits

/-- The first write of each run. -/
def firstWrites (rs : List RunRecord) : List RunRecord :=
  rs.foldl (upsert RunRecord.id fun first _ => first) []

/-- Visits are written under their runs. -/
def StoreRequest.UnderRun : StoreRequest → Prop
  | update r visits => ∀ v ∈ visits, v.parentId = r.id
  | _ => True

instance : DecidablePred StoreRequest.UnderRun
  | .update r visits => inferInstanceAs (Decidable (∀ v ∈ visits, v.parentId = r.id))
  | .createRun _ | .createVisit _ | .get _ | .detail _ | .list _ | .unfinished => .isTrue trivial

/-- The calls write each record consistently, and the runs in the order of their creation. -/
structure Disciplined (qs : List StoreRequest) : Prop where
  /-- visits are written under their runs -/
  underRun : ∀ q ∈ qs, q.UnderRun
  /-- no two runs have visits of one ID -/
  apart : ∀ v ∈ visitsWritten qs, ∀ w ∈ visitsWritten qs, v.id = w.id → v.parentId = w.parentId
  /-- a run changes only what it changes while it is at work -/
  runs : ∀ r ∈ runsWritten qs, ∀ s ∈ runsWritten qs, r.id = s.id → r.overwrite s = s
  /-- so does a visit -/
  visits : ∀ v ∈ visitsWritten qs, ∀ w ∈ visitsWritten qs, v.id = w.id →
    v.parentId = w.parentId → v.overwrite w = w
  /-- a run that is written first later was created later -/
  inOrder : (firstWrites (runsWritten qs)).Pairwise fun r s => r.createdAt.before s.createdAt
  /-- the times can be stored -/
  times : ∀ q ∈ qs, q.EveryTime Instant.Stored

/-- What the calls are answered, one after the other. -/
def StoreRequest.answers {σ : Type} [Store σ] (s : σ) :
    List StoreRequest → List (Except EngineError StoreAnswer)
  | [] => []
  | q :: qs => (q.perform s).1 :: answers (q.perform s).2 qs

/-! ## Times that are stored as they are -/

variable {r : RunRecord} {v w : Visit} {rs : List RunRecord} {vs ws : List Visit} {id : String}

/-- A run whose times have whole microseconds and years of four digits is read from the tables as it
was written, -/
theorem RunRecord.asStored_eq (h : r.EveryTime Instant.Stored) : r.asStored = r := by
  rw [asStored, h.1.asStored_eq, h.2.asStored_eq]

/-- and so is a visit. -/
theorem Visit.asStored_eq (h : v.EveryTime Instant.Stored) : v.asStored = v := by
  have ended : v.endTime.map Instant.asStored = v.endTime := by
    cases time : v.endTime with
    | none => rfl
    | some t => exact congrArg some (h.2 t time).asStored_eq
  rw [asStored, h.1.asStored_eq, ended]

/-! ## Sorting -/

/-- What comes before another text may stand before it. -/
theorem le_of_text_lt {a b : String} (h : a < b) : a ≤ b := String.not_lt.1 (String.lt_asymm h)

/-- Sorting by a text brings back the order in which the texts grow. -/
theorem mergeSort_eq_of_perm {α : Type} {text : α → String} {l l' : List α}
    (sorted : l.Pairwise fun a b => text a < text b) (perm : l'.Perm l) :
    (l'.mergeSort fun a b => decide (text a ≤ text b)) = l := by
  have distinct : (l.map text).Nodup :=
    List.pairwise_map.2 (sorted.imp fun less => String.ne_of_lt less)
  have whole := (List.mergeSort_perm l' fun a b => decide (text a ≤ text b)).trans perm
  refine whole.eq_of_pairwise ?_ (List.pairwise_mergeSort ?_ ?_ l') ?_
  · intro a b ha hb hab hba
    refine List.inj_on_of_nodup_map distinct (whole.subset ha) hb ?_
    exact String.le_antisymm (of_decide_eq_true hab) (of_decide_eq_true hba)
  · simpa using fun a b c => String.le_trans
  · simpa using fun a b => String.le_total _ _
  · exact sorted.imp fun less => decide_eq_true (le_of_text_lt less)

/-- Which rows are on a page depends on their number only. -/
theorem RunQuery.pageOf_map {α β : Type} (q : RunQuery) (most : Nat) (f : α → β) (l : List α) :
    q.pageOf most (l.map f) = (q.pageOf most l).map f := by
  rw [pageOf, pageOf, List.map_take, List.map_drop]

/-! ## The store in memory -/

namespace Memory

/-- The store with these runs and visits. -/
def holding (rs : List RunRecord) (vs : List Visit) (updates : Nat) : Memory :=
  ⟨rs.map fun r => ⟨r, vs.filter (·.parentId == r.id)⟩, false, updates⟩

variable {n : Nat}

/-- An entry has the run and the visits under it, in the order in which they were written. -/
theorem find?_holding (id : String) : (holding rs vs n).find? id =
    (rs.find? (·.id == id)).map fun r => ⟨r, vs.filter (·.parentId == r.id)⟩ := List.find?_map

/-- So there is one for each run that is held. -/
theorem isSome_find?_holding :
    ((holding rs vs n).find? id).isSome = true ↔ id ∈ rs.map RunRecord.id := by
  rw [find?_holding, Option.isSome_map, List.find?_isSome, List.mem_map]
  simp

/-- A visit that changes only what it may replaces an earlier one as a whole. -/
theorem upsert_eq_upsertVisit (same : ∀ w ∈ vs, w.id = v.id → w.overwrite v = v) :
    Visit.upsert vs v = upsertVisit vs v := by
  have known : vs.any (·.id == v.id) = true ↔ v.id ∈ vs.map Visit.id := by simp
  rw [Visit.upsert, upsert, upsertVisit]
  by_cases h : v.id ∈ vs.map Visit.id
  · rw [if_pos h, if_pos (known.2 h)]
    refine List.map_congr_left fun w hw => ?_
    split
    · next here => exact same w hw here
    · rfl
  · rw [if_neg h, if_neg (mt known.1 h)]

/-- Writing a visit among all visits writes it among those of its run, and only there. -/
theorem filter_upsertVisit (same : ∀ w ∈ vs, w.id = v.id → w.parentId = v.parentId)
    (id : String) : (upsertVisit vs v).filter (·.parentId == id) =
      if v.parentId = id then upsertVisit (vs.filter (·.parentId == id)) v
      else vs.filter (·.parentId == id) := by
  by_cases stored : vs.any (·.id == v.id) = true
  · obtain ⟨w, hw, hid⟩ := List.any_eq_true.1 stored
    have own : w.parentId = v.parentId := same w hw (beq_iff_eq.1 hid)
    -- what is written stands under the same run
    have stays : (·.parentId == id) ∘ (fun w : Visit => if w.id = v.id then v else w) =
        fun w => if w.id = v.id then v.parentId == id else w.parentId == id := by
      funext w
      simp only [Function.comp_apply]
      split <;> rfl
    have kept : vs.filter (fun w => if w.id = v.id then v.parentId == id else w.parentId == id) =
        vs.filter (·.parentId == id) := by
      refine List.filter_congr fun w hw => ?_
      split
      · next here => rw [same w hw here]
      · rfl
    rw [upsertVisit, if_pos stored, List.filter_map, stays, kept]
    split
    · next here =>
      have inside : (vs.filter (·.parentId == id)).any (·.id == v.id) = true :=
        List.any_eq_true.2 ⟨w, List.mem_filter.2 ⟨hw, by simp [own, here]⟩, hid⟩
      rw [upsertVisit, if_pos inside]
    · next elsewhere =>
      refine (List.map_congr_left fun w hw => if_neg fun here => elsewhere ?_).trans (List.map_id _)
      obtain ⟨hw, parent⟩ := List.mem_filter.1 hw
      rw [← same w hw here]
      exact beq_iff_eq.1 parent
  · have absent : ¬ (vs.filter (·.parentId == id)).any (·.id == v.id) = true := by
      rw [List.any_filter]
      refine fun inside => stored ?_
      obtain ⟨w, hw, both⟩ := List.any_eq_true.1 inside
      exact List.any_eq_true.2 ⟨w, hw, (Bool.and_eq_true_iff.1 both).2⟩
    rw [upsertVisit, if_neg stored, upsertVisit, if_neg absent, List.filter_append]
    by_cases here : v.parentId = id <;> simp [here]

section

variable {all : List Visit} {run : String}
  (consistent : ∀ v ∈ all, ∀ w ∈ all, v.id = w.id → v.overwrite w = w)
  (stored : ∀ v ∈ vs, v ∈ all) (new : ∀ w ∈ ws, w ∈ all)

include consistent stored new

/-- What is stored was written now, or before. -/
theorem mem_of_mem_foldl_upsert : ∀ w ∈ ws.foldl Visit.upsert vs, w ∈ vs ∨ w ∈ ws := by
  induction ws generalizing vs with
  | nil => exact fun w => .inl
  | cons v ws ih =>
    obtain ⟨here, rest⟩ := List.forall_mem_cons.1 new
    have one : ∀ w ∈ Visit.upsert vs v, w ∈ vs ∨ w = v :=
      forall_upsert (fun w => .inl) (.inr rfl) fun w hw same =>
        .inr (consistent w (stored w hw) v here same)
    have inside : ∀ w ∈ Visit.upsert vs v, w ∈ all := fun w hw =>
      (one w hw).elim (stored w) (by rintro rfl; exact here)
    intro w hw
    rcases ih inside rest w hw with hw | hw
    · rcases one w hw with hw | rfl
      · exact .inl hw
      · exact .inr (List.mem_cons_self ..)
    · exact .inr (List.mem_cons_of_mem v hw)

/-- Writing visits of a run among all visits writes them among those of the run, and only
there. -/
theorem filter_foldl_upsert (own : ∀ w ∈ ws, w.parentId = run) (id : String) :
    (ws.foldl Visit.upsert vs).filter (·.parentId == id) =
      if run = id then ws.foldl upsertVisit (vs.filter (·.parentId == id))
      else vs.filter (·.parentId == id) := by
  induction ws generalizing vs with
  | nil => simp
  | cons v ws ih =>
    obtain ⟨here, rest⟩ := List.forall_mem_cons.1 new
    obtain ⟨rfl, own⟩ := List.forall_mem_cons.1 own
    have whole (w : Visit) (hw : w ∈ vs) (same : w.id = v.id) : w.overwrite v = v :=
      consistent w (stored w hw) v here same
    have parent (w : Visit) (hw : w ∈ vs) (same : w.id = v.id) : w.parentId = v.parentId := by
      rw [← whole w hw same, Visit.parentId_overwrite]
    have inside : ∀ w ∈ Visit.upsert vs v, w ∈ all :=
      forall_upsert stored here fun w hw same => (whole w hw same).symm ▸ here
    rw [List.foldl_cons, ih inside rest own, upsert_eq_upsertVisit whole,
      filter_upsertVisit parent]
    split <;> rfl

end

/-! ### Calls -/

/-- A run that is not stored has no visits. -/
theorem filter_eq_nil (parents : ∀ v ∈ vs, v.parentId ∈ rs.map RunRecord.id)
    (fresh : id ∉ rs.map RunRecord.id) : vs.filter (·.parentId == id) = [] :=
  List.filter_eq_nil_iff.2 fun v hv own => fresh (beq_iff_eq.1 own ▸ parents v hv)

/-- A run is added. -/
theorem holding_concat (parents : ∀ v ∈ vs, v.parentId ∈ rs.map RunRecord.id)
    (fresh : r.id ∉ rs.map RunRecord.id) : (holding (rs ++ [r]) vs n).entries =
      (holding rs vs n).entries ++ [⟨r, []⟩] := by
  simp [holding, filter_eq_nil parents fresh]

/-- A new run comes last. There are no visits under it yet, as all visits have their runs. -/
theorem createRun_holding (parents : ∀ v ∈ vs, v.parentId ∈ rs.map RunRecord.id)
    (fresh : r.id ∉ rs.map RunRecord.id) :
    (holding rs vs n).createRun r = (.ok (), holding (rs ++ [r]) vs n) := by
  rw [createRun, if_neg (mt isSome_find?_holding.1 fresh), ← holding_concat parents fresh]
  rfl

/-- One that is held is refused, and stays as it is. -/
theorem createRun_holding_of_mem (known : r.id ∈ rs.map RunRecord.id) :
    (holding rs vs n).createRun r = (.error (.storage (.runExists r.id)), holding rs vs n) :=
  if_pos (isSome_find?_holding.2 known)

/-- A visit is refused without its run, and if it is stored. -/
theorem createVisit_holding_refused (h : v.parentId ∈ rs.map RunRecord.id →
    ∃ w ∈ vs, w.id = v.id ∧ w.parentId = v.parentId) :
    ∃ e, (holding rs vs n).createVisit v = (.error e, holding rs vs n) := by
  have writable : ¬ (holding rs vs n).readOnly = true := Bool.false_ne_true
  rw [createVisit, if_neg writable, find?_holding]
  cases found : rs.find? (·.id == v.parentId) with
  | none => exact ⟨_, rfl⟩
  | some r =>
    have own : r.id = v.parentId := by simpa using List.find?_some found
    obtain ⟨w, hw, same, parent⟩ := h (own ▸ List.mem_map_of_mem (List.mem_of_find?_eq_some found))
    have inside : (vs.filter (·.parentId == r.id)).any (·.id == v.id) = true :=
      List.any_eq_true.2 ⟨w, List.mem_filter.2 ⟨hw, by simp [parent, own]⟩, by simp [same]⟩
    exact ⟨_, if_pos inside⟩

/-- A new visit comes last among those of its run, which is where it stands among all visits. -/
theorem createVisit_holding (found : v.parentId ∈ rs.map RunRecord.id)
    (fresh : v.id ∉ vs.map Visit.id) :
    (holding rs vs n).createVisit v = (.ok (), holding rs (vs ++ [v]) n) := by
  obtain ⟨e, entry⟩ := Option.isSome_iff_exists.1 ((isSome_find?_holding (n := n)).2 found)
  have new : ¬ e.visits.any (·.id == v.id) = true := by
    rw [find?_holding] at entry
    obtain ⟨r, -, rfl⟩ := Option.map_eq_some_iff.1 entry
    intro inside
    obtain ⟨w, hw, same⟩ := List.any_eq_true.1 inside
    exact fresh (beq_iff_eq.1 same ▸ List.mem_map_of_mem (List.mem_filter.1 hw).1)
  have writable : ¬ (holding rs vs n).readOnly = true := Bool.false_ne_true
  rw [createVisit, if_neg writable, entry]
  dsimp only
  rw [if_neg new]
  refine Prod.ext rfl ?_
  simp only [holding, modify, List.map_map, Memory.mk.injEq, and_true]
  refine List.map_congr_left fun r _ => ?_
  by_cases own : r.id = v.parentId
  · simp [own]
  · simp [own, Ne.symm own]

section

variable {all : List Visit}
  (consistent : ∀ v ∈ all, ∀ w ∈ all, v.id = w.id → v.overwrite w = w)
  (stored : ∀ v ∈ vs, v ∈ all) (new : ∀ w ∈ ws, w ∈ all) (own : ∀ w ∈ ws, w.parentId = r.id)
  (whole : ∀ s ∈ rs, s.id = r.id → s.overwrite r = r)

include consistent stored new own whole

/-- A run is written over the one with its ID, and so are its visits. -/
theorem modify_holding :
    (holding rs vs n).modify r.id (fun e => ⟨r, ws.foldl upsertVisit e.visits⟩) =
      holding (rs.map fun s => if s.id = r.id then s.overwrite r else s)
        (ws.foldl Visit.upsert vs) n := by
  have filtered := filter_foldl_upsert consistent stored new own
  simp only [holding, modify, List.map_map, Memory.mk.injEq, and_true]
  refine List.map_congr_left fun s hs => ?_
  by_cases here : s.id = r.id
  · simp [here, whole s hs here, filtered]
  · simp [here, Ne.symm here, filtered]

/-- So an update does to what is held what it does to the rows of the tables. A run that is new is
added first, with no visits, and written over at once, which leaves it as it is. -/
theorem update_holding (parents : ∀ v ∈ vs, v.parentId ∈ rs.map RunRecord.id) :
    (holding rs vs n).update r ws =
      (.ok (), holding (RunRecord.upsert rs r) (ws.foldl Visit.upsert vs) (n + 1)) := by
  have writable : ¬ (holding rs vs n).readOnly = true := Bool.false_ne_true
  rw [update, if_neg writable]
  refine Prod.ext rfl ?_
  dsimp only
  rw [RunRecord.upsert, upsert]
  by_cases known : r.id ∈ rs.map RunRecord.id
  · rw [if_pos (isSome_find?_holding.2 known), if_pos known,
      modify_holding consistent stored new own whole]
    rfl
  · -- the run is added first
    have added : ({ holding rs vs n with entries := (holding rs vs n).entries ++ [⟨r, []⟩] } :
        Memory) = holding (rs ++ [r]) vs n := by
      rw [← holding_concat parents known]
      rfl
    have whole' : ∀ s ∈ rs ++ [r], s.id = r.id → s.overwrite r = r :=
      List.forall_mem_append.2 ⟨whole, List.forall_mem_singleton.2 fun _ => rfl⟩
    have kept : (rs ++ [r]).map (fun s => if s.id = r.id then s.overwrite r else s) =
        rs ++ [r] := by
      have others : ∀ s ∈ rs, s.id ≠ r.id := fun s hs same =>
        known (same ▸ List.mem_map_of_mem hs)
      rw [List.map_append, List.map_congr_left fun s hs => if_neg (others s hs), List.map_id']
      simp [RunRecord.overwrite]
    rw [if_neg (mt isSome_find?_holding.1 known), if_neg known, added,
      modify_holding consistent stored new own whole', kept]
    rfl

end

end Memory

/-! ## The same records in both stores -/

/-- What is written by calls one after the other is written in this order, -/
theorem runsWritten_append (qs ps : List StoreRequest) :
    runsWritten (qs ++ ps) = runsWritten qs ++ runsWritten ps := List.flatMap_append

/-- also of visits. -/
theorem visitsWritten_append (qs ps : List StoreRequest) :
    visitsWritten (qs ++ ps) = visitsWritten qs ++ visitsWritten ps := List.flatMap_append

/-- What was written is among the writes of all that follows, -/
theorem mem_runsWritten_mono {qs ps : List StoreRequest} (h : qs <+: ps)
    (hr : r ∈ runsWritten qs) : r ∈ runsWritten ps := by
  obtain ⟨more, rfl⟩ := h
  exact runsWritten_append qs more ▸ List.mem_append_left _ hr

/-- so that the discipline, which is about all writes there will be, can be used for those so
far. -/
theorem mem_visitsWritten_mono {qs ps : List StoreRequest} (h : qs <+: ps)
    (hv : v ∈ visitsWritten qs) : v ∈ visitsWritten ps := by
  obtain ⟨more, rfl⟩ := h
  exact visitsWritten_append qs more ▸ List.mem_append_left _ hv

/-- Visits of one ID differ only in what a visit changes while it is at work. -/
theorem Disciplined.consistent {qs : List StoreRequest} (d : Disciplined qs) :
    ∀ v ∈ visitsWritten qs, ∀ w ∈ visitsWritten qs, v.id = w.id → v.overwrite w = w :=
  fun v hv w hw same => d.visits v hv w hw same (d.apart v hv w hw same)

/-- A write of a run is a first one if no write before it was of that run. -/
theorem firstWrites_concat (rs : List RunRecord) (r : RunRecord) : firstWrites (rs ++ [r]) =
    if r.id ∈ (firstWrites rs).map RunRecord.id then firstWrites rs else firstWrites rs ++ [r] := by
  have kept : (upsert RunRecord.id (fun first _ => first) (firstWrites rs) r).map id = _ :=
    map_upsert (fun _ _ => rfl) (firstWrites rs) r
  rw [List.map_id, List.map_id] at kept
  rw [firstWrites, List.foldl_append]
  exact kept

/-- Later writes are first ones only of other runs. -/
theorem prefix_firstWrites (rs more : List RunRecord) :
    firstWrites rs <+: firstWrites (rs ++ more) := by
  induction more using List.reverseRecOn with
  | nil => simp
  | append_singleton more r ih =>
    rw [← List.append_assoc, firstWrites_concat]
    split
    · exact ih
    · exact ih.trans (List.prefix_append _ _)

/-- What of a run is never written over. -/
def RunRecord.birth (r : RunRecord) : String × Instant := (r.id, r.createdAt)

/-- Both stores hold the same records, which come from these calls. -/
structure Agrees (qs : List StoreRequest) (m : Memory) (t : Relational) (rs : List RunRecord)
    (vs : List Visit) (n : Nat) : Prop where
  /-- the store in memory -/
  memory : m = Memory.holding rs vs n
  /-- the tables -/
  tables : t = Relational.holding rs vs
  /-- the runs were written -/
  runs : ∀ r ∈ rs, r ∈ runsWritten qs
  /-- the visits were written -/
  visits : ∀ v ∈ vs, v ∈ visitsWritten qs
  /-- their runs are stored -/
  parents : ∀ v ∈ vs, v.parentId ∈ rs.map RunRecord.id
  /-- the runs stand in the order of their first writes -/
  first : rs.map RunRecord.birth = (firstWrites (runsWritten qs)).map RunRecord.birth

namespace Agrees

variable {all qs : List StoreRequest} {q : StoreRequest} {m : Memory} {t : Relational} {n : Nat}

/-- Both stores are empty at the beginning. -/
theorem empty : Agrees [] .empty .empty [] [] 0 :=
  ⟨rfl, rfl, by simp, by simp, by simp, rfl⟩

section reads

variable (h : Agrees qs m t rs vs n) (d : Disciplined all) (start : qs <+: all)

include h d start

/-- The times of the runs can be stored, since they come from writes that are disciplined, -/
theorem runTimes : ∀ r ∈ rs, r.EveryTime Instant.Stored := by
  intro r hr
  obtain ⟨q, hq, hr⟩ := List.mem_flatMap.1 (h.runs r hr)
  exact (d.times q (start.subset hq)).runs r hr

/-- and so can those of the visits. -/
theorem visitTimes : ∀ v ∈ vs, v.EveryTime Instant.Stored := by
  intro v hv
  obtain ⟨q, hq, hv⟩ := List.mem_flatMap.1 (h.visits v hv)
  exact (d.times q (start.subset hq)).visits v hv

/-- The runs stand in the order of the texts of their creation. -/
theorem sorted : rs.Pairwise fun r s => r.createdAt.printMicros < s.createdAt.printMicros := by
  have inOrder : (firstWrites (runsWritten qs)).Pairwise fun r s =>
      r.createdAt.before s.createdAt := by
    obtain ⟨later, rfl⟩ := start
    refine d.inOrder.sublist ?_
    rw [runsWritten_append]
    exact (prefix_firstWrites _ _).sublist
  have births : (rs.map RunRecord.birth).Pairwise fun a b => a.2.before b.2 := by
    rw [h.first, List.pairwise_map]
    exact inOrder
  rw [List.pairwise_map] at births
  refine births.imp_of_mem fun hr hs before => ?_
  exact Instant.printMicros_lt (h.runTimes d start _ hr).1 (h.runTimes d start _ hs).1 before

/-! ### Reads -/

/-- So what is in the tables can be read. -/
theorem readable : (∀ r ∈ rs, r.EveryTime Instant.FourDigits) ∧
    ∀ v ∈ vs, v.EveryTime Instant.FourDigits :=
  ⟨fun r hr => (h.runTimes d start r hr).mono fun _ h => h.years,
    fun v hv => (h.visitTimes d start v hv).mono fun _ h => h.years⟩

/-- Both find a run by its ID, and show it as it was written. -/
theorem get_eq (id : String) : t.get id = .ok (m.get id) := by
  obtain ⟨runs, -⟩ := h.readable d start
  rw [h.tables, h.memory, Relational.get_holding runs, Memory.get, Memory.find?_holding]
  cases found : rs.find? (·.id == id) with
  | none => rfl
  | some r =>
    simp [RunRecord.asStored_eq (h.runTimes d start r (List.mem_of_find?_eq_some found))]

/-- The visits of a run are in the order of their rows in both. -/
theorem detail_eq (id : String) : t.detail id = .ok (m.detail id) := by
  obtain ⟨runs, visits⟩ := h.readable d start
  rw [h.tables, h.memory, Relational.detail_holding runs visits, Memory.detail,
    Memory.find?_holding]
  cases found : rs.find? (·.id == id) with
  | none => rfl
  | some r =>
    have own : r.id = id := by simpa using List.find?_some found
    have read : (vs.filter (·.parentId == id)).map Visit.asStored =
        vs.filter (·.parentId == id) :=
      (List.map_congr_left fun v hv =>
        Visit.asStored_eq (h.visitTimes d start v (List.mem_filter.1 hv).1)).trans (List.map_id _)
    simp [RunRecord.asStored_eq (h.runTimes d start r (List.mem_of_find?_eq_some found)), read, own]

/-- Runs are read as they were written. -/
theorem map_asStored {ss : List RunRecord} (inside : ∀ r ∈ ss, r ∈ rs) :
    ss.map RunRecord.asStored = ss :=
  (List.map_congr_left fun r hr => RunRecord.asStored_eq
    (h.runTimes d start r (inside r hr))).trans (List.map_id _)

omit d start in
/-- The runs of the store in memory. -/
theorem map_run : m.entries.map MemoryEntry.run = rs := by
  rw [h.memory, Memory.holding, List.map_map]
  exact List.map_id' rs

/-- The tables sort by the texts of the creation times, which is the order in which the memory has
the runs. -/
theorem unfinished_eq : t.unfinished = .ok m.unfinished := by
  obtain ⟨runs, -⟩ := h.readable d start
  have listed := mergeSort_eq_of_perm ((h.sorted d start).filter fun r => !r.status.isTerminal)
    (Relational.active_perm rs)
  rw [Memory.unfinished, h.map_run, h.tables, Relational.unfinished_holding runs, listed,
    h.map_asStored d start fun r hr => (List.mem_filter.1 hr).1]

/-- So it is here, newest first. As no two times of creation are the same, there is one order only,
and the pages agree, too. -/
theorem list_eq (q : RunQuery) : t.list q = .ok (m.list q) := by
  obtain ⟨runs, -⟩ := h.readable d start
  have sorted : (rs.reverse.filter q.accepts).Pairwise fun r s =>
      decide (s.createdAt.printMicros ≤ r.createdAt.printMicros) = true := by
    refine List.Pairwise.filter _ (List.pairwise_reverse.2 ?_)
    exact (h.sorted d start).imp fun less => decide_eq_true (le_of_text_lt less)
  have skips : q.pageOf Relational.maxSkipped (rs.reverse.filter q.accepts) =
      q.pageOf Memory.maxSkipped (rs.reverse.filter q.accepts) := by
    rw [q.pageOf_eq (by decide), q.pageOf_eq (by decide)]
  have page : ∀ r ∈ q.pageOf Memory.maxSkipped (rs.reverse.filter q.accepts), r ∈ rs := by
    intro r hr
    have matching := List.mem_of_mem_drop (List.mem_of_mem_take hr)
    exact List.mem_reverse.1 (List.mem_filter.1 matching).1
  have read : Relational.readRows RunRow.toRecord
      ((q.pageOf Memory.maxSkipped (rs.reverse.filter q.accepts)).map RunRow.ofRecord) =
        .ok (q.pageOf Memory.maxSkipped (rs.reverse.filter q.accepts)) := by
    rw [Relational.readRows_map fun r hr => RunRecord.toRecord_ofRecord (runs r (page r hr)),
      h.map_asStored d start page]
  rw [Relational.list, h.tables, Relational.matching_holding, List.mergeSort_of_pairwise sorted,
    RunQuery.pageOf_map, skips, read, Memory.list, Memory.matching, h.map_run, List.length_map]
  rfl

end reads

/-! ### Writes -/

/-- A call that writes nothing changes nothing. -/
theorem idle (h : Agrees qs m t rs vs n) (runs : q.runs = []) (visits : q.visits = []) :
    Agrees (qs ++ [q]) m t rs vs n := by
  have runs : runsWritten (qs ++ [q]) = runsWritten qs := by
    simp [runsWritten, runs]
  have visits : visitsWritten (qs ++ [q]) = visitsWritten qs := by
    simp [visitsWritten, visits]
  exact ⟨h.memory, h.tables, runs ▸ h.runs, visits ▸ h.visits, h.parents, runs ▸ h.first⟩

/-- A run takes its place by its first write. -/
theorem first_upsert (h : Agrees qs m t rs vs n) (merge : RunRecord → RunRecord → RunRecord)
    (keeps : ∀ s r, (merge s r).birth = s.birth) (r : RunRecord) :
    (upsert RunRecord.id merge rs r).map RunRecord.birth =
      (firstWrites (runsWritten qs ++ [r])).map RunRecord.birth := by
  have ids : rs.map RunRecord.id = (firstWrites (runsWritten qs)).map RunRecord.id := by
    simpa [Function.comp_def, RunRecord.birth] using congrArg (List.map Prod.fst) h.first
  rw [map_upsert keeps, firstWrites_concat, ids, h.first]
  split
  · rfl
  · rw [List.map_append, List.map_singleton]

/-- Both stores give the same answer to the call, and agree after it. -/
def Goes (qs : List StoreRequest) (q : StoreRequest) (m : Memory) (t : Relational) : Prop :=
  (q.perform m).1.toOption = (q.perform t).1.toOption ∧
    ∃ rs vs n, Agrees (qs ++ [q]) (q.perform m).2 (q.perform t).2 rs vs n

/-- A write that both stores refuse. -/
theorem Goes.refused {e e' : EngineError} (inMemory : q.perform m = (.error e, m))
    (inTables : q.perform t = (.error e', t)) (h : Agrees (qs ++ [q]) m t rs vs n) :
    Goes qs q m t := by
  rw [Goes, inMemory, inTables]
  exact ⟨rfl, rs, vs, n, h⟩

/-- A write that both stores make. -/
theorem Goes.made {m' : Memory} {t' : Relational} (inMemory : q.perform m = (.ok .written, m'))
    (inTables : q.perform t = (.ok .written, t')) (h : Agrees (qs ++ [q]) m' t' rs vs n) :
    Goes qs q m t := by
  rw [Goes, inMemory, inTables]
  exact ⟨rfl, rs, vs, n, h⟩

/-- What was written stays written. -/
theorem mem_runsWritten (h : Agrees qs m t rs vs n) (q : StoreRequest) :
    ∀ r ∈ rs, r ∈ runsWritten (qs ++ [q]) := fun r hr =>
  mem_runsWritten_mono (List.prefix_append qs [q]) (h.runs r hr)

/-- So it is with visits. -/
theorem mem_visitsWritten (h : Agrees qs m t rs vs n) (q : StoreRequest) :
    ∀ v ∈ vs, v ∈ visitsWritten (qs ++ [q]) := fun v hv =>
  mem_visitsWritten_mono (List.prefix_append qs [q]) (h.visits v hv)

/-- A run is new to both or to none, and one that is new is created last. -/
theorem goes_createRun (h : Agrees qs m t rs vs n) (r : RunRecord) :
    Goes qs (.createRun r) m t := by
  obtain ⟨rfl, rfl, -, -, parents, -⟩ := id h
  have written : runsWritten (qs ++ [.createRun r]) = runsWritten qs ++ [r] :=
    runsWritten_append ..
  by_cases known : r.id ∈ rs.map RunRecord.id
  · have kept := h.first_upsert (fun s _ => s) (fun _ _ => rfl) r
    rw [map_upsert fun _ _ => rfl, if_pos known] at kept
    refine .refused (congrArg (Reply.map _) (Memory.createRun_holding_of_mem known))
      (congrArg (Reply.map _) (if_pos (Relational.hasRun_holding.2 known)))
      ⟨rfl, rfl, h.mem_runsWritten _, h.mem_visitsWritten _, parents, ?_⟩
    rw [written, kept]
  · have grown := h.first_upsert RunRecord.overwrite (fun _ _ => rfl) r
    rw [upsert, if_neg known] at grown
    have inTables : (Relational.holding rs vs).createRun r =
        (.ok (), Relational.holding (rs ++ [r]) vs) := by
      rw [Relational.createRun, if_neg (mt Relational.hasRun_holding.1 known)]
      simp [Relational.holding]
    refine .made (congrArg (Reply.map _) (Memory.createRun_holding parents known))
      (congrArg (Reply.map _) inTables) ⟨rfl, rfl, ?_, h.mem_visitsWritten _, ?_, ?_⟩
    · exact List.forall_mem_append.2 ⟨h.mem_runsWritten _, by simp [written]⟩
    · exact fun v hv => by simpa using .inl (by simpa using parents v hv)
    · rw [written, grown]

/-- A visit is refused by both if its run is not there or if it is there itself. Nothing else may be
refused, as the discipline has no two visits of one ID under different runs. -/
theorem goes_createVisit (h : Agrees qs m t rs vs n) (d : Disciplined all)
    (start : qs ++ [.createVisit v] <+: all) : Goes qs (.createVisit v) m t := by
  obtain ⟨rfl, rfl, -, -, parents, first⟩ := id h
  have runs : runsWritten (qs ++ [.createVisit v]) = runsWritten qs := by
    simp [runsWritten, StoreRequest.runs]
  have here : v ∈ visitsWritten (qs ++ [.createVisit v]) := by
    rw [visitsWritten_append]
    exact List.mem_append_right _ (List.mem_singleton_self v)
  have before := h.mem_visitsWritten (.createVisit v)
  -- both stores make the write under the same condition, and else both refuse it
  by_cases free : v.parentId ∈ rs.map RunRecord.id ∧ v.id ∉ vs.map Visit.id
  · obtain ⟨parent, fresh⟩ := free
    have inTables : (Relational.holding rs vs).createVisit v =
        (.ok (), Relational.holding rs (vs ++ [v])) := by
      rw [Relational.createVisit, if_neg (mt Relational.hasVisit_holding.1 fresh),
        if_neg (by simp [Relational.hasRun_holding.2 parent])]
      simp [Relational.holding]
    refine .made (congrArg (Reply.map _) (Memory.createVisit_holding parent fresh))
      (congrArg (Reply.map _) inTables) ⟨rfl, rfl, h.mem_runsWritten _, ?_, ?_, runs ▸ first⟩
    · exact List.forall_mem_append.2 ⟨before, List.forall_mem_singleton.2 here⟩
    · exact List.forall_mem_append.2 ⟨parents, List.forall_mem_singleton.2 parent⟩
  · -- a visit that is stored under the ID is one of the same run
    have twice (parent : v.parentId ∈ rs.map RunRecord.id) :
        ∃ w ∈ vs, w.id = v.id ∧ w.parentId = v.parentId := by
      have known : v.id ∈ vs.map Visit.id := by
        by_contra fresh
        exact free ⟨parent, fresh⟩
      obtain ⟨w, hw, same⟩ := List.mem_map.1 known
      exact ⟨w, hw, same, d.apart w (mem_visitsWritten_mono start (before w hw)) v
        (mem_visitsWritten_mono start here) same⟩
    obtain ⟨e, inMemory⟩ := Memory.createVisit_holding_refused (n := n) twice
    obtain ⟨e', inTables⟩ : ∃ e', (Relational.holding rs vs).createVisit v =
        (.error e', Relational.holding rs vs) := by
      rw [Relational.createVisit]
      by_cases known : v.id ∈ vs.map Visit.id
      · exact ⟨_, if_pos (Relational.hasVisit_holding.2 known)⟩
      · have orphan : v.parentId ∉ rs.map RunRecord.id := fun parent => free ⟨parent, known⟩
        have missing : (Relational.holding rs vs).hasRun v.parentId = false :=
          Bool.eq_false_iff.2 (mt Relational.hasRun_holding.1 orphan)
        rw [if_neg (mt Relational.hasVisit_holding.1 known), missing]
        exact ⟨_, rfl⟩
    exact .refused (congrArg (Reply.map _) inMemory) (congrArg (Reply.map _) inTables)
      ⟨rfl, rfl, h.mem_runsWritten _, before, parents, runs ▸ first⟩

/-- An update replaces whole records in memory and writes over some of their columns in the tables.
By the discipline nothing changes but what is in these columns. -/
theorem goes_update (h : Agrees qs m t rs vs n) (d : Disciplined all)
    (start : qs ++ [.update r ws] <+: all) : Goes qs (.update r ws) m t := by
  obtain ⟨rfl, rfl, -, -, parents, -⟩ := id h
  have written : runsWritten (qs ++ [.update r ws]) = runsWritten qs ++ [r] :=
    runsWritten_append ..
  have here : r ∈ runsWritten (qs ++ [.update r ws]) := by simp [written]
  have now : ∀ w ∈ ws, w ∈ visitsWritten (qs ++ [.update r ws]) := fun w hw => by
    rw [visitsWritten_append]
    exact List.mem_append_right _ (by simpa [visitsWritten, StoreRequest.visits] using hw)
  have own : ∀ w ∈ ws, w.parentId = r.id :=
    d.underRun (.update r ws) (start.subset (List.mem_append_right _ (List.mem_singleton_self _)))
  -- the discipline is about all calls, so it holds of those up to this one
  have consistent : ∀ v ∈ visitsWritten (qs ++ [.update r ws]),
      ∀ w ∈ visitsWritten (qs ++ [.update r ws]), v.id = w.id → v.overwrite w = w :=
    fun v hv w hw => d.consistent v (mem_visitsWritten_mono start hv) w
      (mem_visitsWritten_mono start hw)
  have whole : ∀ s ∈ rs, s.id = r.id → s.overwrite r = r := fun s hs =>
    d.runs s (mem_runsWritten_mono start (h.mem_runsWritten _ s hs)) r
      (mem_runsWritten_mono start here)
  have before := h.mem_visitsWritten (.update r ws)
  have parent := mem_keys_upsert RunRecord.id_overwrite rs r
  have inTables : (Relational.holding rs vs).update r ws =
      (.ok (), Relational.holding (RunRecord.upsert rs r) (ws.foldl Visit.upsert vs)) := by
    rw [Relational.update, Relational.upsertRun_holding, Relational.upsertVisits_holding]
    exact fun w hw => .inr (own w hw ▸ parent)
  -- what is left is that the records in the stores still come from writes
  refine .made (congrArg (Reply.map _)
      (Memory.update_holding consistent before now own whole parents))
    (congrArg (Reply.map _) inTables) ⟨rfl, rfl, ?_, ?_, ?_, ?_⟩
  · exact forall_upsert (h.mem_runsWritten _) here fun s hs same => (whole s hs same).symm ▸ here
  · exact fun w hw => (Memory.mem_of_mem_foldl_upsert consistent before now w hw).elim
      (before w) (now w)
  · intro w hw
    rcases Memory.mem_of_mem_foldl_upsert consistent before now w hw with hw | hw
    · exact subset_keys_upsert RunRecord.id_overwrite rs r (parents w hw)
    · exact own w hw ▸ parent
  · rw [written]
    exact h.first_upsert RunRecord.overwrite (fun _ _ => rfl) r

/-- Both stores answer every call in the same way. -/
theorem goes (h : Agrees qs m t rs vs n) (d : Disciplined all) (start : qs ++ [q] <+: all) :
    Goes qs q m t := by
  have earlier : qs <+: all := (List.prefix_append _ _).trans start
  cases q with
  | createRun r => exact h.goes_createRun r
  | createVisit v => exact h.goes_createVisit d start
  | update r ws => exact h.goes_update d start
  | get id =>
    refine ⟨?_, rs, vs, n, h.idle rfl rfl⟩
    exact congrArg (fun x => (x.map StoreAnswer.run).toOption) (h.get_eq d earlier id).symm
  | detail id =>
    refine ⟨?_, rs, vs, n, h.idle rfl rfl⟩
    exact congrArg (fun x => (x.map StoreAnswer.detail).toOption) (h.detail_eq d earlier id).symm
  | list p =>
    refine ⟨?_, rs, vs, n, h.idle rfl rfl⟩
    exact congrArg (fun x => (x.map fun found => StoreAnswer.page found.1 found.2).toOption)
      (h.list_eq d earlier p).symm
  | unfinished =>
    refine ⟨?_, rs, vs, n, h.idle rfl rfl⟩
    exact congrArg (fun x => (x.map StoreAnswer.runs).toOption) (h.unfinished_eq d earlier).symm

/-- So they do from then on. -/
theorem answers_eq {rest : List StoreRequest} (h : Agrees qs m t rs vs n)
    (d : Disciplined (qs ++ rest)) : (StoreRequest.answers m rest).map Except.toOption =
      (StoreRequest.answers t rest).map Except.toOption := by
  induction rest generalizing qs m t rs vs n with
  | nil => rfl
  | cons q rest ih =>
    have whole : qs ++ q :: rest = (qs ++ [q]) ++ rest := by simp
    rw [whole] at d
    obtain ⟨same, rs', vs', n', agrees⟩ := h.goes d (List.prefix_append _ _)
    rw [StoreRequest.answers, StoreRequest.answers, List.map_cons, List.map_cons, same,
      ih agrees d]

end Agrees

variable {qs : List StoreRequest}

/-- Both stores succeed and fail on the same calls, and read the same. -/
theorem Disciplined.stores_agree (d : Disciplined qs) :
    (StoreRequest.answers Memory.empty qs).map Except.toOption =
      (StoreRequest.answers Relational.empty qs).map Except.toOption :=
  Agrees.empty.answers_eq d

/-- Calls about two runs, of which one is created, and one is first written by an update. Two of the
calls fail: a visit comes too early, and a run is created twice. -/
def exchange : List StoreRequest :=
  let run (id : String) (second : Nat) (status : Status) : RunRecord :=
    { RunRecord.create id "p" "b" "t" "u" (.ofMicros (second * 1000000)) with status }
  let visit (id : String) (run : String) (status : Status) : Visit :=
    ⟨id, run, "b", "u", "n", status, "", .immediate, "", .epoch, none⟩
  [.createVisit (visit "v" "r" .initializing), .createRun (run "r" 1 .initializing),
    .createVisit (visit "v" "r" .initializing), .createRun (run "r" 1 .processing),
    .update (run "s" 2 .processing) [visit "w" "s" .processing, visit "w" "s" .finished],
    .update (run "r" 1 .finished) [visit "v" "r" .finished, visit "x" "r" .finished],
    .detail "r", .get "q", .unfinished, .list { RunQuery.everything with page := some 2 },
    .list .everything]

/-- Among these calls are some that both stores refuse. -/
theorem exchange_answers : Disciplined exchange ∧
    (StoreRequest.answers Memory.empty exchange).map Except.toOption =
      (StoreRequest.answers Relational.empty exchange).map Except.toOption ∧
    (StoreRequest.answers Memory.empty exchange).map (·.toOption.isSome) =
      [false, true, true, false, true, true, true, true, true, true, true] := by
  have d : Disciplined exchange :=
    { underRun := by decide +kernel
      apart := by decide +kernel
      runs := by decide +kernel
      visits := by decide +kernel
      inOrder := by decide +kernel
      times := by decide +kernel }
  exact ⟨d, d.stores_agree, by decide +kernel⟩

end Runbook
