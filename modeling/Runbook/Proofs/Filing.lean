import Runbook.Catalog
import Runbook.Proofs.Paging

/-!
# The store in memory as three collections

The store in memory can also be kept as an order of IDs, a table of runs and a table of histories,
each of which is written on its own. Then it is not in the types that they fit together.

* `Filing` — the three collections, and how each call works on them.
* `Filing.Consistent` — they fit together.
* `Filing.Grows`, `Filing.Spares` — what a call leaves of them: what is there stays there, in its
  order, and no run is touched which the call does not name.
* `Filing.memory`, `Filing.Consistent.agrees` — the state of the store in memory that they make up.
  Every call is answered alike there.
* `filing_keeps` — so it is after all calls.
-/

namespace Runbook

namespace Catalog

variable {α : Type} {c : Catalog α} {name other : String} {a : α}

/-- A name is in a catalog to which something is added if it is the new one or was there before. -/
theorem contains_insert :
    (c.insert name a).contains other = true ↔ other = name ∨ c.contains other = true := by
  rw [contains, get?_insert]
  by_cases same : other = name
  · simp [same]
  · simp [same, contains]

/-- What can be looked up is there. -/
theorem contains_of_get? (h : c.get? name = some a) : c.contains name = true := by
  simp [contains, h]

end Catalog

/-- What may be done with the store in memory. -/
inductive StoreAct where
  /-- make a call -/
  | request (q : StoreRequest)
  /-- switch writes of visits and updates off or on -/
  | failWrites (on : Bool)
  deriving DecidableEq, Repr

namespace StoreAct

/-- The ID of the run that the act names, to write to it. -/
def named : StoreAct → Option String
  | request (.createRun r) | request (.update r _) => some r.id
  | request (.createVisit v) => some v.parentId
  | _ => none

/-- The store in memory after the act. -/
def perform (m : Memory) : StoreAct → Memory
  | request q => (q.perform m).2
  | failWrites on => { m with readOnly := on }

/-- The store in memory after some acts. -/
def performAll (m : Memory) (acts : List StoreAct) : Memory := acts.foldl perform m

end StoreAct

/-- The collections of the store in memory. -/
structure Filing where
  /-- the IDs of the runs, first written first -/
  order : List String
  /-- the runs by their IDs -/
  runs : Catalog RunRecord
  /-- the visits by the IDs of their runs, first written first -/
  histories : Catalog (List Visit)
  /-- whether writes of visits and updates fail -/
  readOnly : Bool
  /-- how many updates were made -/
  updates : Nat

namespace Filing

variable {f f' : Filing} {r : RunRecord} {v : Visit} {vs : List Visit} {id : String}

/-! ## The calls -/

/-- Nothing is stored. -/
def empty : Filing := ⟨[], .empty, .empty, false, 0⟩

/-- The visits of a run; none if there is no history of it. -/
def history (f : Filing) (id : String) : List Visit := (f.histories.get? id).getD []

/-- Write a visit over the first one with its ID, or else at the end. -/
def putVisit : List Visit → Visit → List Visit
  | [], v => [v]
  | w :: rest, v => if w.id = v.id then v :: rest else w :: putVisit rest v

/-- Write a run; if there is none with its ID yet, its ID comes to the end of the order. -/
def putRun (r : RunRecord) (f : Filing) : Filing :=
  { f with
    order := if f.runs.contains r.id then f.order else f.order ++ [r.id]
    runs := f.runs.insert r.id r }

/-- Write a history. -/
def putHistory (id : String) (visits : List Visit) (f : Filing) : Filing :=
  { f with histories := f.histories.insert id visits }

/-- Store a new run. -/
def createRun (r : RunRecord) (f : Filing) : Reply Filing Unit :=
  if f.runs.contains r.id then (.error (.storage (.runExists r.id)), f)
  else (.ok (), f.putRun r)

/-- Store a new visit. A history is begun before the visit is looked for in it. -/
def createVisit (v : Visit) (f : Filing) : Reply Filing Unit :=
  if f.readOnly then (.error (.storage .readOnly), f)
  else if f.runs.contains v.parentId then
    let begun := f.putHistory v.parentId (f.history v.parentId)
    if (f.history v.parentId).any (·.id == v.id) then (.error (.storage (.visitExists v.id)), begun)
    else (.ok (), begun.putHistory v.parentId (f.history v.parentId ++ [v]))
  else (.error (.runNotFound v.parentId), f)

/-- Store a run, new or not, and visits of it. -/
def update (r : RunRecord) (visits : List Visit) (f : Filing) : Reply Filing Unit :=
  if f.readOnly then (.error (.storage .readOnly), f)
  else
    let written := (f.putRun r).putHistory r.id (visits.foldl putVisit (f.history r.id))
    (.ok (), { written with updates := f.updates + 1 })

/-- The run of that ID. -/
def get (id : String) (f : Filing) : Option RunRecord := f.runs.get? id

/-- The run of that ID with its visits. -/
def detail (id : String) (f : Filing) : Option RunDetail :=
  (f.runs.get? id).map fun r => ⟨r, f.history id, []⟩

/-- The runs that match, newest first. -/
def matching (q : RunQuery) (f : Filing) : List RunRecord :=
  (f.order.reverse.filterMap f.runs.get?).filter q.accepts

/-- A page of the runs that match, and their number. -/
def list (q : RunQuery) (f : Filing) : List RunRecord × Nat :=
  (q.pageOf Memory.maxSkipped (f.matching q), (f.matching q).length)

/-- The runs that have not ended, first written first. -/
def unfinished (f : Filing) : List RunRecord :=
  (f.order.filterMap f.runs.get?).filter fun r => !r.status.isTerminal

instance : Store Filing where
  createRun := createRun
  createVisit := createVisit
  update := update
  get id f := (.ok (f.get id), f)
  detail id f := (.ok (f.detail id), f)
  list q f := (.ok (f.list q), f)
  unfinished f := (.ok f.unfinished, f)

/-- The collections after an act. -/
def perform (f : Filing) : StoreAct → Filing
  | .request q => (q.perform f).2
  | .failWrites on => { f with readOnly := on }

/-- The collections after some acts. -/
def performAll (f : Filing) (acts : List StoreAct) : Filing := acts.foldl perform f

/-! ## They fit together -/

/-- The collections fit together. -/
structure Consistent (f : Filing) : Prop where
  /-- no ID is listed twice -/
  distinct : f.order.Nodup
  /-- the order lists the runs -/
  listed : ∀ id, id ∈ f.order ↔ f.runs.contains id = true
  /-- runs are kept under their IDs -/
  keyed : ∀ id r, f.runs.get? id = some r → r.id = id
  /-- a history is that of a run -/
  owned : ∀ id visits, f.histories.get? id = some visits → f.runs.contains id = true
  /-- it has no visit twice -/
  visits : ∀ id visits, f.histories.get? id = some visits → (visits.map Visit.id).Nodup

/-- What is there stays there, in its order. -/
structure Grows (f f' : Filing) : Prop where
  /-- new IDs come at the end -/
  order : f.order <+: f'.order
  /-- no run disappears -/
  runs : ∀ id, f.runs.contains id = true → f'.runs.contains id = true
  /-- no history disappears -/
  histories : ∀ id, f.histories.contains id = true → f'.histories.contains id = true
  /-- new visits come at the end -/
  visits : ∀ id, (f.history id).map Visit.id <+: (f'.history id).map Visit.id

/-- The run of an ID and its visits are the same. -/
structure Spares (f f' : Filing) (id : String) : Prop where
  /-- the run is -/
  run : f'.runs.get? id = f.runs.get? id
  /-- its history is -/
  history : f'.histories.get? id = f.histories.get? id

/-- To do nothing is to grow, too, -/
theorem Grows.refl (f : Filing) : f.Grows f :=
  ⟨List.prefix_refl _, fun _ h => h, fun _ h => h, fun _ => List.prefix_refl _⟩

/-- and to grow twice is to grow. -/
theorem Grows.trans {f'' : Filing} (h : f.Grows f') (h' : f'.Grows f'') : f.Grows f'' where
  order := h.order.trans h'.order
  runs id known := h'.runs id (h.runs id known)
  histories id known := h'.histories id (h.histories id known)
  visits id := (h.visits id).trans (h'.visits id)

/-- To do nothing spares everybody. -/
theorem Spares.refl (f : Filing) (id : String) : f.Spares f id := ⟨rfl, rfl⟩

/-! ### A visit is written -/

/-- A visit that is new to its history comes last there. -/
theorem putVisit_eq_append (fresh : v.id ∉ vs.map Visit.id) : putVisit vs v = vs ++ [v] := by
  induction vs with
  | nil => rfl
  | cons w vs ih =>
    rw [List.map_cons, List.mem_cons, not_or] at fresh
    obtain ⟨other, fresh⟩ := fresh
    rw [putVisit, if_neg (Ne.symm other), ih fresh, List.cons_append]

/-- In a history without repetitions there is only one visit to write over. -/
theorem putVisit_eq_upsertVisit (distinct : (vs.map Visit.id).Nodup) :
    putVisit vs v = Memory.upsertVisit vs v := by
  by_cases known : v.id ∈ vs.map Visit.id
  · have any : vs.any (·.id == v.id) = true := by simpa using known
    rw [Memory.upsertVisit, if_pos any]
    clear any
    induction vs with
    | nil => cases known
    | cons w vs ih =>
      obtain ⟨other, distinct⟩ := List.nodup_cons.1 distinct
      rw [putVisit, List.map_cons]
      by_cases same : w.id = v.id
      · -- the other store writes over all visits with the ID, but behind the first one is none
        have rest : (vs.map fun x => if x.id = v.id then v else x) = vs := by
          rw [List.map_congr_left (g := id), List.map_id]
          intro x hx
          have ne : x.id ≠ v.id := by
            intro clash
            exact other ((clash.trans same.symm) ▸ List.mem_map_of_mem hx)
          rw [if_neg ne, id]
        rw [if_pos same, if_pos same, rest]
      · have later : v.id ∈ vs.map Visit.id := by
          rw [List.map_cons, List.mem_cons] at known
          exact known.resolve_left (Ne.symm same)
        rw [if_neg same, if_neg same, ih distinct later]
  · have none : ¬vs.any (·.id == v.id) = true := by simpa using known
    rw [Memory.upsertVisit, if_neg none, putVisit_eq_append known]

/-- In a history without duplicates it does not matter whether a visit replaces the first one with
its ID, as it does here, or every one, as it does in the memory. -/
theorem foldl_putVisit {s : List Visit} (distinct : (s.map Visit.id).Nodup) :
    vs.foldl putVisit s = vs.foldl Memory.upsertVisit s := by
  induction vs generalizing s with
  | nil => rfl
  | cons v vs ih =>
    rw [List.foldl_cons, List.foldl_cons, putVisit_eq_upsertVisit distinct]
    exact ih (Memory.nodup_ids_upsertVisit distinct)

/-! ### The two writes

A run and a history are written one after the other. -/

/-- A run that is put down can be looked up by its ID, and the others as before. -/
theorem get?_putRun (f : Filing) (r : RunRecord) (id : String) :
    (f.putRun r).runs.get? id = if id = r.id then some r else f.runs.get? id :=
  f.runs.get?_insert r.id id r

/-- So can a history, -/
theorem get?_putHistory (f : Filing) (id other : String) (visits : List Visit) :
    (f.putHistory id visits).histories.get? other =
      if other = id then some visits else f.histories.get? other :=
  f.histories.get?_insert id other visits

/-- and what is read as the history of a run without one is empty. -/
theorem history_putHistory (f : Filing) (id other : String) (visits : List Visit) :
    (f.putHistory id visits).history other = if other = id then visits else f.history other := by
  rw [history, get?_putHistory]
  split
  · rfl
  · rfl

namespace Consistent

variable (h : f.Consistent)

include h

/-- No visit is twice in a history, also if there is none. -/
theorem nodup_history (id : String) : ((f.history id).map Visit.id).Nodup := by
  rw [history]
  cases found : f.histories.get? id with
  | none => exact List.nodup_nil
  | some visits => exact h.visits id visits found

/-- A run that is not stored has no visits. -/
theorem history_eq_nil (fresh : f.runs.contains id = false) : f.history id = [] := by
  rw [history]
  cases found : f.histories.get? id with
  | none => rfl
  | some visits =>
    have known := h.owned id visits found
    rw [fresh] at known
    cases known

/-- The order gains the ID of a run the first time it is put down and never again, and so it names
the runs that are there, each one once. -/
theorem putRun (r : RunRecord) : (f.putRun r).Consistent where
  distinct := by
    rw [Filing.putRun]
    by_cases known : f.runs.contains r.id = true
    · simpa [known] using h.distinct
    · have fresh : r.id ∉ f.order := fun mem => known ((h.listed r.id).1 mem)
      simpa [known] using h.distinct.append (List.nodup_singleton _) (by simpa using fresh)
  listed id := by
    rw [Filing.putRun]
    dsimp only
    rw [Catalog.contains_insert]
    by_cases known : f.runs.contains r.id = true
    · rw [if_pos known, h.listed]
      constructor
      · exact .inr
      · rintro (rfl | mem)
        · exact known
        · exact mem
    · rw [if_neg known, List.mem_append, List.mem_singleton, h.listed, or_comm]
  keyed id r' found := by
    rw [get?_putRun] at found
    split at found
    · next same =>
      cases found
      exact same.symm
    · exact h.keyed id r' found
  owned id visits found := Catalog.contains_insert.2 (.inr (h.owned id visits found))
  visits := h.visits

/-- A history may be put down only for a run that is there. This is the one place where it could go
wrong, and all writes that add a history have looked for the run before. -/
theorem putHistory (known : f.runs.contains id = true) (distinct : (vs.map Visit.id).Nodup) :
    (f.putHistory id vs).Consistent where
  distinct := h.distinct
  listed := h.listed
  keyed := h.keyed
  owned id' visits found := by
    rw [get?_putHistory] at found
    split at found
    · next same => exact same ▸ known
    · exact h.owned id' visits found
  visits id' visits found := by
    rw [get?_putHistory] at found
    split at found
    · cases found
      exact distinct
    · exact h.visits id' visits found

end Consistent

/-- A run that is put down comes last in the order if it is new, and otherwise the order stays, -/
theorem grows_putRun (f : Filing) (r : RunRecord) : f.Grows (f.putRun r) where
  order := by
    rw [putRun]
    dsimp only
    split
    · exact List.prefix_refl _
    · exact List.prefix_append _ _
  runs id known := Catalog.contains_insert.2 (.inr known)
  histories _ known := known
  visits _ := List.prefix_refl _

/-- and a history that becomes longer at its end is all that a new history may be. -/
theorem grows_putHistory (longer : (f.history id).map Visit.id <+: vs.map Visit.id) :
    f.Grows (f.putHistory id vs) where
  order := List.prefix_refl _
  runs _ known := known
  histories id' known := Catalog.contains_insert.2 (.inr known)
  visits id' := by
    rw [history_putHistory]
    split
    · next same => exact same ▸ longer
    · exact List.prefix_refl _

/-- To put down one run is nothing to the others, -/
theorem spares_putRun (f : Filing) (other : id ≠ r.id) : f.Spares (f.putRun r) id :=
  ⟨Catalog.get?_insert_of_ne _ _ other, rfl⟩

/-- and neither is it to put down its history. -/
theorem spares_putHistory {named : String} (f : Filing) (other : id ≠ named) :
    f.Spares (f.putHistory named vs) id :=
  ⟨rfl, Catalog.get?_insert_of_ne _ _ other⟩

/-- Who is spared by both is spared by one after the other. -/
theorem Spares.trans {f'' : Filing} (h : f.Spares f' id) (h' : f'.Spares f'' id) :
    f.Spares f'' id :=
  ⟨h'.run.trans h.run, h'.history.trans h.history⟩

/-! ### The calls -/

/-- To create a run that is there is refused, and so its history is not lost. A new one begins with
an empty history. -/
theorem Consistent.createRun (h : f.Consistent) (r : RunRecord) :
    (f.createRun r).2.Consistent := by
  rw [Filing.createRun]
  split
  · exact h
  · exact h.putRun r

/-- A visit is created if its run is there, and refused otherwise. It may have been there before,
and takes its own place then. -/
theorem Consistent.createVisit (h : f.Consistent) (v : Visit) :
    (f.createVisit v).2.Consistent := by
  rw [Filing.createVisit]
  split
  · exact h
  · split
    · next known =>
      have begun := h.putHistory known (h.nodup_history v.parentId)
      dsimp only
      split
      · exact begun
      · next fresh =>
        refine begun.putHistory known ?_
        rw [List.map_append]
        exact (h.nodup_history v.parentId).append (List.nodup_singleton _) (by simpa using fresh)
    · exact h

/-- An update creates no run: it looks for it first. Of the visits that it writes every one takes
its place or comes last, and so they stay distinct. -/
theorem Consistent.update (h : f.Consistent) (r : RunRecord) (vs : List Visit) :
    (f.update r vs).2.Consistent := by
  rw [Filing.update]
  split
  · exact h
  · have known : (f.putRun r).runs.contains r.id = true := Catalog.contains_insert.2 (.inl rfl)
    have distinct := h.nodup_history r.id
    have still : ((vs.foldl putVisit (f.history r.id)).map Visit.id).Nodup := by
      rw [foldl_putVisit distinct]
      exact Memory.nodup_ids_foldl_upsertVisit distinct
    have written := (h.putRun r).putHistory known still
    exact ⟨written.distinct, written.listed, written.keyed, written.owned, written.visits⟩

/-- No call leads out of what is consistent, whether it works or is refused. -/
theorem Consistent.perform (h : f.Consistent) (act : StoreAct) : (f.perform act).Consistent := by
  cases act with
  | failWrites on => exact ⟨h.distinct, h.listed, h.keyed, h.owned, h.visits⟩
  | request q =>
    cases q with
    | createRun r => exact h.createRun r
    | createVisit v => exact h.createVisit v
    | update r vs => exact h.update r vs
    | get | detail | list | unfinished => exact h

/-- A visit that is created takes its own place or comes last. -/
theorem grows_createVisit (f : Filing) (v : Visit) : f.Grows (f.createVisit v).2 := by
  have begun : f.Grows (f.putHistory v.parentId (f.history v.parentId)) :=
    grows_putHistory (List.prefix_refl _)
  rw [createVisit]
  split
  · exact .refl f
  · split
    · dsimp only
      split
      · exact begun
      · refine begun.trans (grows_putHistory ?_)
        rw [history_putHistory, if_pos rfl, List.map_append]
        exact List.prefix_append _ _
    · exact .refl f

/-- The visits of an update do so one after the other, and their run is in the order, which
therefore stays. -/
theorem Consistent.grows_update (h : f.Consistent) (r : RunRecord) (vs : List Visit) :
    f.Grows (f.update r vs).2 := by
  rw [Filing.update]
  split
  · exact .refl f
  · have longer : (f.history r.id).map Visit.id <+:
        (vs.foldl putVisit (f.history r.id)).map Visit.id := by
      rw [foldl_putVisit (h.nodup_history r.id)]
      exact Memory.ids_prefix_foldl_upsertVisit _ vs
    have written : f.Grows ((f.putRun r).putHistory r.id _) :=
      (grows_putRun f r).trans (grows_putHistory longer)
    exact ⟨written.order, written.runs, written.histories, written.visits⟩

/-- So it grows with each call, and nothing that was there is ever lost or moved, -/
theorem Consistent.grows (h : f.Consistent) (act : StoreAct) : f.Grows (f.perform act) := by
  cases act with
  | failWrites on =>
    exact ⟨List.prefix_refl _, fun _ known => known, fun _ known => known,
      fun _ => List.prefix_refl _⟩
  | request q =>
    cases q with
    | createRun r =>
      change f.Grows (f.createRun r).2
      rw [Filing.createRun]
      split
      · exact .refl f
      · exact grows_putRun f r
    | createVisit v => exact grows_createVisit f v
    | update r vs => exact h.grows_update r vs
    | get | detail | list | unfinished => exact .refl f

/-- An act touches no other run than the one that it names. -/
theorem spares_perform (f : Filing) {act : StoreAct} (other : act.named ≠ some id) :
    f.Spares (f.perform act) id := by
  -- each write has one ID, and this is another one
  cases act with
  | failWrites on => exact ⟨rfl, rfl⟩
  | request q =>
    cases q with
    | createRun r =>
      have ne : id ≠ r.id := fun same => other (congrArg some same.symm)
      change f.Spares (f.createRun r).2 id
      rw [createRun]
      split
      · exact .refl f id
      · exact spares_putRun f ne
    | createVisit v =>
      have ne : id ≠ v.parentId := fun same => other (congrArg some same.symm)
      change f.Spares (f.createVisit v).2 id
      rw [createVisit]
      split
      · exact .refl f id
      · split
        · dsimp only
          split
          · exact spares_putHistory f ne
          · exact (spares_putHistory f ne).trans (spares_putHistory _ ne)
        · exact .refl f id
    | update r vs =>
      have ne : id ≠ r.id := fun same => other (congrArg some same.symm)
      change f.Spares (f.update r vs).2 id
      rw [update]
      split
      · exact .refl f id
      · have written : f.Spares ((f.putRun r).putHistory r.id
            (vs.foldl putVisit (f.history r.id))) id :=
          (spares_putRun f ne).trans (spares_putHistory _ ne)
        exact ⟨written.run, written.history⟩
    | get | detail | list | unfinished => exact .refl f id

/-- and both hold for any number of calls: they leave it consistent, -/
theorem Consistent.performAll (h : f.Consistent) (acts : List StoreAct) :
    (f.performAll acts).Consistent := by
  induction acts generalizing f with
  | nil => exact h
  | cons act acts ih => exact ih (h.perform act)

/-- and it grows. -/
theorem Consistent.grows_performAll (h : f.Consistent) (acts : List StoreAct) :
    f.Grows (f.performAll acts) := by
  induction acts generalizing f with
  | nil => exact .refl f
  | cons act acts ih => exact (h.grows act).trans (ih (h.perform act))

/-- At the beginning nothing is there. -/
theorem consistent_empty : empty.Consistent where
  distinct := List.nodup_nil
  listed id := by simp [empty, Catalog.contains]
  keyed id r found := by simp [empty] at found
  owned id visits found := by simp [empty] at found
  visits id visits found := by simp [empty] at found

/-! ## What they make up -/

/-- The run of that ID with its history. -/
def row? (f : Filing) (id : String) : Option MemoryEntry :=
  (f.runs.get? id).map fun r => ⟨r, f.history id⟩

/-- The state of the store in memory: the runs in their order, each with its history. -/
def memory (f : Filing) : Memory := ⟨f.order.filterMap f.row?, f.readOnly, f.updates⟩

/-- A row of the memory is the run and its history. -/
theorem row?_eq_some {e : MemoryEntry} (h : f.row? id = some e) :
    f.runs.get? id = some e.run ∧ e.visits = f.history id := by
  rw [row?, Option.map_eq_some_iff] at h
  obtain ⟨r, found, rfl⟩ := h
  exact ⟨found, rfl⟩

/-- A run that is put down changes its own row, and keeps the history that the row shows. -/
theorem row?_putRun (f : Filing) (r : RunRecord) (id : String) : (f.putRun r).row? id =
    if id = r.id then some ⟨r, f.history r.id⟩ else f.row? id := by
  rw [row?, get?_putRun]
  by_cases same : id = r.id
  · rw [if_pos same, if_pos same, same]
    rfl
  · rw [if_neg same, if_neg same]
    rfl

/-- A history that is put down shows in the row of its run if there is one. Without its run it
cannot be seen. -/
theorem row?_putHistory (f : Filing) (id other : String) (visits : List Visit) :
    (f.putHistory id visits).row? other =
      (f.row? other).map fun e => if other = id then { e with visits } else e := by
  rw [row?, history_putHistory, row?, Option.map_map]
  by_cases same : other = id
  · simp [same, putHistory, Function.comp_def]
  · simp [same, putHistory, Function.comp_def]

/-- The memory has the runs in their order. -/
theorem runs_memory (f : Filing) :
    f.memory.entries.map MemoryEntry.run = f.order.filterMap f.runs.get? := by
  rw [memory, List.map_filterMap]
  congr 1
  funext id
  simp [row?, Function.comp_def]

namespace Consistent

variable (h : f.Consistent)

include h

/-- The run of a row has the ID by which it was looked up. -/
theorem id_of_row? {e : MemoryEntry} (found : f.row? id = some e) : e.run.id = id :=
  h.keyed id e.run (row?_eq_some found).1

/-- The runs come in the order of their IDs. -/
theorem ids_memory : f.memory.ids = f.order := by
  rw [Memory.ids, memory, List.map_filterMap]
  have all : ∀ id ∈ f.order, (f.row? id).map (·.run.id) = some id := by
    intro id mem
    have known := (h.listed id).1 mem
    rw [Catalog.contains, Option.isSome_iff_exists] at known
    obtain ⟨r, found⟩ := known
    simp [row?, found, h.keyed id r found]
  rw [List.filterMap_congr all, List.filterMap_some]

/-- So what the memory is to keep is kept by it: its runs are distinct as the order is, and each
visit is in the history of its run. -/
theorem sound : f.memory.Sound where
  runs := by
    have ids : f.memory.ids.Nodup := h.ids_memory ▸ h.distinct
    exact ids
  visits e he := by
    obtain ⟨id, -, found⟩ := List.mem_filterMap.1 he
    rw [(row?_eq_some found).2]
    exact h.nodup_history id

/-- A run is found with its history. -/
theorem find?_memory (id : String) : f.memory.find? id = f.row? id := by
  cases found : f.row? id with
  | some e =>
    have own := h.id_of_row? found
    have mem : e ∈ f.memory.entries := by
      refine List.mem_filterMap.2 ⟨id, (h.listed id).2 ?_, found⟩
      exact Catalog.contains_of_get? (row?_eq_some found).1
    have here := find?_key_eq_some h.sound.runs mem
    rw [own] at here
    exact here
  | none =>
    have missing : id ∉ f.memory.ids := by
      rw [h.ids_memory, h.listed, Catalog.contains]
      simpa [row?] using found
    rw [← Memory.isSome_find?_iff] at missing
    simpa using missing

/-- A run is found in the memory if it is there. -/
theorem isSome_find?_memory (id : String) :
    (f.memory.find? id).isSome = f.runs.contains id := by
  rw [h.find?_memory, row?, Option.isSome_map, Catalog.contains]

/-- Whoever changes the entry of one run changes that run. -/
theorem memory_eq_modify {g : MemoryEntry → MemoryEntry} (order : f'.order = f.order)
    (readOnly : f'.readOnly = f.readOnly) (updates : f'.updates = f.updates)
    (entries : ∀ other, f'.row? other = (f.row? other).map fun e =>
      if other = id then g e else e) : f'.memory = f.memory.modify id g := by
  rw [memory, Memory.modify, memory, order, readOnly, updates, List.map_filterMap]
  congr 2
  funext other
  rw [entries other]
  cases found : f.row? other with
  | none => rfl
  | some e => simp [h.id_of_row? found]

/-- A new run comes at the end, without visits. -/
theorem memory_putRun (fresh : f.runs.contains r.id = false) : (f.putRun r).memory =
    { f.memory with entries := f.memory.entries ++ [⟨r, []⟩] } := by
  have last : (f.putRun r).row? r.id = some ⟨r, []⟩ := by
    rw [row?_putRun, if_pos rfl, h.history_eq_nil fresh]
  have others : ∀ id ∈ f.order, (f.putRun r).row? id = f.row? id := by
    intro id mem
    have ne : id ≠ r.id := by
      rintro rfl
      rw [h.listed, fresh] at mem
      cases mem
    rw [row?_putRun, if_neg ne]
  have order : (f.putRun r).order = f.order ++ [r.id] := by simp [Filing.putRun, fresh]
  rw [memory, order, List.filterMap_append, List.filterMap_congr others,
    List.filterMap_cons_some last, List.filterMap_nil]
  rfl

end Consistent

/-- Two answers are the same, and so are the states after them. -/
structure Agrees {α : Type} (a : Reply Filing α) (b : Reply Memory α) : Prop where
  /-- the answers are -/
  answer : a.1 = b.1
  /-- the states are -/
  state : a.2.memory = b.2

/-- Answers that agree do so after something has been read off both. -/
theorem Agrees.map {α β : Type} {a : Reply Filing α} {b : Reply Memory α} (h : Agrees a b)
    (g : α → β) : Agrees (a.map g) (b.map g) :=
  ⟨congrArg (Except.map g) h.answer, h.state⟩

namespace Consistent

variable (h : f.Consistent)

include h

/-- Both create a run if it is new, and refuse it otherwise. -/
theorem agrees_createRun (r : RunRecord) :
    Agrees (f.createRun r) (f.memory.createRun r) := by
  rw [Filing.createRun, Memory.createRun, h.isSome_find?_memory]
  split
  · exact ⟨rfl, rfl⟩
  · next fresh => exact ⟨rfl, h.memory_putRun (by simpa using fresh)⟩

/-- Both create a visit if its run is there. That here it takes the place of the first one with its
ID comes to the same, since there is no other. -/
theorem agrees_createVisit (v : Visit) :
    Agrees (f.createVisit v) (f.memory.createVisit v) := by
  -- a refused visit may leave an empty history behind, which nobody can see
  have begun : (f.putHistory v.parentId (f.history v.parentId)).memory = f.memory := by
    have entries : (f.putHistory v.parentId (f.history v.parentId)).row? = f.row? := by
      funext other
      rw [row?_putHistory]
      cases found : f.row? other with
      | none => rfl
      | some e =>
        obtain ⟨-, own⟩ := row?_eq_some found
        by_cases same : other = v.parentId
        · subst same
          simp [← own]
        · simp [same]
    rw [memory, entries]
    rfl
  rw [Filing.createVisit, Memory.createVisit, h.find?_memory]
  change Agrees _ (if f.readOnly then _ else _)
  split
  · exact ⟨rfl, rfl⟩
  · cases found : f.row? v.parentId with
    | none =>
      have unknown : f.runs.contains v.parentId = false := by
        simpa [row?, Catalog.contains] using found
      rw [if_neg (by simp [unknown])]
      exact ⟨rfl, rfl⟩
    | some e =>
      obtain ⟨run, own⟩ := row?_eq_some found
      rw [if_pos (Catalog.contains_of_get? run)]
      dsimp only
      rw [own]
      split
      · exact ⟨rfl, begun⟩
      · refine ⟨rfl, h.memory_eq_modify rfl rfl rfl ?_⟩
        intro other
        rw [row?_putHistory, row?_putHistory]
        cases there : f.row? other with
        | none => rfl
        | some e' =>
          by_cases same : other = v.parentId
          · subst same
            obtain rfl := Option.some.inj (found.symm.trans there)
            simp [own]
          · simp [same]

/-- Both write the run and its visits if the run is there. -/
theorem agrees_update (r : RunRecord) (vs : List Visit) :
    Agrees (f.update r vs) (f.memory.update r vs) := by
  have folded : vs.foldl putVisit (f.history r.id) =
      vs.foldl Memory.upsertVisit (f.history r.id) := foldl_putVisit (h.nodup_history r.id)
  rw [Filing.update, Memory.update, h.isSome_find?_memory]
  change Agrees _ (if f.readOnly then _ else _)
  split
  · exact ⟨rfl, rfl⟩
  · refine ⟨rfl, ?_⟩
    dsimp only
    rw [folded]
    -- the run is there, or has just come to the end
    have written : ((f.putRun r).putHistory r.id (vs.foldl Memory.upsertVisit
        (f.history r.id))).memory = (if f.runs.contains r.id = true then f.memory else
          { f.memory with entries := f.memory.entries ++ [⟨r, []⟩] }).modify r.id
            fun e => ⟨r, vs.foldl Memory.upsertVisit e.visits⟩ := by
      by_cases known : f.runs.contains r.id = true
      · rw [if_pos known]
        refine h.memory_eq_modify (by simp [Filing.putHistory, Filing.putRun, known]) rfl rfl ?_
        intro other
        rw [row?_putHistory, row?_putRun]
        by_cases same : other = r.id
        · subst same
          obtain ⟨old, found⟩ := Option.isSome_iff_exists.1 known
          simp [row?, found]
        · simp [same]
      · have fresh : f.runs.contains r.id = false := by simpa using known
        rw [if_neg known, ← h.memory_putRun fresh]
        refine (h.putRun r).memory_eq_modify rfl rfl rfl ?_
        intro other
        rw [row?_putHistory, row?_putRun]
        by_cases same : other = r.id
        · simp [same]
        · simp [same]
    rw [← written]
    rfl

/-- Every call is answered as the store in memory answers it, and does to the collections what it
does there. -/
theorem agrees (q : StoreRequest) : Agrees (q.perform f) (q.perform f.memory) := by
  cases q with
  | createRun r => exact (h.agrees_createRun r).map _
  | createVisit v => exact (h.agrees_createVisit v).map _
  | update r vs => exact (h.agrees_update r vs).map _
  | get id =>
    refine ⟨?_, rfl⟩
    change Except.ok _ = Except.ok _
    rw [Filing.get, Memory.get, h.find?_memory, row?, Option.map_map]
    simp [Function.comp_def]
  | detail id =>
    refine ⟨?_, rfl⟩
    change Except.ok _ = Except.ok _
    rw [Filing.detail, Memory.detail, h.find?_memory, row?, Option.map_map]
    rfl
  | list q =>
    have found : f.matching q = f.memory.matching q := by
      rw [matching, Memory.matching, runs_memory, List.filterMap_reverse]
    refine ⟨?_, rfl⟩
    change Except.ok _ = Except.ok _
    rw [Filing.list, Memory.list, found]
  | unfinished =>
    refine ⟨?_, rfl⟩
    change Except.ok _ = Except.ok _
    rw [Filing.unfinished, Memory.unfinished, runs_memory]

/-- So a call does the same to the memory, -/
theorem memory_perform (act : StoreAct) : (f.perform act).memory = act.perform f.memory := by
  cases act with
  | failWrites on => rfl
  | request q => exact (h.agrees q).state

/-- and any number of calls do. -/
theorem memory_performAll (acts : List StoreAct) :
    (f.performAll acts).memory = StoreAct.performAll f.memory acts := by
  induction acts generalizing f with
  | nil => rfl
  | cons act acts ih =>
    rw [Filing.performAll, List.foldl_cons]
    rw [StoreAct.performAll, List.foldl_cons, ← h.memory_perform act]
    exact ih (h.perform act)

end Consistent

/-- The collections fit together, are those of a state of the store in memory, and go on so. -/
structure Keeps (f : Filing) (m : Memory) : Prop where
  /-- they fit together -/
  consistent : f.Consistent
  /-- whatever is done next, what is there stays there, in its order -/
  grows : ∀ acts, f.Grows (f.performAll acts)
  /-- whatever is done next, no other run is touched than the one that is named -/
  spares : ∀ act id, StoreAct.named act ≠ some id → f.Spares (f.perform act) id
  /-- they make up that state -/
  memory : f.memory = m
  /-- its runs come in this order -/
  order : f.order = m.ids
  /-- nothing is stored twice in it -/
  sound : m.Sound
  /-- these are its runs -/
  runs : ∀ id, f.runs.get? id = m.get id
  /-- these are their visits -/
  histories : ∀ id, f.history id = ((m.find? id).map MemoryEntry.visits).getD []
  /-- every call is answered alike -/
  answers : ∀ q : StoreRequest, (q.perform f).1 = (q.perform m).1

/-- What is consistent can be read as a memory that keeps the same. -/
theorem Consistent.keeps (h : f.Consistent) : f.Keeps f.memory where
  consistent := h
  grows := h.grows_performAll
  spares _ _ other := spares_perform f other
  memory := rfl
  order := h.ids_memory.symm
  sound := h.sound
  runs id := by
    rw [Memory.get, h.find?_memory, row?, Option.map_map]
    simp [Function.comp_def]
  histories id := by
    rw [h.find?_memory, row?, Option.map_map]
    cases known : f.runs.get? id with
    | some r => simp
    | none =>
      rw [h.history_eq_nil (by simp [Catalog.contains, known])]
      rfl
  answers q := (h.agrees q).answer

end Filing

/-- After all calls, the three collections of the store in memory fit together. Whatever is done
next, nothing of them is lost or comes into another order, and only the run that a call names is
touched. -/
theorem filing_keeps (acts : List StoreAct) :
    (Filing.empty.performAll acts).Keeps (StoreAct.performAll .empty acts) := by
  have same := Filing.consistent_empty.memory_performAll acts
  change _ = StoreAct.performAll Memory.empty acts at same
  rw [← same]
  exact (Filing.consistent_empty.performAll acts).keeps

end Runbook
