import Mathlib.Data.List.Perm.Subperm
import Runbook.Proofs.Protocol
import Runbook.Store.Memory

/-!
# What is stored of a run

The store in memory along the trace of a run.

* `Memory.foldl_upsertVisit_eq` — writing a list of visits over a part of it that
  was written before.
* `Memory.Serves` — how the store follows a trace. Each write may fail instead, and
  whatever else the store is used for, it leaves the run alone.
* `Trace.kept` — what is stored of the run then: this can be read off its trace.
* `Trace.Gapless` — no visit is created over one that is not stored. If that is so, the
  stored visits come in order (`Trace.keptIds_prefix`), and only then can they be all that
  were entered, in order (`Trace.gapless_of_eq`).
-/

namespace Runbook

namespace Memory

variable {m m' : Memory} {r : RunRecord} {v w : Visit} {s vs : List Visit} {id : String}
  {d : RunDetail}

/-! ## Writing visits -/

theorem mem_upsertVisit (h : w ∈ upsertVisit s v) : w = v ∨ w ∈ s ∧ w.id ≠ v.id := by
  rw [upsertVisit] at h
  split at h
  · obtain ⟨x, hx, rfl⟩ := List.mem_map.1 h
    by_cases same : x.id = v.id
    · exact .inl (if_pos same)
    · rw [if_neg same]
      exact .inr ⟨hx, same⟩
  · next fresh =>
    rcases List.mem_append.1 h with hw | hw
    · refine .inr ⟨hw, fun same => fresh ?_⟩
      exact List.any_eq_true.2 ⟨w, hw, by simp [same]⟩
    · exact .inl (List.mem_singleton.1 hw)

theorem ids_upsertVisit (s : List Visit) (v : Visit) : (upsertVisit s v).map Visit.id =
    if v.id ∈ s.map Visit.id then s.map Visit.id else s.map Visit.id ++ [v.id] := by
  have known : s.any (·.id == v.id) = true ↔ v.id ∈ s.map Visit.id := by simp
  rw [upsertVisit]
  by_cases h : v.id ∈ s.map Visit.id
  · rw [if_pos h, if_pos (known.2 h), List.map_map]
    refine List.map_congr_left fun w _ => ?_
    by_cases same : w.id = v.id <;> simp [same]
  · rw [if_neg h, if_neg (mt known.1 h), List.map_append, List.map_singleton]

/-- What is stored in the end was written now, or was stored before. -/
theorem mem_foldl_upsertVisit (h : w ∈ vs.foldl upsertVisit s) :
    w ∈ vs ∨ w ∈ s ∧ w.id ∉ vs.map Visit.id := by
  induction vs generalizing s with
  | nil => exact .inr ⟨h, by simp⟩
  | cons v vs ih =>
    rcases ih h with now | ⟨before, other⟩
    · exact .inl (List.mem_cons_of_mem v now)
    · rcases mem_upsertVisit before with rfl | ⟨before, ne⟩
      · exact .inl (List.mem_cons_self ..)
      · exact .inr ⟨before, by simp [ne, other]⟩

theorem mem_ids_foldl_upsertVisit : id ∈ (vs.foldl upsertVisit s).map Visit.id ↔
    id ∈ s.map Visit.id ∨ id ∈ vs.map Visit.id := by
  induction vs generalizing s with
  | nil => simp
  | cons v vs ih =>
    rw [List.foldl_cons, ih, ids_upsertVisit, List.map_cons, List.mem_cons]
    split
    · next known =>
      constructor
      · exact .imp_right .inr
      · rintro (before | rfl | later)
        · exact .inl before
        · exact .inl known
        · exact .inr later
    · rw [List.mem_append, List.mem_singleton, or_assoc]

/-- What is stored stays in its place. -/
theorem ids_prefix_foldl_upsertVisit (s vs : List Visit) :
    s.map Visit.id <+: (vs.foldl upsertVisit s).map Visit.id := by
  induction vs generalizing s with
  | nil => exact List.prefix_refl _
  | cons v vs ih =>
    refine List.IsPrefix.trans ?_ (ih _)
    rw [ids_upsertVisit]
    split
    · exact List.prefix_refl _
    · exact List.prefix_append _ _

/-- New visits come at the end, in order. -/
theorem ids_foldl_upsertVisit (distinct : (vs.map Visit.id).Nodup) :
    (vs.foldl upsertVisit s).map Visit.id =
      s.map Visit.id ++ (vs.map Visit.id).filter (· ∉ s.map Visit.id) := by
  induction vs generalizing s with
  | nil => simp
  | cons v vs ih =>
    rw [List.map_cons, List.nodup_cons] at distinct
    rw [List.foldl_cons, ih distinct.2, ids_upsertVisit]
    by_cases h : v.id ∈ s.map Visit.id
    · rw [if_pos h, List.map_cons, List.filter_cons_of_neg (by simpa using h)]
    · rw [if_neg h, List.map_cons, List.filter_cons_of_pos (by simpa using h), List.append_assoc,
        List.singleton_append]
      congr 2
      refine List.filter_congr fun x hx => ?_
      have ne : x ≠ v.id := fun same => distinct.1 (same ▸ hx)
      simp [ne]

/-- No visit is stored twice. -/
theorem nodup_ids_upsertVisit (stored : (s.map Visit.id).Nodup) :
    ((upsertVisit s v).map Visit.id).Nodup := by
  rw [ids_upsertVisit]
  split
  · exact stored
  · next fresh => exact stored.append (List.nodup_singleton _) (by simpa using fresh)

theorem nodup_ids_foldl_upsertVisit (stored : (s.map Visit.id).Nodup) :
    ((vs.foldl upsertVisit s).map Visit.id).Nodup := by
  induction vs generalizing s with
  | nil => exact stored
  | cons v vs ih => exact ih (nodup_ids_upsertVisit stored)

/-- Visits are known by their IDs. -/
theorem eq_of_ids_eq (distinct : (vs.map Visit.id).Nodup) (inside : ∀ w ∈ s, w ∈ vs)
    (same : s.map Visit.id = vs.map Visit.id) : s = vs := by
  have length : s.length = vs.length := by simpa using congrArg List.length same
  refine List.ext_getElem length fun i hs hvs => ?_
  refine List.inj_on_of_nodup_map distinct (inside _ (List.getElem_mem hs))
    (List.getElem_mem hvs) ?_
  have at_i := congrArg (·[i]?) same
  simpa [hs, hvs] using at_i

section

variable (distinct : (vs.map Visit.id).Nodup) (known : s.map Visit.id ⊆ vs.map Visit.id)

include known in
/-- Nothing is left of what was stored before of the same visits. -/
theorem mem_of_mem_foldl_upsertVisit (h : w ∈ vs.foldl upsertVisit s) : w ∈ vs :=
  (mem_foldl_upsertVisit h).resolve_right fun ⟨before, other⟩ =>
    other (known (List.mem_map_of_mem before))

include distinct known in
/-- A list that is written over a part of it is stored, in some order. -/
theorem foldl_upsertVisit_perm (stored : (s.map Visit.id).Nodup) :
    (vs.foldl upsertVisit s).Perm vs := by
  have ids : ((vs.foldl upsertVisit s).map Visit.id).Nodup := nodup_ids_foldl_upsertVisit stored
  refine (List.perm_ext_iff_of_nodup ids.of_map distinct.of_map).2 fun w => ?_
  refine ⟨mem_of_mem_foldl_upsertVisit known, fun hw => ?_⟩
  have id : w.id ∈ (vs.foldl upsertVisit s).map Visit.id :=
    mem_ids_foldl_upsertVisit.2 (.inr (List.mem_map_of_mem hw))
  obtain ⟨x, hx, same⟩ := List.mem_map.1 id
  rwa [← List.inj_on_of_nodup_map distinct (mem_of_mem_foldl_upsertVisit known hx) hw same]

include distinct known in
/-- It is stored as it is exactly if its IDs are. -/
theorem foldl_upsertVisit_eq_iff : vs.foldl upsertVisit s = vs ↔
    (vs.foldl upsertVisit s).map Visit.id = vs.map Visit.id :=
  ⟨fun h => by rw [h], eq_of_ids_eq distinct fun _ => mem_of_mem_foldl_upsertVisit known⟩

end

/-- A list that is written over its beginning is stored as it is. -/
theorem foldl_upsertVisit_eq (distinct : (vs.map Visit.id).Nodup)
    (start : s.map Visit.id <+: vs.map Visit.id) : vs.foldl upsertVisit s = vs := by
  refine (foldl_upsertVisit_eq_iff distinct start.subset).2 ?_
  obtain ⟨more, ids⟩ := start
  rw [← ids] at distinct
  rw [ids_foldl_upsertVisit (ids ▸ distinct), ← ids, List.filter_append]
  have inside : (s.map Visit.id).filter (· ∉ s.map Visit.id) = [] :=
    List.filter_eq_nil_iff.2 fun x hx => by simpa using hx
  have outside : more.filter (· ∉ s.map Visit.id) = more :=
    List.filter_eq_self.2 fun x hx => by
      simpa using fun h => List.disjoint_of_nodup_append distinct h hx
  rw [inside, outside, List.nil_append]

/-! ## Calls of the store -/

/-- A change of a run that leaves its ID finds the run again. -/
theorem find?_modify {f : MemoryEntry → MemoryEntry} (m : Memory) (id : String)
    (keeps : ∀ e, e.run.id = id → (f e).run.id = id) :
    (m.modify id f).find? id = (m.find? id).map f := by
  rw [find?, modify, find?]
  induction m.entries with
  | nil => rfl
  | cons e entries ih =>
    by_cases same : e.run.id = id
    · simp [same, keeps e same]
    · simpa [same] using ih

theorem detail_eq_some : m.detail id = some d ↔
    d.nodeNames = [] ∧ m.find? id = some ⟨d.run, d.visits⟩ := by
  obtain ⟨run, visits, names⟩ := d
  rw [detail, Option.map_eq_some_iff]
  constructor
  · rintro ⟨e, he, hd⟩
    cases hd
    exact ⟨rfl, he⟩
  · rintro ⟨rfl, he⟩
    exact ⟨_, he, rfl⟩

/-- A visit that could be created is new, and stored at the end. -/
theorem detail_createVisit (found : m.detail v.parentId = some d)
    (created : (m.createVisit v).1 = .ok ()) : v.id ∉ d.visits.map Visit.id ∧
      (m.createVisit v).2.detail v.parentId = some { d with visits := d.visits ++ [v] } := by
  obtain ⟨names, entry⟩ := detail_eq_some.1 found
  rw [createVisit, entry] at created ⊢
  split at created
  · cases created
  · next writable =>
    dsimp only at created ⊢
    split at created
    · cases created
    · next fresh =>
      refine ⟨by simpa using fresh, ?_⟩
      rw [if_neg writable, if_neg fresh]
      refine detail_eq_some.2 ⟨names, ?_⟩
      have changed := find?_modify (f := fun e => { e with visits := e.visits ++ [v] }) m v.parentId
        fun _ same => same
      rw [entry] at changed
      exact changed

/-- An update that worked has stored the run, and the visits over the earlier ones. -/
theorem detail_update (found : m.detail r.id = some d) (updated : (m.update r vs).1 = .ok ()) :
    (m.update r vs).2.detail r.id = some ⟨r, vs.foldl upsertVisit d.visits, []⟩ := by
  obtain ⟨-, entry⟩ := detail_eq_some.1 found
  rw [update] at updated ⊢
  split at updated
  · cases updated
  · next writable =>
    rw [if_neg writable]
    dsimp only
    rw [if_pos (by simp [entry])]
    refine detail_eq_some.2 ⟨rfl, ?_⟩
    have changed := find?_modify (f := fun e => ⟨r, vs.foldl upsertVisit e.visits⟩) m r.id
      fun _ _ => rfl
    rw [entry] at changed
    exact changed

/-- A write that failed has changed nothing. -/
theorem createVisit_of_error {e : EngineError} (h : (m.createVisit v).1 = .error e) :
    (m.createVisit v).2 = m := by
  rw [createVisit] at h ⊢
  split at h
  · next closed => rw [if_pos closed]
  · next writable =>
    rw [if_neg writable]
    split at h
    · rfl
    · split at h
      · next known => rw [if_pos known]
      · cases h

theorem update_of_error {e : EngineError} (h : (m.update r vs).1 = .error e) :
    (m.update r vs).2 = m := by
  rw [update] at h ⊢
  split at h
  · next closed => rw [if_pos closed]
  · cases h

/-! ## Following a trace -/

/-- The store answers the writes of the trace, from `m₀` on, unless they fail before
they reach it. What else happens to the store leaves the run alone. -/
inductive Serves (run : String) (m₀ : Memory) : Trace → Memory → Prop where
  /-- nothing has happened -/
  | start : Serves run m₀ [] m₀
  /-- a visit is created, or refused -/
  | created {t : Trace} {m : Memory} {v : Visit} (h : Serves run m₀ t m) :
    Serves run m₀ (.asked (.createVisit v) (m.createVisit v).1 :: t) (m.createVisit v).2
  /-- the run is written, or refused -/
  | updated {t : Trace} {m : Memory} {r : RunRecord} {visits : List Visit}
    (h : Serves run m₀ t m) :
    Serves run m₀ (.asked (.update r visits) (m.update r visits).1 :: t) (m.update r visits).2
  /-- a write does not reach the store -/
  | failed {t : Trace} {m : Memory} {e : Incident} (h : Serves run m₀ t m)
    (failed : e.isFailedWrite = true) : Serves run m₀ (e :: t) m
  /-- something else happens -/
  | unwritten {t : Trace} {m : Memory} {e : Incident} (h : Serves run m₀ t m)
    (other : e.isWrite = false) : Serves run m₀ (e :: t) m
  /-- the store is used otherwise -/
  | aside {t : Trace} {m m' : Memory} (h : Serves run m₀ t m)
    (same : m'.detail run = m.detail run) : Serves run m₀ t m'

end Memory

namespace Incident

/-- Whether a write, if it is one, concerns the run. -/
def Concerns (run : String) : Incident → Prop
  | asked (.createVisit v) _ => v.parentId = run
  | asked (.update r _) _ => r.id = run
  | _ => True

/-- Whether it is a write that worked and stored the visit of that ID. -/
def Stores (id : String) : Incident → Prop
  | asked (.createVisit v) (.ok ()) => v.id = id
  | asked (.update _ visits) (.ok ()) => id ∈ visits.map Visit.id
  | _ => False

end Incident

namespace Trace

variable {t u ms ns : Trace} {d : RunDetail} {e : Incident} {run id : String} {ids : List String}
  {v : Visit} {w : Written} {r : RunRecord} {vs earlier : List Visit}

/-! ## What is stored -/

/-- What is stored of a run after the trace, if it was `d` before. -/
def kept (d : RunDetail) : Trace → RunDetail
  | [] => d
  | .asked (.createVisit v) (.ok ()) :: t => { kept d t with visits := (kept d t).visits ++ [v] }
  | .asked (.update r visits) (.ok ()) :: t =>
    ⟨r, visits.foldl Memory.upsertVisit (kept d t).visits, []⟩
  | _ :: t => kept d t

/-- The IDs of the visits that are stored then. -/
def keptIds (d : RunDetail) (t : Trace) : List String := (t.kept d).visits.map Visit.id

/-- The IDs of the visits that were entered: they were to be created, whether or not that
worked. -/
def entered : Trace → List String
  | [] => []
  | .asked (.createVisit v) _ :: t => entered t ++ [v.id]
  | _ :: t => entered t

/-- Each update lists the visits that were entered before. -/
def Lists : Trace → Prop
  | [] => True
  | .asked (.update _ visits) _ :: t => visits.map Visit.id = entered t ∧ Lists t
  | _ :: t => Lists t

/-- No visit is created that is stored already. -/
def Fresh (d : RunDetail) (t : Trace) : Prop :=
  ∀ (e : Incident) (earlier : Trace), e :: earlier <:+ t →
    ∀ v, e = .asked (.createVisit v) (.ok ()) → v.id ∉ earlier.keptIds d

/-- A visit is created only where all that were entered before it are stored. -/
def Gapless (t : Trace) : Prop :=
  ∀ (e : Incident) (earlier : Trace), e :: earlier <:+ t →
    ∀ v, e = .asked (.createVisit v) (.ok ()) → ∀ id ∈ earlier.entered, ∃ e ∈ earlier, e.Stores id

theorem fresh_cons : Fresh d (e :: t) ↔
    (∀ v, e = .asked (.createVisit v) (.ok ()) → v.id ∉ t.keptIds d) ∧ t.Fresh d :=
  forall_cons_suffix

theorem gapless_cons : Gapless (e :: t) ↔
    (∀ v, e = .asked (.createVisit v) (.ok ()) → ∀ id ∈ t.entered, ∃ e ∈ t, e.Stores id) ∧
      t.Gapless :=
  forall_cons_suffix

/-! ### What an incident can do -/

/-- What an incident after the trace means for the visits that are entered and stored. -/
inductive Effect (t : Trace) : Incident → Prop where
  /-- a visit is created -/
  | created (v : Visit) : Effect t (.asked (.createVisit v) (.ok ()))
  /-- a visit is entered, but could not be created -/
  | entered (v : Visit) (e : EngineError) : Effect t (.asked (.createVisit v) (.error e))
  /-- the run is written -/
  | updated (r : RunRecord) (vs : List Visit) : Effect t (.asked (.update r vs) (.ok ()))
  /-- nothing changes -/
  | none {e : Incident} (kept : ∀ d, kept d (e :: t) = kept d t)
    (entered : entered (e :: t) = entered t) (stores : ∀ id, ¬ e.Stores id) : Effect t e

theorem effect (t : Trace) (e : Incident) : t.Effect e := by
  cases e with
  | asked r x =>
    cases r with
    | createVisit v =>
      cases x with
      | ok => exact .created v
      | error e => exact .entered v e
    | update r vs =>
      cases x with
      | ok => exact .updated r vs
      | error => exact .none (fun _ => rfl) rfl fun _ h => h
    | _ => exact .none (fun _ => rfl) rfl fun _ h => h
  | _ => exact .none (fun _ => rfl) rfl fun _ h => h

/-- What is stored changes only where a write works. -/
theorem kept_cons (h : e.isWrite = false ∨ e.isFailedWrite = true) :
    kept d (e :: t) = kept d t := by
  cases effect t e with
  | created v => simp [Incident.isWrite, Incident.isFailedWrite] at h
  | entered v e => rfl
  | updated r vs => simp [Incident.isWrite, Incident.isFailedWrite] at h
  | none kept _ _ => exact kept d

/-- Nor is anything else created. -/
theorem Fresh.cons (fresh : t.Fresh d) (h : e.isWrite = false ∨ e.isFailedWrite = true) :
    Fresh d (e :: t) := by
  refine fresh_cons.2 ⟨?_, fresh⟩
  rintro v rfl
  rcases h with h | h <;> cases h

@[simp] theorem keptIds_createVisit (v : Visit) (t : Trace) :
    keptIds d (.asked (.createVisit v) (.ok ()) :: t) = t.keptIds d ++ [v.id] := List.map_append

theorem Lists.tail (h : Lists (e :: t)) : t.Lists := by
  cases e with
  | asked r x =>
    cases r with
    | update r vs => exact h.2
    | _ => exact h
  | _ => exact h

theorem Lists.of_suffix (h : u.Lists) (hs : t <:+ u) : t.Lists := by
  obtain ⟨more, rfl⟩ := hs
  induction more with
  | nil => exact h
  | cons e more ih => exact ih h.tail

/-- What was entered can be told from the marks. -/
theorem entered_marks (t : Trace) : t.marks.entered = t.entered := by
  induction t with
  | nil => rfl
  | cons e t ih =>
    cases e with
    | asked r x =>
      cases r with
      | createVisit v => exact congrArg (· ++ [v.id]) ih
      | _ => exact ih
    | _ => exact ih

/-! ## The order of what is stored

What is stored only grows at its end, and so does what was entered. So both are in the same
order as long as a visit comes to both ends at the same time. -/

/-- What is stored stays in its place. -/
theorem keptIds_prefix_cons (e : Incident) (t : Trace) : t.keptIds d <+: keptIds d (e :: t) := by
  cases effect t e with
  | created v =>
    rw [keptIds_createVisit]
    exact List.prefix_append _ _
  | entered v e => exact List.prefix_refl _
  | updated r vs => exact Memory.ids_prefix_foldl_upsertVisit _ vs
  | none kept _ _ =>
    have same : keptIds d (e :: t) = t.keptIds d := congrArg (·.visits.map Visit.id) (kept d)
    exact same ▸ List.prefix_refl _

/-- So does what was entered. -/
theorem entered_prefix_cons (e : Incident) (t : Trace) : t.entered <+: entered (e :: t) := by
  cases effect t e with
  | created v => exact List.prefix_append _ _
  | entered v e => exact List.prefix_append _ _
  | updated r vs => exact List.prefix_refl _
  | none _ same _ => exact same ▸ List.prefix_refl _

/-- What grows with each incident grows along the trace. -/
theorem prefix_of_suffix {f : Trace → List String} (grows : ∀ e t, f t <+: f (e :: t))
    (h : t <:+ u) : f t <+: f u := by
  obtain ⟨more, rfl⟩ := h
  induction more with
  | nil => exact List.prefix_refl _
  | cons e more ih => exact ih.trans (grows e _)

/-- In a list without repetitions a member stands in one place. -/
theorem eq_of_concat_prefix {a b l : List String} (distinct : l.Nodup) (ha : a ++ [id] <+: l)
    (hb : b ++ [id] <+: l) : a = b := by
  have inside {a b : List String} (hb : b ++ [id] <+: l) (h : a ++ [id] <+: b ++ [id]) :
      a = b := by
    rcases List.prefix_concat_iff.1 h with same | earlier
    · exact List.append_cancel_right same
    · have known : id ∈ b := earlier.subset (by simp)
      exact absurd (List.mem_singleton_self id)
        (List.disjoint_of_nodup_append (hb.sublist.nodup distinct) known)
  rcases List.prefix_or_prefix_of_prefix ha hb with h | h
  · exact inside hb h
  · exact (inside ha h).symm

section

variable (empty : d.visits = [])

include empty

/-- A visit is stored exactly if some write has stored it. -/
theorem mem_keptIds : id ∈ t.keptIds d ↔ ∃ e ∈ t, e.Stores id := by
  induction t with
  | nil => simp [keptIds, kept, empty]
  | cons e t ih =>
    rw [List.exists_mem_cons_iff, ← ih]
    cases effect t e with
    | created v => simp [Incident.Stores, or_comm, eq_comm]
    | entered v e => simp [keptIds, kept, Incident.Stores]
    | updated r vs => exact Memory.mem_ids_foldl_upsertVisit.trans or_comm
    | none kept _ stores => simp [keptIds, kept, stores]

variable (lists : t.Lists) (distinct : t.entered.Nodup)

include lists distinct

/-- Only what was entered is stored, and only once. -/
theorem keptIds_subset : t.keptIds d ⊆ t.entered ∧ (t.keptIds d).Nodup := by
  induction t with
  | nil => simp [keptIds, kept, empty]
  | cons e t ih =>
    obtain ⟨inside, once⟩ := ih lists.tail ((entered_prefix_cons e t).sublist.nodup distinct)
    cases effect t e with
    | created v =>
      have new : v.id ∉ entered t := fun h =>
        List.disjoint_of_nodup_append distinct h (List.mem_singleton_self _)
      rw [keptIds_createVisit]
      refine ⟨List.append_subset.2 ⟨?_, List.subset_append_right ..⟩, ?_⟩
      · exact List.subset_append_of_subset_left _ inside
      · exact once.append (List.nodup_singleton _) (by simpa using mt (@inside _) new)
    | entered v e => exact ⟨List.subset_append_of_subset_left _ inside, once⟩
    | updated r vs =>
      obtain ⟨ids, -⟩ := lists
      refine ⟨fun id hid => ?_, ?_⟩
      · refine (Memory.mem_ids_foldl_upsertVisit.1 hid).elim (@inside id) fun h => ?_
        rwa [ids] at h
      · exact Memory.nodup_ids_foldl_upsertVisit once
    | none kept same _ =>
      rw [keptIds, kept, same]
      exact ⟨inside, once⟩

/-- Without gaps, what is stored comes in order, as far as it goes. -/
theorem keptIds_prefix (gapless : t.Gapless) : t.keptIds d <+: t.entered := by
  induction t with
  | nil => simp [keptIds, kept, empty]
  | cons e t ih =>
    obtain ⟨here, gapless⟩ := gapless_cons.1 gapless
    have before := ih lists.tail ((entered_prefix_cons e t).sublist.nodup distinct) gapless
    cases effect t e with
    | created v =>
      -- a beginning of what was entered that has all of it is all of it
      have all : keptIds d t = entered t := by
        have once := (entered_prefix_cons _ t).sublist.nodup distinct
        refine before.eq_of_length_le (once.subperm fun id hid => ?_).length_le
        exact (mem_keptIds empty).2 (here v rfl id hid)
      rw [keptIds_createVisit, all]
      exact List.prefix_refl _
    | entered v e => exact before.trans (List.prefix_append _ _)
    | updated r vs =>
      obtain ⟨ids, -⟩ := lists
      have stored := Memory.foldl_upsertVisit_eq (ids ▸ distinct) (ids ▸ before)
      rw [keptIds, kept, stored, ids]
      exact List.prefix_refl _
    | none kept same _ =>
      rw [keptIds, kept, same]
      exact before

omit lists in
/-- Where all that was entered is stored in order, there were no gaps. -/
theorem gapless_of_eq (all : t.keptIds d = t.entered) : t.Gapless := by
  rintro e earlier hs v rfl id hid
  have stored := prefix_of_suffix (f := keptIds d) keptIds_prefix_cons hs
  rw [keptIds_createVisit, all] at stored
  have same := eq_of_concat_prefix distinct stored (prefix_of_suffix entered_prefix_cons hs)
  exact (mem_keptIds empty).1 (same ▸ hid)

omit distinct in
/-- If every write works, all that was entered is stored, in order. -/
theorem keptIds_of_clean (fresh : t.Fresh d) (clean : t.Clean) :
    t.keptIds d = t.entered ∧ t.entered.Nodup := by
  induction t with
  | nil => simp [keptIds, kept, empty, entered]
  | cons e t ih =>
    obtain ⟨worked, clean⟩ := clean_cons.1 clean
    obtain ⟨new, fresh⟩ := fresh_cons.1 fresh
    obtain ⟨all, once⟩ := ih lists.tail fresh clean
    cases effect t e with
    | created v =>
      have new := new v rfl
      rw [all] at new
      rw [keptIds_createVisit, all]
      exact ⟨rfl, once.append (List.nodup_singleton _) (by simpa using new)⟩
    | entered v e => cases worked
    | updated r vs =>
      obtain ⟨ids, -⟩ := lists
      have stored := Memory.foldl_upsertVisit_eq (s := (kept d t).visits) (ids ▸ once)
        (by rw [ids, ← all]; exact List.prefix_refl _)
      rw [keptIds, kept, stored]
      exact ⟨ids, once⟩
    | none kept same _ =>
      rw [keptIds, kept, same]
      exact ⟨all, once⟩

end

/-! ## The writes of a run -/

/-- The writes concern the run, and its updates list what was entered: `ids` in all. -/
structure Listing (run : String) (ids : List String) (t : Trace) : Prop where
  /-- the updates list what was entered -/
  lists : t.Lists
  /-- that are these IDs -/
  entered : t.entered = ids
  /-- the writes concern the run -/
  own : ∀ e ∈ t, e.Concerns run

theorem Listing.create (h : t.Listing run ids) (own : v.parentId = run) :
    Listing run (ids ++ [v.id]) (.asked (.createVisit v) w :: t) :=
  ⟨h.lists, congrArg (· ++ [v.id]) h.entered, List.forall_mem_cons.2 ⟨own, h.own⟩⟩

theorem Listing.update (h : t.Listing run ids) (own : r.id = run)
    (lists : vs.map Visit.id = ids) : Listing run ids (.asked (.update r vs) w :: t) :=
  ⟨⟨lists.trans h.entered.symm, h.lists⟩, h.entered, List.forall_mem_cons.2 ⟨own, h.own⟩⟩

/-- If the latest write is an update, and all have worked, the run and its visits are stored as
they are. -/
theorem Listing.kept_update (h : Listing run ids (.asked (.update r vs) w :: t))
    (empty : d.visits = []) (fresh : Fresh d (.asked (.update r vs) w :: t))
    (clean : Clean (.asked (.update r vs) w :: t)) :
    kept d (.asked (.update r vs) w :: t) = ⟨r, vs, []⟩ := by
  obtain ⟨listed, lists⟩ := h.lists
  obtain ⟨worked, clean⟩ := clean_cons.1 clean
  obtain ⟨all, once⟩ := keptIds_of_clean empty lists (fresh_cons.1 fresh).2 clean
  have same : (t.kept d).visits.map Visit.id = vs.map Visit.id := all.trans listed.symm
  cases w with
  | error e => cases worked
  | ok => rw [kept, Memory.foldl_upsertVisit_eq (listed ▸ once) (same ▸ List.prefix_refl _)]

/-- The writes up to some point. -/
theorem Listing.of_suffix (h : u.Listing run ids) (hs : t <:+ u) : t.Listing run t.entered :=
  ⟨h.lists.of_suffix hs, rfl, fun e he => h.own e (hs.subset he)⟩

theorem Episode.listing {policy : WritePolicy} (h : Episode policy run earlier v ns)
    (own : v.parentId = run) (before : ms.Listing run (earlier.map Visit.id)) :
    (ns ++ ms).Listing run (earlier.map Visit.id ++ [v.id]) := by
  have created (w : Written) := before.create own (w := w)
  have ids : (earlier ++ [v.processing]).map Visit.id = earlier.map Visit.id ++ [v.id] := by
    simp [Visit.processing]
  cases h with
  | lost => exact created _
  | idle own => exact (created _).update own ids
  | begun own =>
    obtain ⟨lists, entered, concerns⟩ := (created _).update own ids
    exact ⟨lists, entered, List.forall_mem_cons.2 ⟨trivial, concerns⟩⟩

end Trace

namespace Definition.Chronicle

variable {d : Definition} {policy : WritePolicy} {run : String} {trail : List Visit} {ms : Trace}

theorem listing (h : d.Chronicle policy run trail ms) (tame : ∀ n ∈ d.nodes, n.Tame) :
    ms.Listing run (trail.reverse.map Visit.id) := by
  induction h with
  | start => exact ⟨trivial, rfl, by simp⟩
  | @node trail ms ns n c v _ found created same _ episode ih =>
    have listing := episode.listing created.parentId ih
    rw [List.reverse_cons, List.map_append, List.map_singleton, (same (tame n found)).id_eq]
    exact listing

end Definition.Chronicle

namespace Run

variable {r : Run} {d : Definition} {s : Settings} {run : String} {ok : Bool} {t : Trace}

/-- A run that has ended has listed all its visits. -/
theorem Closed.listing (h : r.Closed d s run ok t) (tame : ∀ n ∈ d.nodes, n.Tame) :
    t.marks.Listing run (r.visits.map Visit.id) := by
  obtain ⟨ms, close, marks, chronicle, closing, -⟩ := h.order
  rw [marks]
  have walked := chronicle.listing tame
  cases closing with
  | last => exact walked.update h.id rfl
  | canceled own => exact (walked.update (own.trans h.id) rfl).update h.id rfl

end Run

namespace Memory.Serves

open Trace

variable {m₀ m : Memory} {t : Trace} {run : String} {d : RunDetail}

/-- What the store has of a run can be read off the trace, if all writes concern it. -/
theorem detail_eq (h : m₀.Serves run t m) (found : m₀.detail run = some d)
    (own : ∀ e ∈ t, e.Concerns run) : m.detail run = some (t.kept d) ∧ t.Fresh d := by
  induction h with
  | start => exact ⟨found, fun e earlier hs => by simpa using hs.length_le⟩
  | @created t m v _ ih =>
    obtain ⟨rfl, own⟩ := List.forall_mem_cons.1 own
    obtain ⟨stored, fresh⟩ := ih own
    cases answer : (m.createVisit v).1 with
    | ok =>
      obtain ⟨new, created⟩ := detail_createVisit stored answer
      refine ⟨created, fresh_cons.2 ⟨?_, fresh⟩⟩
      rintro _ ⟨⟩
      exact new
    | error e =>
      rw [createVisit_of_error answer]
      exact ⟨stored, fresh_cons.2 ⟨by simp, fresh⟩⟩
  | @updated t m r vs _ ih =>
    obtain ⟨rfl, own⟩ := List.forall_mem_cons.1 own
    obtain ⟨stored, fresh⟩ := ih own
    refine ⟨?_, fresh_cons.2 ⟨by simp, fresh⟩⟩
    cases answer : (m.update r vs).1 with
    | ok => exact detail_update stored answer
    | error e =>
      rw [update_of_error answer]
      exact stored
  | failed _ failed ih =>
    obtain ⟨stored, fresh⟩ := ih (List.forall_mem_cons.1 own).2
    rw [kept_cons (.inr failed)]
    exact ⟨stored, fresh.cons (.inr failed)⟩
  | unwritten _ other ih =>
    obtain ⟨stored, fresh⟩ := ih (List.forall_mem_cons.1 own).2
    rw [kept_cons (.inl other)]
    exact ⟨stored, fresh.cons (.inl other)⟩
  -- a change of the store that this run cannot see, such as another run's write
  | aside _ same ih =>
    rw [same]
    exact ih own

/-- The store follows the marks of a trace alone. -/
theorem marks (h : m₀.Serves run t m) : m₀.Serves run t.marks m := by
  induction h with
  | start => exact .start
  | created _ ih => exact .created ih
  | updated _ ih => exact .updated ih
  | failed _ failed ih =>
    rw [marks_cons_of_isMark (isMark_of_isFailedWrite failed)]
    exact .failed ih failed
  | @unwritten t m e _ other ih =>
    cases mark : e.isMark with
    | true =>
      rw [marks_cons_of_isMark mark]
      exact .unwritten ih other
    | false =>
      rw [marks_cons_of_not_isMark mark]
      exact ih
  | aside _ same ih => exact .aside ih same

end Memory.Serves

/-- A run is stored as it has ended, if every write has worked. -/
theorem Run.Closed.detail {r : Run} {d : Definition} {s : Settings} {run : String} {ok : Bool}
    {t : Trace} {m₀ m : Memory} {record : RunRecord} (h : r.Closed d s run ok t)
    (tame : ∀ n ∈ d.nodes, n.Tame) (stored : m₀.detail run = some ⟨record, [], []⟩)
    (serves : m₀.Serves run t m) (clean : t.Clean) :
    m.detail run = some ⟨r.record, r.visits, []⟩ := by
  obtain ⟨w, rest, marks⟩ := h.exists_last
  have listing := h.listing tame
  have worked := Trace.clean_marks.2 clean
  obtain ⟨detail, fresh⟩ := serves.marks.detail_eq stored listing.own
  rw [marks] at detail listing fresh worked
  rw [detail, listing.kept_update rfl fresh worked]

end Runbook
