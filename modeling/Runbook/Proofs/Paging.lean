import Runbook.Api
import Runbook.Proofs.Tables

/-!
# Pages of the stored runs

Whoever asks a store for one page after the other gets every run that matches exactly once.

* `RunQuery.slice`, `RunQuery.flatMap_slice` — the pages of a list, which make up the list.
* `RunQuery.Counts` — the page and its size as they are meant, and the runs before the page.
* `Memory.WrittenAfter`, `Relational.Newer` — which of two runs comes first.
* `Store.Pages` — what a store answers, page by page.
* `RunQuery.paged` — so do both stores in all their states.
-/

namespace Runbook

/-! ## Pages of a list -/

namespace RunQuery

variable {α : Type} {l : List α} {total : Nat} {p : UInt32}

/-- The query for another page. -/
def onPage (q : RunQuery) (page : Option UInt32) : RunQuery := { q with page }

/-- How many pages so many runs fill. -/
def pagesFor (q : RunQuery) (total : Nat) : Nat :=
  (total + q.effectivePageSize - 1) / q.effectivePageSize

/-- A page of a list. -/
def slice (q : RunQuery) (l : List α) (p : UInt32) : List α :=
  (l.drop ((max 1 p.toNat - 1) * q.effectivePageSize)).take q.effectivePageSize

variable (q : RunQuery)

/-- Page 0 is page 1. -/
theorem slice_zero (l : List α) : q.slice l 0 = q.slice l 1 := rfl

/-- No page has more rows than its size. -/
theorem length_slice_le : (q.slice l p).length ≤ q.effectivePageSize := by
  simp [slice]

/-- A query for a page is answered with that page. -/
theorem pageOf_onPage {most : Nat} (skips : UInt32.size * maxPageSize ≤ most) (page : Option UInt32)
    (l : List α) : (q.onPage page).pageOf most l = q.slice l (page.getD 1) :=
  (q.onPage page).pageOf_eq skips l

/-- The pages up to some page are the list up to some point. -/
theorem flatMap_slice_eq_take (l : List α) {n : Nat} (exists_ : n < UInt32.size) :
    (List.range n).flatMap (fun i => q.slice l (UInt32.ofNat (i + 1))) =
      l.take (n * q.effectivePageSize) := by
  induction n with
  | zero => simp
  | succ n ih =>
    have number : (UInt32.ofNat (n + 1)).toNat = n + 1 := UInt32.toNat_ofNat_of_lt' exists_
    have last : q.slice l (UInt32.ofNat (n + 1)) =
        (l.drop (n * q.effectivePageSize)).take q.effectivePageSize := by
      rw [slice, number]
      simp
    rw [List.range_succ, List.flatMap_append, ih (by omega), List.flatMap_singleton, last,
      Nat.succ_mul, List.take_add]

/-- The pages have room for all runs. -/
theorem le_pagesFor_mul (total : Nat) : total ≤ q.pagesFor total * q.effectivePageSize := by
  have positive := q.effectivePageSize_pos
  have rest := Nat.div_add_mod (total + q.effectivePageSize - 1) q.effectivePageSize
  have small := Nat.mod_lt (total + q.effectivePageSize - 1) positive
  rw [pagesFor, Nat.mul_comm]
  omega

/-- All pages together are the list. -/
theorem flatMap_slice (exists_ : q.pagesFor l.length < UInt32.size) :
    (List.range (q.pagesFor l.length)).flatMap (fun i => q.slice l (UInt32.ofNat (i + 1))) = l := by
  rw [q.flatMap_slice_eq_take l exists_, List.take_of_length_le (q.le_pagesFor_mul l.length)]

/-- Nothing is on a page after them. -/
theorem slice_eq_nil (past : q.pagesFor l.length < p.toNat) : q.slice l p = [] := by
  have room : l.length ≤ (max 1 p.toNat - 1) * q.effectivePageSize := by
    apply Nat.le_trans (q.le_pagesFor_mul l.length)
    apply Nat.mul_le_mul_right
    omega
  simp [slice, List.drop_eq_nil_of_le room]

/-- What a query means by its page, and how many runs it puts before it. -/
structure Counts (q : RunQuery) : Prop where
  /-- without a size, it is 20 -/
  unsized : q.pageSize = none → q.effectivePageSize = 20
  /-- a size from 1 to 500 is taken as it is -/
  sized : ∀ n, q.pageSize = some n → 1 ≤ n.toNat → n.toNat ≤ 500 → q.effectivePageSize = n.toNat
  /-- a larger one is 500 -/
  large : ∀ n, q.pageSize = some n → 500 < n.toNat → q.effectivePageSize = 500
  /-- none is 1 -/
  small : q.pageSize = some 0 → q.effectivePageSize = 1
  /-- without a page, it is page 1 -/
  unnumbered : q.page = none → q.effectivePage = 1
  /-- a page from 1 on is taken as it is -/
  numbered : ∀ n, q.page = some n → 1 ≤ n.toNat → q.effectivePage = n.toNat
  /-- page 0 is page 1 -/
  zero : q.page = some 0 → q.effectivePage = 1
  /-- the product that is the offset is a word -/
  fits : (q.effectivePage - 1) * q.effectivePageSize < UInt64.size
  /-- it is the offset -/
  offset : q.offset = (q.effectivePage - 1) * q.effectivePageSize
  /-- both stores can skip that many -/
  skipped : q.offset ≤ Memory.maxSkipped ∧ q.offset ≤ Relational.maxSkipped

/-- The number of the first row of a page is computed with 32 bits and cannot exceed them when it is
used: a page that begins so late is beyond all rows. -/
theorem counts : q.Counts where
  unsized unsaid := by simp [effectivePageSize, unsaid, defaultPageSize, maxPageSize]
  sized n said low high := by
    simp only [effectivePageSize, said, maxPageSize, Option.getD_some]
    omega
  large n said high := by
    simp only [effectivePageSize, said, maxPageSize, Option.getD_some]
    omega
  small said := by simp [effectivePageSize, said, maxPageSize]
  unnumbered unsaid := by simp [effectivePage, unsaid]
  numbered n said low := by
    simp only [effectivePage, said, Option.getD_some]
    omega
  zero said := by simp [effectivePage, said]
  fits := by
    rw [← offset_eq]
    exact Nat.lt_of_le_of_lt q.offset_le (by decide)
  offset := q.offset_eq
  skipped := by
    constructor
    · exact Nat.le_trans q.offset_le (by decide)
    · exact Nat.le_trans q.offset_le (by decide)

end RunQuery

/-! ## Which run is newer -/

/-- A later member of a list without repetitions is in a beginning of the list only if an earlier
one is. -/
theorem pairwise_mem_prefix {α : Type} {l : List α} (distinct : l.Nodup) :
    l.Pairwise fun a b => ∀ start, start <+: l → b ∈ start → a ∈ start := by
  induction l with
  | nil => exact .nil
  | cons x l ih =>
    obtain ⟨other, distinct⟩ := List.nodup_cons.1 distinct
    refine List.pairwise_cons.2 ⟨?_, (ih distinct).imp_of_mem ?_⟩
    · intro b _ start hstart hb
      cases start with
      | nil => cases hb
      | cons y start =>
        obtain ⟨rfl, -⟩ := List.cons_prefix_cons.1 hstart
        exact List.mem_cons_self ..
    · intro a b _ hb here start hstart mem
      cases start with
      | nil => cases mem
      | cons y start =>
        obtain ⟨rfl, inside⟩ := List.cons_prefix_cons.1 hstart
        have ne : b ≠ y := by
          rintro rfl
          exact other hb
        exact List.mem_cons_of_mem y (here start inside ((List.mem_cons.1 mem).resolve_left ne))

namespace Memory

variable {m m₀ : Memory} {a b r : RunRecord} {v : Visit} {vs : List Visit} {id : String}

/-- The IDs of the runs, the one written first before the others. -/
def ids (m : Memory) : List String := m.entries.map (·.run.id)

/-- How the store in memory goes on. -/
inductive Later (m₀ : Memory) : Memory → Prop where
  /-- nothing happens -/
  | now : Later m₀ m₀
  /-- a call is made -/
  | call {m : Memory} (q : StoreRequest) (h : Later m₀ m) : Later m₀ (q.perform m).2
  /-- writes are switched on or off -/
  | switched {m : Memory} (readOnly : Bool) (h : Later m₀ m) : Later m₀ { m with readOnly }

/-- The run `a` was first written after `b`: whenever `a` was stored, `b` was. -/
def WrittenAfter (m : Memory) (a b : RunRecord) : Prop :=
  ∀ m₀, Later m₀ m → (m₀.find? a.id).isSome → (m₀.find? b.id).isSome

/-- A run is found by an ID that is listed. -/
theorem isSome_find?_iff : (m.find? id).isSome ↔ id ∈ m.ids := by
  simp [find?, ids]

/-- An entry that is written over keeps its place, and its ID. -/
theorem ids_modify {f : MemoryEntry → MemoryEntry} (m : Memory) (id : String)
    (keeps : ∀ e, e.run.id = id → (f e).run.id = id) : (m.modify id f).ids = m.ids := by
  rw [ids, modify, List.map_map]
  apply List.map_congr_left
  intro e _
  by_cases same : e.run.id = id <;> simp [same, keeps]

/-- A call adds at most one run, at the end. -/
theorem ids_prefix_perform (m : Memory) (q : StoreRequest) : m.ids <+: (q.perform m).2.ids := by
  have added (r : RunRecord) : m.ids <+: ids { m with entries := m.entries ++ [⟨r, []⟩] } := by
    simp [ids]
  -- only a new run adds an ID, and it does so at the end
  cases q with
  | createRun r =>
    change m.ids <+: (m.createRun r).2.ids
    rw [createRun]
    split
    · exact List.prefix_refl _
    · exact added r
  | createVisit v =>
    change m.ids <+: (m.createVisit v).2.ids
    rw [createVisit]
    split
    · exact List.prefix_refl _
    · split
      · exact List.prefix_refl _
      · split
        · exact List.prefix_refl _
        · have kept : ids (m.modify v.parentId fun e => { e with visits := e.visits ++ [v] }) =
              m.ids := ids_modify m v.parentId fun _ same => same
          exact kept ▸ List.prefix_refl _
  | update r vs =>
    change m.ids <+: (m.update r vs).2.ids
    rw [update]
    split
    · exact List.prefix_refl _
    · change m.ids <+: (modify _ r.id _).ids
      rw [ids_modify _ r.id fun _ _ => rfl]
      split
      · exact List.prefix_refl _
      · exact added r
  | get | detail | list | unfinished => exact List.prefix_refl _

/-- So it is after any number of calls: new IDs come at the end. -/
theorem Later.ids_prefix (h : Later m₀ m) : m₀.ids <+: m.ids := by
  induction h with
  | now => exact List.prefix_refl _
  | call q _ ih => exact ih.trans (ids_prefix_perform _ q)
  | switched _ _ ih => exact ih

/-- The runs that match come in the order of their first writes, the latest one first. -/
theorem Sound.pairwise_matching (h : m.Sound) (q : RunQuery) :
    (m.matching q).Pairwise m.WrittenAfter := by
  rw [matching, ← List.map_reverse]
  apply List.Pairwise.filter
  rw [List.pairwise_map, List.pairwise_reverse]
  have order := pairwise_mem_prefix h.runs
  rw [List.pairwise_map] at order
  apply order.imp
  intro a b first m₀ later stored
  rw [isSome_find?_iff] at stored ⊢
  exact first m₀.ids later.ids_prefix stored

end Memory

namespace Relational

variable {t : Relational} {rs : List RunRecord} {vs ws : List Visit}

/-- The run `a` was inserted after `b`: whenever `a` was stored, `b` was. -/
def WrittenAfter (t : Relational) (a b : RunRecord) : Prop :=
  ∀ t₀ qs, t = StoreRequest.performAll t₀ qs → t₀.hasRun a.id → t₀.hasRun b.id

/-- The run `a` was created after `b`, or both at one time and it was inserted later. -/
def Newer (t : Relational) (a b : RunRecord) : Prop :=
  b.createdAt.before a.createdAt ∨ a.createdAt = b.createdAt ∧ t.WrittenAfter a b

/-- The IDs of the runs, the one inserted first before the others. -/
def ids (t : Relational) : List String := t.runs.map RunRow.id

/-- In the tables, too, a run is there if its ID is listed. -/
theorem hasRun_iff {id : String} : t.hasRun id ↔ id ∈ t.ids := by
  simp [hasRun, ids]

/-- A run that is written over keeps its place, and a new one comes last. -/
theorem ids_prefix_upsertRun (t : Relational) (r : RunRecord) : t.ids <+: (t.upsertRun r).ids := by
  rw [upsertRun]
  split
  · have same : ids { t with runs := t.runs.map fun row =>
        if row.id = r.id then row.overwrite (.ofRecord r) else row } = t.ids := by
      rw [ids, List.map_map]
      apply List.map_congr_left
      intro row _
      by_cases own : row.id = r.id <;> simp [own, RunRow.overwrite]
    exact same ▸ List.prefix_refl _
  · simp [ids]

/-- Visits are written without touching the runs. -/
theorem ids_upsertVisits {t' : Relational} (written : t.upsertVisits ws = .ok t') :
    t'.ids = t.ids := by
  induction ws generalizing t with
  | nil =>
    cases written
    rfl
  | cons v ws ih =>
    rw [upsertVisits, upsertVisit] at written
    dsimp only at written
    split at written
    · exact (ih (t := { t with visits := _ }) written :)
    · split at written
      · cases written
      · exact (ih (t := { t with visits := _ }) written :)

/-- A call adds at most one run, at the end. -/
theorem ids_prefix_perform (t : Relational) (q : StoreRequest) : t.ids <+: (q.perform t).2.ids := by
  cases q with
  | createRun r =>
    change t.ids <+: (t.createRun r).2.ids
    rw [createRun]
    split
    · exact List.prefix_refl _
    · simp [ids]
  | createVisit v =>
    change t.ids <+: (t.createVisit v).2.ids
    rw [createVisit]
    split
    · exact List.prefix_refl _
    · split <;> exact List.prefix_refl _
  | update r ws =>
    change t.ids <+: (t.update r ws).2.ids
    rw [update]
    split
    · next written =>
      rw [ids_upsertVisits written]
      exact ids_prefix_upsertRun t r
    · exact List.prefix_refl _
  | get | detail | list | unfinished => exact List.prefix_refl _

/-- So it is after any number of calls. -/
theorem ids_prefix_performAll (t : Relational) (qs : List StoreRequest) :
    t.ids <+: (StoreRequest.performAll t qs).ids := by
  induction qs generalizing t with
  | nil => exact List.prefix_refl _
  | cons q qs ih => exact (ids_prefix_perform t q).trans (ih _)

/-- The rows are in the order of the records that they were made from. -/
theorem ids_holding : (holding rs vs).ids = rs.map RunRecord.id := by
  simp [ids, holding, RunRow.ofRecord]

end Relational

/-! ### Sorting by a text -/

section

variable {α : Type} {text : α → String} {R : α → α → Prop} {l : List α}

/-- To sort by a text, downwards, is to sort by an order: it is transitive, -/
theorem descending_trans (text : α → String) (a b c : α) (hab : decide (text b ≤ text a) = true)
    (hbc : decide (text c ≤ text b) = true) : decide (text c ≤ text a) = true := by
  simp only [decide_eq_true_eq] at hab hbc ⊢
  exact String.le_trans hbc hab

/-- and any two can be compared. -/
theorem descending_total (text : α → String) (a b : α) :
    (decide (text b ≤ text a) || decide (text a ≤ text b)) = true := by
  simpa using String.le_total _ _

/-- What sorts alike stays as it is. -/
theorem filter_mergeSort (l : List α) (k : String) :
    (l.mergeSort fun a b => decide (text b ≤ text a)).filter (text · == k) =
      l.filter (text · == k) := by
  have alike : (l.filter (text · == k)).Pairwise fun a b => decide (text b ≤ text a) = true := by
    apply List.pairwise_of_forall_mem_list
    intro a ha b hb
    have keyA : text a = k := by simpa using (List.mem_filter.1 ha).2
    have keyB : text b = k := by simpa using (List.mem_filter.1 hb).2
    simp [keyA, keyB]
  have kept := List.sublist_mergeSort (descending_trans text) (descending_total text) alike
    List.filter_sublist
  replace kept := kept.filter (text · == k)
  simp only [List.filter_filter, Bool.and_self] at kept
  apply (kept.eq_of_length ?_).symm
  exact (((List.mergeSort_perm l _).filter _).length_eq).symm

/-- Sorting by descending texts keeps the order of what sorts alike. -/
theorem pairwise_mergeSort_stable (before : l.Pairwise R) :
    (l.mergeSort fun a b => decide (text b ≤ text a)).Pairwise fun a b =>
      text b ≤ text a ∧ (text a = text b → R a b) := by
  rw [List.pairwise_iff_forall_sublist]
  intro a b order
  constructor
  · have sorted := List.pairwise_mergeSort (descending_trans text) (descending_total text) l
    exact of_decide_eq_true (List.pairwise_iff_forall_sublist.1 sorted order)
  · intro same
    have alike := order.filter (text · == text b)
    rw [filter_mergeSort] at alike
    have both : [a, b].filter (text · == text b) = [a, b] := by simp [same]
    rw [both] at alike
    exact List.pairwise_iff_forall_sublist.1 before (alike.trans List.filter_sublist)

end

/-! ### Sorting by a time -/

namespace Instant

variable {t u : Instant}

/-- One of two different times comes before the other. -/
theorem before_total (differ : t ≠ u) : t.before u = true ∨ u.before t = true := by
  have unequal : t.seconds ≠ u.seconds ∨ t.nanos ≠ u.nanos := by
    by_contra! same
    apply differ
    obtain ⟨seconds, nanos, valid⟩ := t
    obtain ⟨rfl, rfl⟩ := same
    rfl
  simp only [before, Bool.or_eq_true, Bool.and_eq_true, decide_eq_true_eq, beq_iff_eq]
  omega

/-- Texts in order are those of times in order, as they are read. -/
theorem before_of_printMicros_le (ht : t.FourDigits) (hu : u.FourDigits)
    (h : t.printMicros ≤ u.printMicros) : t.asStored.before u.asStored = true ∨
      u.asStored = t.asStored ∧ u.printMicros = t.printMicros := by
  by_cases same : u.asStored = t.asStored
  · refine .inr ⟨same, ?_⟩
    rw [← printMicros_asStored u, same, printMicros_asStored]
  · rcases before_total same with later | sooner
    · have less := printMicros_lt (stored_asStored hu) (stored_asStored ht) later
      rw [printMicros_asStored, printMicros_asStored] at less
      exact absurd less (String.not_lt.2 h)
    · exact .inl sooner

end Instant

/-! ## What is listed -/

/-- A run of a list that matches is one that is found by its ID and matches. -/
theorem mem_map_filter_iff {rs : List RunRecord} {f : RunRecord → RunRecord}
    {p : RunRecord → Bool} {r : RunRecord} (distinct : (rs.map RunRecord.id).Nodup)
    (ids : ∀ r, (f r).id = r.id) (same : ∀ r, p (f r) = p r) :
    r ∈ (rs.filter p).map f ↔ (rs.find? (·.id == r.id)).map f = some r ∧ p r = true := by
  constructor
  · intro hr
    obtain ⟨s, hs, rfl⟩ := List.mem_map.1 hr
    obtain ⟨stored, matching⟩ := List.mem_filter.1 hs
    rw [ids, find?_key_eq_some distinct stored, same]
    exact ⟨rfl, matching⟩
  · rintro ⟨found, matching⟩
    obtain ⟨s, hs, rfl⟩ := Option.map_eq_some_iff.1 found
    apply List.mem_map_of_mem
    rw [List.mem_filter, ← same]
    exact ⟨List.mem_of_find?_eq_some hs, matching⟩

namespace Memory

variable {m : Memory}

/-- No run is twice among the entries, -/
theorem Sound.nodup_runs (h : m.Sound) :
    ((m.entries.map MemoryEntry.run).map RunRecord.id).Nodup := by
  rw [List.map_map]
  exact h.runs

/-- so that what matches is what can be found and is accepted, -/
theorem Sound.mem_matching (h : m.Sound) (q : RunQuery) (r : RunRecord) :
    r ∈ m.matching q ↔ m.get r.id = some r ∧ q.accepts r = true := by
  have members := mem_map_filter_iff (r := r) (f := id) (p := q.accepts) h.nodup_runs
    (fun _ => rfl) fun _ => rfl
  rw [List.map_id, Option.map_id_apply, List.find?_map] at members
  simpa [matching, get, find?, Function.comp_def] using members

/-- each run once. -/
theorem Sound.nodup_matching (h : m.Sound) (q : RunQuery) :
    ((m.matching q).map RunRecord.id).Nodup := by
  have distinct : ((m.entries.map MemoryEntry.run).reverse.map RunRecord.id).Nodup := by
    rw [List.map_reverse, List.nodup_reverse]
    exact h.nodup_runs
  exact distinct.sublist (List.filter_sublist.map _)

/-- A page of the runs that match. -/
theorem list_onPage (m : Memory) (q : RunQuery) (page : Option UInt32) :
    m.list (q.onPage page) = (q.slice (m.matching q) (page.getD 1), (m.matching q).length) := by
  rw [list, RunQuery.pageOf_onPage q (by decide)]
  rfl

end Memory

namespace Relational

variable {t : Relational} {rs : List RunRecord} {vs : List Visit}

/-- The records that match, newest first. -/
def sorted (q : RunQuery) (rs : List RunRecord) : List RunRecord :=
  (rs.reverse.filter q.accepts).mergeSort fun a b =>
    decide (b.createdAt.printMicros ≤ a.createdAt.printMicros)

/-- To sort is to lose nothing and to add nothing. -/
theorem mem_sorted {q : RunQuery} {r : RunRecord} :
    r ∈ sorted q rs ↔ r ∈ rs.filter q.accepts := by
  simp [sorted]

/-- A query does not look at times. -/
theorem accepts_asStored (q : RunQuery) (r : RunRecord) : q.accepts r.asStored = q.accepts r := rfl

/-- So what matches is what is found by its ID and is accepted, -/
theorem Held.mem_sorted (h : t.Held rs vs) (q : RunQuery) (r : RunRecord) :
    r ∈ (sorted q rs).map RunRecord.asStored ↔
      t.get r.id = .ok (some r) ∧ q.accepts r = true := by
  rw [h.tables, get_holding h.runTimes, Except.ok.injEq,
    ← mem_map_filter_iff h.runIds RunRecord.id_asStored (accepts_asStored q)]
  simp [Relational.mem_sorted]

/-- each run once, -/
theorem Held.nodup_sorted (h : t.Held rs vs) (q : RunQuery) :
    (((sorted q rs).map RunRecord.asStored).map RunRecord.id).Nodup := by
  have ids : ((sorted q rs).map RunRecord.asStored).map RunRecord.id =
      (sorted q rs).map RunRecord.id := by simp [Function.comp_def]
  rw [ids, sorted, ((List.mergeSort_perm _ _).map _).nodup_iff]
  have distinct : (rs.reverse.map RunRecord.id).Nodup := by simpa using h.runIds
  exact distinct.sublist (List.filter_sublist.map _)

/-- and the newest first, by the times that are read. -/
theorem Held.pairwise_sorted (h : t.Held rs vs) (q : RunQuery) :
    ((sorted q rs).map RunRecord.asStored).Pairwise t.Newer := by
  have inserted : (rs.reverse.filter q.accepts).Pairwise t.WrittenAfter := by
    apply List.Pairwise.filter
    rw [List.pairwise_reverse]
    have order := pairwise_mem_prefix h.runIds
    rw [List.pairwise_map] at order
    apply order.imp
    intro a b first t₀ qs later stored
    rw [hasRun_iff] at stored ⊢
    have start := ids_prefix_performAll t₀ qs
    rw [← later, h.tables, ids_holding] at start
    exact first t₀.ids start stored
  rw [List.pairwise_map]
  apply (pairwise_mergeSort_stable inserted).imp_of_mem
  rintro a b ha hb ⟨le, stable⟩
  have times {r : RunRecord} (hr : r ∈ sorted q rs) : r.createdAt.FourDigits :=
    (h.runTimes r (List.mem_filter.1 (Relational.mem_sorted.1 hr)).1).1
  rcases Instant.before_of_printMicros_le (times hb) (times ha) le with later | ⟨same, text⟩
  · exact .inl later
  · exact .inr ⟨same, stable text⟩

/-- A page of the runs that match. -/
theorem Held.list_onPage (h : t.Held rs vs) (q : RunQuery) (page : Option UInt32) :
    t.list (q.onPage page) =
      .ok (q.slice ((sorted q rs).map RunRecord.asStored) (page.getD 1), (sorted q rs).length) := by
  have matching : t.matching (q.onPage page) = (sorted q rs).map RunRow.ofRecord := by
    rw [h.tables, matching_holding]
    rfl
  have slice_map {β : Type} (f : RunRecord → β) (p : UInt32) :
      q.slice ((sorted q rs).map f) p = (q.slice (sorted q rs) p).map f := by
    simp only [RunQuery.slice, List.map_take, List.map_drop]
  have read : readRows RunRow.toRecord
      ((q.slice (sorted q rs) (page.getD 1)).map RunRow.ofRecord) =
        .ok ((q.slice (sorted q rs) (page.getD 1)).map RunRecord.asStored) := by
    apply readRows_map
    intro r hr
    have listed := List.mem_of_mem_drop (List.mem_of_mem_take hr)
    exact RunRecord.toRecord_ofRecord
      (h.runTimes r (List.mem_filter.1 (Relational.mem_sorted.1 listed)).1)
  rw [list, matching, RunQuery.pageOf_onPage q (by decide), slice_map, slice_map, read,
    List.length_map]
  rfl

end Relational

/-! ## What a store answers -/

section

variable {σ : Type} [Store σ] {s : σ} {q : RunQuery} {newer : RunRecord → RunRecord → Prop}
  {runs : List RunRecord} {page : UInt32 → List RunRecord}

/-- A store answers a query page by page: these are the runs, and these the pages. -/
structure Store.Pages (s : σ) (q : RunQuery) (newer : RunRecord → RunRecord → Prop)
    (runs : List RunRecord) (page : UInt32 → List RunRecord) : Prop where
  /-- the runs are those that are stored and match -/
  matching : ∀ r, r ∈ runs ↔ (Store.get r.id s).1 = .ok (some r) ∧ q.accepts r = true
  /-- none comes twice -/
  distinct : (runs.map RunRecord.id).Nodup
  /-- the newest comes first -/
  newest : runs.Pairwise newer
  /-- any page is answered with its runs and the number of all runs; without one, page 1 -/
  answer : ∀ p, Store.list (q.onPage p) s = (.ok (page (p.getD 1), runs.length), s)
  /-- page 0 is page 1 -/
  zero : page 0 = page 1
  /-- no page has too many runs -/
  fits : ∀ p, (page p).length ≤ q.effectivePageSize
  /-- the pages up to some page are the runs up to some run -/
  start : ∀ n < UInt32.size, (List.range n).flatMap (fun i => page (UInt32.ofNat (i + 1))) =
    runs.take (n * q.effectivePageSize)
  /-- all pages together are the runs -/
  whole : q.pagesFor runs.length < UInt32.size →
    (List.range (q.pagesFor runs.length)).flatMap (fun i => page (UInt32.ofNat (i + 1))) = runs
  /-- nothing comes after them -/
  past : ∀ p, q.pagesFor runs.length < p.toNat → page p = []
  /-- over HTTP the same runs are shown, unless the call to the store is made to fail -/
  shown : ∀ (e : Engine σ) (request : Api.Request) (p : Option UInt32), e.host.store = s →
    (e.host.faults.next .list).1 = false → request.method = .get →
    Api.Route.ofTarget? request.target = some .runs →
    RunQuery.ofParameters request.target.parameters = some (q.onPage p) →
    ∃ info : Api.PageInfo,
      (Api.respond e request).1 = .ok (Api.RunList.toJson ⟨page (p.getD 1), info⟩) ∧
      info.page.toNat = (q.onPage p).effectivePage ∧
      info.pageSize.toNat = q.effectivePageSize ∧
      (runs.length < UInt64.size → info.total.toNat = runs.length)

/-- A list of runs is shown as the store answers. -/
theorem Api.respond_runs {e : Engine σ} {request : Api.Request} {rows : List RunRecord}
    {total : Nat} (works : (e.host.faults.next .list).1 = false) (get : request.method = .get)
    (route : Api.Route.ofTarget? request.target = some .runs)
    (parameters : RunQuery.ofParameters request.target.parameters = some q)
    (answer : Store.list q e.host.store = (.ok (rows, total), e.host.store)) :
    (Api.respond e request).1 = .ok (Api.RunList.toJson
      ⟨rows, UInt32.ofNat q.effectivePage, UInt32.ofNat q.effectivePageSize,
        UInt64.ofNat total⟩) := by
  have listed : (e.list q).1 = .ok (rows, total) := by
    change (e.host.call .list (Store.list q)).1 = _
    simp [Host.call, works, answer]
  simp only [Api.respond, route, get, Api.represent, Option.getD_some, Api.showRuns, parameters]
  generalize e.list q = reply at listed
  obtain ⟨found, e'⟩ := reply
  cases listed
  rfl

/-- A store that answers with the pages of a list pages it. -/
theorem Store.Pages.of_slice (runs : List RunRecord)
    (matching : ∀ r, r ∈ runs ↔ (Store.get r.id s).1 = .ok (some r) ∧ q.accepts r = true)
    (distinct : (runs.map RunRecord.id).Nodup) (newest : runs.Pairwise newer)
    (answer : ∀ p, Store.list (q.onPage p) s = (.ok (q.slice runs (p.getD 1), runs.length), s)) :
    Store.Pages s q newer runs (q.slice runs) where
  matching := matching
  distinct := distinct
  newest := newest
  answer := answer
  zero := q.slice_zero runs
  fits _ := q.length_slice_le
  start _ := q.flatMap_slice_eq_take runs
  whole := q.flatMap_slice
  past _ := q.slice_eq_nil
  shown := by
    rintro e request p rfl works get route parameters
    refine ⟨_, Api.respond_runs works get route parameters (answer p), ?_, ?_, ?_⟩
    · exact UInt32.toNat_ofNat_of_lt' (q.onPage p).effectivePage_lt
    · exact UInt32.toNat_ofNat_of_lt' (Nat.lt_of_le_of_lt q.effectivePageSize_le (by decide))
    · exact UInt64.toNat_ofNat_of_lt'

end

/-- The IDs on a page are those in the answer. -/
theorem Store.Pages.read {σ : Type} [Store σ] {s : σ} {q : RunQuery}
    {newer : RunRecord → RunRecord → Prop} {runs : List RunRecord}
    {page : UInt32 → List RunRecord} (h : Store.Pages s q newer runs page) (p : UInt32)
    (ids : List String) (n : Nat)
    (answer : ((Store.list (q.onPage (some p)) s).1.map fun x => (x.1.map RunRecord.id, x.2)) =
      .ok (ids, n)) : (page p).map RunRecord.id = ids ∧ runs.length = n := by
  rw [h.answer] at answer
  simpa [Except.map] using answer

/-- Both stores answer the query page by page in all their states. -/
structure RunQuery.Paged (q : RunQuery) : Prop where
  /-- the page and its size are as they are meant, whatever page is asked for -/
  counts : ∀ p, (q.onPage p).Counts
  /-- the store in memory lists the runs in the order of their first writes, the latest first -/
  memory : ∀ m : Memory, m.Reachable → ∃ runs page, Store.Pages m q m.WrittenAfter runs page
  /-- the relational store lists them by their times of creation, the latest first -/
  relational : ∀ t : Relational, t.Reachable → ∃ runs page, Store.Pages t q t.Newer runs page

/-- Paging neither loses nor repeats a run. -/
theorem RunQuery.paged (q : RunQuery) : q.Paged where
  counts p := (q.onPage p).counts
  memory m reachable := by
    have sound := reachable.sound
    refine ⟨_, _, .of_slice (m.matching q) ?_ ?_ ?_ ?_⟩
    · intro r
      rw [sound.mem_matching]
      simp [Store.get]
    · exact sound.nodup_matching q
    · exact sound.pairwise_matching q
    · intro p
      simp [Store.list, m.list_onPage]
  relational t reachable := by
    obtain ⟨rs, vs, held⟩ := reachable.held
    refine ⟨_, _, .of_slice ((Relational.sorted q rs).map RunRecord.asStored) ?_ ?_ ?_ ?_⟩
    · exact held.mem_sorted q
    · exact held.nodup_sorted q
    · exact held.pairwise_sorted q
    · intro p
      simp [Store.list, held.list_onPage]

/-- Four runs are created, the first and the last at one time; one is of another procedure, and one
is written again. -/
def ledger : List StoreRequest :=
  let run (id name : String) (second : Nat) : RunRecord :=
    .create id name "b" "t" "u" (.ofMicros (second * 1000000))
  [.createRun (run "a" "p" 5), .createRun (run "b" "p" 1), .createRun (run "x" "q" 3),
    .createRun (run "c" "p" 5), .update { run "a" "p" 5 with status := .finished } []]

/-- The runs of one procedure, two on a page. -/
def ledgerQuery : RunQuery := { RunQuery.everything with name := some "p", pageSize := some 2 }

/-- By their times, the one that was created much earlier comes last. -/
theorem matching_ledger : ((StoreRequest.performAll Relational.empty ledger).matching ledgerQuery) =
    [RunRow.ofRecord (.create "c" "p" "b" "t" "u" (.ofMicros 5000000)),
      .ofRecord { RunRecord.create "a" "p" "b" "t" "u" (.ofMicros 5000000) with
        status := .finished },
      .ofRecord (.create "b" "p" "b" "t" "u" (.ofMicros 1000000))] := by
  have sort (a b c : RunRow) (less : b.createdAt < a.createdAt) (same : a.createdAt = c.createdAt) :
      ([c, b, a].mergeSort fun a b => decide (b.createdAt ≤ a.createdAt)) = [c, a, b] := by
    have not_le : ¬ a.createdAt ≤ b.createdAt := String.not_le.2 less
    have le : b.createdAt ≤ a.createdAt := String.not_lt.1 (String.lt_asymm less)
    simp [List.mergeSort, List.MergeSort.Internal.splitInTwo, ← same, not_le, le]
  apply sort
  · decide +kernel
  · decide +kernel

theorem ledger_paged :
    let m := StoreRequest.performAll Memory.empty ledger
    let t := StoreRequest.performAll Relational.empty ledger
    ledgerQuery.Paged ∧ m.Reachable ∧ t.Reachable ∧
    (∃ runs page, Store.Pages m ledgerQuery m.WrittenAfter runs page ∧ runs.length = 3 ∧
      (page 1).map RunRecord.id = ["c", "b"] ∧ (page 2).map RunRecord.id = ["a"] ∧ page 3 = []) ∧
    ∃ runs page, Store.Pages t ledgerQuery t.Newer runs page ∧ runs.length = 3 ∧
      (page 1).map RunRecord.id = ["c", "a"] ∧ (page 2).map RunRecord.id = ["b"] ∧ page 3 = [] := by
  intro m t
  have paged := RunQuery.paged ledgerQuery
  have inMemory : m.Reachable := Memory.Reachable.empty.performAll ledger
  have inTables : t.Reachable := Relational.Reachable.empty.performAll (by decide +kernel)
  -- the memory lists the latest write first, and the tables the latest creation
  refine ⟨paged, inMemory, inTables, ?_, ?_⟩
  · obtain ⟨runs, page, pages⟩ := paged.memory m inMemory
    obtain ⟨first, length⟩ := pages.read 1 ["c", "b"] 3 (by decide +kernel)
    obtain ⟨second, -⟩ := pages.read 2 ["a"] 3 (by decide +kernel)
    refine ⟨runs, page, pages, length, first, second, pages.past 3 ?_⟩
    rw [length]
    decide
  · obtain ⟨runs, page, pages⟩ := paged.relational t inTables
    have matching (p : UInt32) : t.matching (ledgerQuery.onPage (some p)) = _ := matching_ledger
    have first : ((t.list (ledgerQuery.onPage (some 1))).map fun x =>
        (x.1.map RunRecord.id, x.2)) = .ok (["c", "a"], 3) := by
      rw [Relational.list, matching]
      decide +kernel
    have second : ((t.list (ledgerQuery.onPage (some 2))).map fun x =>
        (x.1.map RunRecord.id, x.2)) = .ok (["b"], 3) := by
      rw [Relational.list, matching]
      decide +kernel
    obtain ⟨first, length⟩ := pages.read 1 _ _ first
    obtain ⟨second, -⟩ := pages.read 2 _ _ second
    refine ⟨runs, page, pages, length, first, second, pages.past 3 ?_⟩
    rw [length]
    decide

end Runbook
