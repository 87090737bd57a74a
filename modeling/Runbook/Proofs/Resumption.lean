import Runbook.Proofs.Sweep

/-!
# Closing orphaned runs again

The store may fail while orphaned runs are closed. What was closed before stays closed, the other
runs are as they were, and closing again closes the rest.

* `Faltering` — a store whose updates fail as it is told in advance.
* `Recovery.Dwindling` — what is needed of a store besides `Recovery.Closable`: a run that is closed
  leaves the list of those that have not ended, which keeps its order.
* `Recovery.Resumes` — what closing runs comes to if it is interrupted and done again, as told by
  the calls of the store.
* `Recovery.resumes_of_reachable` — so it is in every state that either store can come to.
-/

namespace Runbook

/-! ## A store that falters -/

/-- A store with what becomes of the next updates: an error, or what the store says. -/
structure Faltering (σ : Type) where
  /-- the store -/
  store : σ
  /-- the errors of the next updates -/
  ahead : List (Option EngineError)
  deriving DecidableEq, Repr

namespace Faltering

variable {σ α : Type}

/-- Make a call that does not falter. -/
def call (f : σ → Reply σ α) (s : Faltering σ) : Reply (Faltering σ) α :=
  ((f s.store).1, { s with store := (f s.store).2 })

/-- Store a run and visits of it, unless that is to fail. Then the store is as it was. -/
def update [Store σ] (r : RunRecord) (visits : List Visit) (s : Faltering σ) :
    Reply (Faltering σ) Unit :=
  match s.ahead with
  | some e :: ahead => (.error e, { s with ahead })
  | none :: ahead => call (Store.update r visits) { s with ahead }
  | [] => call (Store.update r visits) s

instance [Store σ] : Store (Faltering σ) where
  createRun r := call (Store.createRun r)
  createVisit v := call (Store.createVisit v)
  update := update
  get id := call (Store.get id)
  detail id := call (Store.detail id)
  list q := call (Store.list q)
  unfinished := call Store.unfinished

end Faltering

/-! ## But for the time -/

/-- A visit but for the time of its end. -/
def Visit.timeless (v : Visit) : Visit := { v with endTime := v.endTime.map fun _ => .epoch }

/-- A run but for the times of its last write and of the ends of its visits. -/
def RunDetail.timeless (d : RunDetail) : RunDetail :=
  { d with
    run := { d.run with updatedAt := .epoch }
    visits := d.visits.map Visit.timeless }

/-- It does not matter when a run is closed. -/
theorem Visit.timeless_closeAll (vs : List Visit) (clock clock' : Nat → Instant) (n k : Nat) :
    (closeAll clock n vs).map timeless = (closeAll clock' k vs).map timeless := by
  induction vs generalizing n k with
  | nil => rfl
  | cons v vs ih =>
    have visit : (v.close (clock n)).timeless = (v.close (clock' k)).timeless := by
      rw [Visit.close, Visit.close]
      split <;> rfl
    rw [closeAll, closeAll, List.map_cons, List.map_cons, visit, ih]

theorem RunDetail.timeless_close (d : RunDetail) (clock clock' : Nat → Instant) (n k : Nat) :
    (d.close clock n).timeless = (d.close clock' k).timeless := by
  simp only [close, timeless, Visit.timeless_closeAll d.visits clock clock' n k]

namespace Recovery

variable {σ : Type} [Store σ] {s s₁ : σ} {clock later kept : Nat → Instant} {n n₁ : Nat}
  {run : RunRecord} {done runs : List RunRecord} {d : RunDetail} {Good : σ → Prop}
  {stored : σ → String → Option RunDetail} {ahead : List (Option EngineError)} {e : EngineError}
  {ids : List String}

/-! ## What is needed of a store -/

/-- A run that is closed leaves the list of those that have not ended, which keeps its order. -/
structure Dwindling (clock kept : Nat → Instant) (Good : σ → Prop)
    (stored : σ → String → Option RunDetail) : Prop extends Closable clock kept Good stored where
  /-- the other runs are left -/
  left : ∀ {s s' id d runs} n, Good s → stored s id = some d →
    Store.unfinished s = (.ok runs, s) →
    Store.update (d.close clock n).run (d.close clock n).visits s = (.ok (), s') →
    Store.unfinished s' = (.ok (runs.filter (·.id ≠ id)), s')

omit [Store σ] in
/-- When a run and the ones after it have been closed, so have the ones after it. -/
theorem exists_of_map_cons_eq_ok {id : String} {closed : Reply (σ × Nat) (List String)}
    (h : (closed.1.map (id :: ·), closed.2) = (.ok ids, s₁, n₁)) :
    ∃ ids', closed = (.ok ids', s₁, n₁) ∧ id :: ids' = ids := by
  obtain ⟨answer, after⟩ := closed
  obtain ⟨listed, rfl⟩ := Prod.mk.inj h
  cases answer with
  | error e => cases listed
  | ok ids' => exact ⟨ids', rfl, Except.ok.inj listed⟩

/-- When some runs have been closed, the others are closed from there on. -/
theorem closeAll_append (first : closeAll clock done (s, n) = (.ok ids, s₁, n₁)) :
    closeAll clock (done ++ runs) (s, n) =
      ((closeAll clock runs (s₁, n₁)).1.map (ids ++ ·), (closeAll clock runs (s₁, n₁)).2) := by
  induction done generalizing s n ids with
  | nil =>
    obtain ⟨rfl, rfl, rfl⟩ : [] = ids ∧ s = s₁ ∧ n = n₁ := by simpa [closeAll] using first
    rw [List.nil_append]
    cases closeAll clock runs (s, n) with
    | mk answer after => cases answer <;> rfl
  | cons run done ih =>
    rw [List.cons_append, closeAll]
    rw [closeAll] at first
    split at first
    · cases first
    · next gone => exact ih first
    · next d s' here =>
      split at first
      · cases first
      · next s'' written =>
        obtain ⟨ids', rest, rfl⟩ := exists_of_map_cons_eq_ok first
        simp only [ih rest]
        cases (closeAll clock runs (s₁, n₁)).1 <;> rfl

/-- The first run is closed; then come the others. -/
theorem Closable.closeAll_cons (h : Closable clock kept Good stored) (good : Good s)
    (here : stored s run.id = some d)
    (written : Store.update (d.close clock n).run (d.close clock n).visits s = (.ok (), s₁)) :
    Recovery.closeAll clock (run :: runs) (s, n) =
      ((Recovery.closeAll clock runs (s₁, n + d.readings)).1.map (run.id :: ·),
        (Recovery.closeAll clock runs (s₁, n + d.readings)).2) := by
  simp [Recovery.closeAll, h.detail good, here, written, h.own good here]

/-- A store that does not falter yet does the same. -/
theorem Closable.closeAll_faltering_cons (h : Closable clock kept Good stored) (good : Good s)
    (here : stored s run.id = some d)
    (written : Store.update (d.close clock n).run (d.close clock n).visits s = (.ok (), s₁)) :
    Recovery.closeAll clock (run :: runs) (Faltering.mk s (none :: ahead), n) =
      ((Recovery.closeAll clock runs (Faltering.mk s₁ ahead, n + d.readings)).1.map (run.id :: ·),
        (Recovery.closeAll clock runs (Faltering.mk s₁ ahead, n + d.readings)).2) := by
  simp [Recovery.closeAll, Store.detail, Store.update, Faltering.call, Faltering.update,
    h.detail good, here, written, h.own good here]

/-- When it falters, it keeps the error. -/
theorem Closable.closeAll_faltering_error (h : Closable clock kept Good stored) (good : Good s)
    (here : stored s run.id = some d) :
    Recovery.closeAll clock (run :: runs) (Faltering.mk s (some e :: ahead), n) =
      (.error e, Faltering.mk s ahead, n + d.readings) := by
  simp [Recovery.closeAll, Store.detail, Store.update, Faltering.call, Faltering.update,
    h.detail good, here]

/-! ## Interruptions -/

omit [Store σ] in
/-- Runs stay there while another one is closed. -/
theorem Closable.found_of_update {s₁ : σ}
    (others : ∀ other ≠ run.id, stored s₁ other = stored s other)
    (new : run.id ∉ runs.map RunRecord.id)
    (found : ∀ id ∈ runs.map RunRecord.id, ∃ d, stored s id = some d) :
    ∀ id ∈ runs.map RunRecord.id, ∃ d, stored s₁ id = some d := by
  intro id inside
  have other : id ≠ run.id := fun same => new (same ▸ inside)
  exact others id other ▸ found id inside

/-- When some runs have been closed, the others are left. -/
theorem Dwindling.unfinished_closeAll (h : Dwindling clock kept Good stored) (good : Good s)
    (listed : Store.unfinished s = (.ok (done ++ runs), s))
    (once : ((done ++ runs).map RunRecord.id).Nodup)
    (found : ∀ id ∈ (done ++ runs).map RunRecord.id, ∃ d, stored s id = some d) (n : Nat) :
    Store.unfinished (closeAll clock done (s, n)).2.1 =
      (.ok runs, (closeAll clock done (s, n)).2.1) := by
  induction done generalizing s n with
  | nil => exact listed
  | cons run done ih =>
    rw [List.cons_append, List.map_cons] at once found
    obtain ⟨new, once⟩ := List.nodup_cons.1 once
    obtain ⟨⟨d, here⟩, rest⟩ := List.forall_mem_cons.1 found
    obtain ⟨s₁, written, good₁, closed, others⟩ := h.update n good here
    have left := h.left n good here listed written
    have others' : (done ++ runs).filter (·.id ≠ run.id) = done ++ runs := by
      rw [List.filter_eq_self]
      intro r inside
      have other : r.id ≠ run.id := fun same => new (same ▸ List.mem_map_of_mem inside)
      simpa using other
    rw [List.cons_append, List.filter_cons_of_neg (by simp), others'] at left
    rw [h.closeAll_cons good here written]
    exact ih good₁ left once (Closable.found_of_update others new rest) _

/-- Until it falters, a store does the same as another one. -/
theorem Dwindling.closeAll_faltering (h : Dwindling clock kept Good stored) (good : Good s)
    (once : (done.map RunRecord.id).Nodup)
    (found : ∀ id ∈ done.map RunRecord.id, ∃ d, stored s id = some d)
    (closes : closeAll clock done (s, n) = (.ok ids, s₁, n₁)) :
    closeAll clock done (Faltering.mk s (List.replicate done.length none ++ ahead), n) =
      (.ok ids, Faltering.mk s₁ ahead, n₁) := by
  induction done generalizing s n ids with
  | nil =>
    cases closes
    rfl
  | cons run done ih =>
    obtain ⟨new, once⟩ := List.nodup_cons.1 once
    obtain ⟨⟨d, here⟩, rest⟩ := List.forall_mem_cons.1 found
    obtain ⟨s', written, good', closed, others⟩ := h.update n good here
    rw [h.closeAll_cons good here written] at closes
    obtain ⟨ids', later, rfl⟩ := exists_of_map_cons_eq_ok closes
    rw [List.length_cons, List.replicate_succ, List.cons_append,
      h.closeAll_faltering_cons good here written,
      ih good' once (Closable.found_of_update others new rest) later]
    rfl

/-- When the store falters, closing all runs ends with the error. The runs before are closed then,
and the other ones are left. From there on they would have been closed if it had not faltered. -/
theorem Dwindling.halts {first : RunRecord} (h : Dwindling clock kept Good stored) (good : Good s)
    (listed : Store.unfinished s = (.ok (done ++ first :: runs), s))
    (once : ((done ++ first :: runs).map RunRecord.id).Nodup)
    (found : ∀ id ∈ (done ++ first :: runs).map RunRecord.id, ∃ d, stored s id = some d) (n : Nat)
    (e : EngineError) (ahead : List (Option EngineError)) :
    ∃ s₁ n₁ n₂, Good s₁ ∧ Store.unfinished s₁ = (.ok (first :: runs), s₁) ∧
      closeAll clock done (s, n) = (.ok (done.map RunRecord.id), s₁, n₁) ∧
      sweep clock (Faltering.mk s (List.replicate done.length none ++ some e :: ahead), n) =
        (.error e, Faltering.mk s₁ ahead, n₂) ∧
      ∃ index : String → Nat, ∀ id, stored s₁ id = if id ∈ done.map RunRecord.id then
        (stored s id).map (RunDetail.close kept (index id)) else stored s id := by
  -- the sweep over those before the failing one is a sweep of its own
  have left := h.unfinished_closeAll good listed once found n
  rw [List.map_append] at once found
  obtain ⟨onceDone, -, apart⟩ := List.nodup_append.1 once
  obtain ⟨foundDone, foundRest⟩ := List.forall_mem_append.1 found
  obtain ⟨s₁, n₁, index, closes, good₁, all⟩ := h.closeAll good n onceDone foundDone
  rw [closes] at left
  have here : ∃ d, stored s₁ first.id = some d := by
    rw [all, if_neg fun before => apart _ before _ List.mem_cons_self rfl]
    exact foundRest _ List.mem_cons_self
  obtain ⟨d, here⟩ := here
  refine ⟨s₁, n₁, n₁ + d.readings, good₁, left, closes, ?_, index, all⟩
  have listed' : Store.unfinished (Faltering.mk s
      (List.replicate done.length none ++ some e :: ahead)) = (.ok (done ++ first :: runs),
        Faltering.mk s (List.replicate done.length none ++ some e :: ahead)) := by
    simp [Store.unfinished, Faltering.call, listed]
  rw [sweep, listed']
  dsimp only
  rw [closeAll_append (h.closeAll_faltering good onceDone foundDone closes),
    h.closeAll_faltering_error good₁ here]
  rfl

/-- What closing all runs comes to if the write of the `k`th one fails with the error `e` and it is
done again later. The clock had been read `n` times at first, and `n'` times later. All at once it
would have brought the store from `s` to `full`; so it is brought to `s₁` at first, and to `s₂`
later. -/
structure Resumes (clock later : Nat → Instant) (n n' : Nat) (s full : σ) (runs : List RunRecord)
    (k : Nat) (e : EngineError) (ahead : List (Option EngineError)) (s₁ s₂ : σ) : Prop where
  /-- the answer is the error -/
  fails : ∃ n₁, sweep clock (Faltering.mk s (List.replicate k none ++ some e :: ahead), n) =
    (.error e, Faltering.mk s₁ ahead, n₁)
  /-- the runs before are closed -/
  closed : ∀ id ∈ (runs.take k).map RunRecord.id, (Store.detail id s₁).1 = (Store.detail id full).1
  /-- and all others are as they were -/
  others : ∀ id ∉ (runs.take k).map RunRecord.id, (Store.detail id s₁).1 = (Store.detail id s).1
  /-- later the rest is closed -/
  resumes : ∃ n₂, sweep later (s₁, n') = (.ok ((runs.drop k).map RunRecord.id), s₂, n₂)
  /-- and then everything is as it would have been, but for the time -/
  same : ∀ id, ((Store.detail id s₂).1).map (Option.map RunDetail.timeless) =
    ((Store.detail id full).1).map (Option.map RunDetail.timeless)

/-- Wherever closing all runs is interrupted, it can be resumed. -/
theorem Dwindling.resumes {kept' : Nat → Instant} (h : Dwindling clock kept Good stored)
    (h' : Dwindling later kept' Good stored) (good : Good s) (n n' : Nat) :
    ∃ runs full, Sweeps clock n s full runs ∧ ∀ k < runs.length, ∀ e ahead,
      ∃ s₁ s₂, Resumes clock later n n' s full runs k e ahead s₁ s₂ := by
  obtain ⟨runs, full, sweeps⟩ := h.sweeps good n
  refine ⟨runs, full, sweeps, ?_⟩
  intro k inside e ahead
  have once := sweeps.once
  have found : ∀ id ∈ runs.map RunRecord.id, ∃ d, stored s id = some d := by
    intro id listed
    obtain ⟨d, -, read, -⟩ := sweeps.orphans id listed
    rw [h.detail good] at read
    exact ⟨d, Except.ok.inj (Prod.ext_iff.1 read).1⟩
  -- the `k`th run comes after those that are closed, and before those that are not reached
  obtain ⟨done, first, rest, rfl, rfl⟩ : ∃ done first rest, runs = done ++ first :: rest ∧
      done.length = k := by
    refine ⟨runs.take k, runs[k], runs.drop (k + 1), ?_, List.length_take_of_le inside.le⟩
    rw [← List.drop_eq_getElem_cons inside, List.take_append_drop]
  obtain ⟨s₁, n₁, n₂, good₁, left, closesDone, fails, index₁, all₁⟩ :=
    h.halts good sweeps.listed once found n e ahead
  rw [List.map_append] at once found
  obtain ⟨-, onceRest, apart⟩ := List.nodup_append.1 once
  have stays {id : String} (inside : id ∈ (first :: rest).map RunRecord.id) :
      stored s₁ id = stored s id := by
    rw [all₁, if_neg fun before => apart id before id inside rfl]
  have foundRest : ∀ id ∈ (first :: rest).map RunRecord.id, ∃ d, stored s₁ id = some d :=
    fun id inside => stays inside ▸ found id (List.mem_append_right _ inside)
  -- without the error the others would have been closed at once
  obtain ⟨full', m, index, closesRest, goodFull, allFull⟩ := h.closeAll good₁ n₁ onceRest foundRest
  obtain rfl : full = full' := by
    obtain ⟨m', closed⟩ := sweeps.closes
    rw [sweep, sweeps.listed] at closed
    dsimp only at closed
    rw [closeAll_append closesDone, closesRest] at closed
    exact (Prod.ext_iff.1 (Prod.ext_iff.1 closed).2).1.symm
  obtain ⟨s₂, m₂, index₂, closes₂, good₂, all₂⟩ := h'.closeAll good₁ n' onceRest foundRest
  refine ⟨s₁, s₂, ⟨n₂, fails⟩, ?_, ?_, ⟨m₂, ?_⟩, ?_⟩
  case refine_1 =>
    intro id inside
    rw [List.take_left] at inside
    rw [h.detail good₁, h.detail goodFull, allFull,
      if_neg fun after => apart id inside id after rfl]
  case refine_2 =>
    intro id outside
    rw [List.take_left] at outside
    rw [h.detail good₁, h.detail good, all₁, if_neg outside]
  case refine_3 =>
    rw [List.drop_left, sweep, left]
    exact closes₂
  case refine_4 =>
    intro id
    rw [h.detail good₂, h.detail goodFull, all₂, allFull]
    by_cases after : id ∈ (first :: rest).map RunRecord.id
    · rw [if_pos after, if_pos after]
      simp [Except.map, Function.comp_def,
        RunDetail.timeless_close _ kept' kept (index₂ id) (index id)]
    · rw [if_neg after, if_neg after]

end Recovery

/-! ## The two stores -/

/-- What is not kept when it is replaced is left out. -/
theorem filter_map_replace {α : Type} {key : α → String} {k : String} {keep : α → Bool} {f : α → α}
    (drops : ∀ a, keep (f a) = false) (l : List α) :
    (l.map fun a => if key a = k then f a else a).filter keep =
      (l.filter keep).filter (key · ≠ k) := by
  induction l with
  | nil => rfl
  | cons a l ih =>
    rw [List.map_cons]
    by_cases same : key a = k
    · rw [if_pos same, List.filter_cons_of_neg (by simp [drops]), ih]
      cases kept : keep a with
      | true => rw [List.filter_cons_of_pos kept, List.filter_cons_of_neg (by simp [same])]
      | false => rw [List.filter_cons_of_neg (by simp [kept])]
    · rw [if_neg same]
      cases kept : keep a with
      | true =>
        rw [List.filter_cons_of_pos kept, List.filter_cons_of_pos kept,
          List.filter_cons_of_pos (by simpa using same), ih]
      | false =>
        rw [List.filter_cons_of_neg (by simp [kept]), List.filter_cons_of_neg (by simp [kept]), ih]

namespace Memory

variable {m : Memory} {id : String} {clock : Nat → Instant} {n : Nat} {d : RunDetail}

/-- A run that is closed leaves the list. -/
theorem unfinished_update_close (writable : m.readOnly = false) (found : m.detail id = some d)
    (vs : List Visit) : (m.update (d.close clock n).run vs).2.unfinished =
      m.unfinished.filter (·.id ≠ id) := by
  have own : (d.close clock n).run.id = id := id_of_detail (d := d) found
  have known : (m.find? (d.close clock n).run.id).isSome = true := by
    rw [own, (detail_eq_some.1 found).2]
    rfl
  rw [update, if_neg (by simp [writable]), if_pos known]
  simp only [unfinished, modify, own]
  rw [← filter_map_replace (f := fun _ => (d.close clock n).run) (fun _ => rfl), List.map_map,
    List.map_map]
  congr 2
  funext e
  simp only [Function.comp_apply]
  split <;> rfl

theorem dwindling (clock : Nat → Instant) :
    Recovery.Dwindling clock clock (fun m : Memory => m.Sound ∧ m.readOnly = false)
      fun m id => m.detail id where
  toClosable := closable clock
  left := by
    rintro m m' id d runs n ⟨sound, writable⟩ found listed written
    obtain rfl : runs = m.unfinished := (Except.ok.inj (Prod.ext_iff.1 listed).1).symm
    obtain rfl : (m.update (d.close clock n).run (d.close clock n).visits).2 = m' :=
      (Prod.ext_iff.1 written).2
    exact Prod.ext (congrArg Except.ok (unfinished_update_close writable found _)) rfl

end Memory

namespace Relational

/-- In a sorted list what comes before an element is what is less. -/
theorem filter_of_pairwise {α : Type} {le : α → α → Bool} {a : α} {xs ys : List α}
    (less : ∀ b ∈ xs, (!le a b) = true)
    (above : (xs ++ a :: ys).Pairwise fun a b => le a b = true) :
    (xs ++ ys).filter (fun b => !le a b) = xs ∧ (xs ++ ys).filter (le a) = ys := by
  have more : ∀ b ∈ ys, le a b = true :=
    (List.pairwise_cons.1 (List.pairwise_append.1 above).2.1).1
  rw [List.filter_append, List.filter_append, List.filter_eq_self.2 less,
    List.filter_eq_self.2 more, List.filter_eq_nil_iff.2, List.filter_eq_nil_iff.2]
  · exact ⟨List.append_nil _, rfl⟩
  · exact fun b inside => by simpa using less b inside
  · exact fun b inside => by simpa using more b inside

/-- Sorting and filtering can be done in any order. -/
theorem filter_mergeSort_of_total {α : Type} {le : α → α → Bool}
    (trans : ∀ a b c, le a b = true → le b c = true → le a c = true)
    (total : ∀ a b, (le a b || le b a) = true) (keep : α → Bool) (l : List α) :
    (l.mergeSort le).filter keep = (l.filter keep).mergeSort le := by
  induction l with
  | nil => simp
  | cons a l ih =>
    obtain ⟨before, after, sorted, rest, less⟩ := List.mergeSort_cons trans total a l
    have above := List.pairwise_mergeSort trans total (a :: l)
    rw [sorted] at above ⊢
    rw [rest] at ih
    by_cases kept : keep a = true
    · obtain ⟨before', after', sorted', rest', less'⟩ :=
        List.mergeSort_cons trans total a (l.filter keep)
      have above' := List.pairwise_mergeSort trans total (a :: l.filter keep)
      rw [sorted'] at above'
      rw [List.filter_cons_of_pos kept, sorted', List.filter_append, List.filter_cons_of_pos kept]
      rw [rest', List.filter_append] at ih
      -- both ways the same comes before the first element, and the same after it
      have first := filter_of_pairwise less' above'
      have kept' := above.filter keep
      rw [List.filter_append, List.filter_cons_of_pos kept] at kept'
      have second :=
        filter_of_pairwise (fun b inside => less b (List.mem_of_mem_filter inside)) kept'
      rw [← ih] at first
      rw [← first.1, ← first.2, second.1, second.2]
    · rw [List.filter_cons_of_neg kept, ← ih, List.filter_append, List.filter_append,
        List.filter_cons_of_neg kept]

variable {t : Relational} {rs : List RunRecord} {vs : List Visit} {now : Instant} {r : RunRecord}

/-- A run that is closed is not among those of another status. -/
theorem filter_upsert_close (known : r ∈ rs) (now : Instant) {status : Status}
    (other : status ≠ .error) :
    (RunRecord.upsert rs (closeRun now r)).filter (·.status == status) =
      (rs.filter (·.status == status)).filter (·.id ≠ r.id) := by
  have own : (closeRun now r).id ∈ rs.map RunRecord.id := by
    change r.id ∈ _
    exact List.mem_map_of_mem known
  rw [RunRecord.upsert, upsert, if_pos own]
  apply filter_map_replace
  intro b
  have closed : (b.overwrite (closeRun now r)).status = .error := rfl
  rw [closed]
  exact beq_false_of_ne other.symm

theorem createdAt_trans (a b c : RunRecord) :
    decide (a.createdAt.printMicros ≤ b.createdAt.printMicros) = true →
      decide (b.createdAt.printMicros ≤ c.createdAt.printMicros) = true →
        decide (a.createdAt.printMicros ≤ c.createdAt.printMicros) = true := by
  simpa using fun first second => String.le_trans first second

theorem createdAt_total (a b : RunRecord) :
    (decide (a.createdAt.printMicros ≤ b.createdAt.printMicros) ||
      decide (b.createdAt.printMicros ≤ a.createdAt.printMicros)) = true := by
  simpa using String.le_total _ _

theorem dwindling {clock : Nat → Instant} (times : ∀ n, (clock n).FourDigits) :
    Recovery.Dwindling clock (fun n => (clock n).asStored)
      (fun t : Relational => ∃ rs vs, t.Held rs vs) stored where
  toClosable := closable times
  left := by
    rintro t t' id d runs n ⟨rs, vs, held⟩ found listed written
    obtain ⟨r, known, rfl, rfl⟩ := held.stored_eq_some.1 found
    obtain ⟨index, closed⟩ := closeAll_eq_map (held.nodup_read r.id) n
    obtain ⟨t'', written', held'⟩ := held.update_close known (times _) fun id => times (index id)
    rw [← closed] at written'
    obtain rfl : t'' = t' := (Prod.ext_iff.1 (written'.symm.trans written)).2
    have before : (holding rs vs).unfinished = _ := unfinished_holding held.runTimes
    have after : (holding _ (closeVisits r.id (fun id => clock (index id)) vs)).unfinished = _ :=
      unfinished_holding held'.runTimes
    rw [← held.tables] at before
    rw [← held'.tables, filter_upsert_close known _ (by decide),
      filter_upsert_close known _ (by decide), ← List.filter_append,
      ← filter_mergeSort_of_total createdAt_trans createdAt_total] at after
    obtain rfl : runs = _ :=
      Except.ok.inj ((Prod.ext_iff.1 listed).1.symm.trans before)
    rw [List.filter_map]
    exact Prod.ext after rfl

end Relational

namespace Recovery

/-- Wherever closing all orphaned runs is interrupted by an update that fails, the call ends with
that error, and it can be repeated: in the store in memory and in the relational store. The store in
memory fails by itself if it cannot be written to. -/
theorem resumes_of_reachable (clock later : Nat → Instant) (n n' : Nat) :
    (∀ m : Memory, m.Reachable → m.readOnly = false → ∃ runs full, Sweeps clock n m full runs ∧
      ∀ k < runs.length, ∀ e ahead,
        ∃ m₁ m₂, Resumes clock later n n' m full runs k e ahead m₁ m₂) ∧
    (∀ m : Memory, m.readOnly = true → m.unfinished ≠ [] →
      ∃ n', sweep clock (m, n) = (.error (.storage .readOnly), m, n')) ∧
    ((∀ n, (clock n).FourDigits) → (∀ n, (later n).FourDigits) → ∀ t : Relational, t.Reachable →
      ∃ runs full, Sweeps clock n t full runs ∧ ∀ k < runs.length, ∀ e ahead,
        ∃ t₁ t₂, Resumes clock later n n' t full runs k e ahead t₁ t₂) := by
  refine ⟨?_, ?_, ?_⟩
  · intro m reachable writable
    exact (Memory.dwindling clock).resumes (Memory.dwindling later) ⟨reachable.sound, writable⟩ n n'
  · intro m locked unended
    obtain ⟨first, rest, listed⟩ := List.exists_cons_of_ne_nil unended
    have inside : first ∈ m.entries.map MemoryEntry.run :=
      List.mem_of_mem_filter (listed ▸ List.mem_cons_self : first ∈ m.unfinished)
    obtain ⟨e, stored, rfl⟩ := List.mem_map.1 inside
    have found : (m.find? e.run.id).isSome = true :=
      List.find?_isSome.2 ⟨e, stored, beq_self_eq_true _⟩
    obtain ⟨e', found⟩ := Option.isSome_iff_exists.1 found
    simp [sweep, Store.unfinished, listed, closeAll, Store.detail, Memory.detail, found,
      Store.update, Memory.update, locked]
  · intro times times' t reachable
    exact (Relational.dwindling times).resumes (Relational.dwindling times') reachable.held n n'

/-- Of three runs two have not ended. If the second one cannot be written, the first one stays
closed, and later only the second one is closed. -/
theorem scattered_resumes :
    (∃ full m₁ m₂ runs, runs.map RunRecord.id = ["r", "s"] ∧
      Resumes (fun _ => .epoch) (fun _ => .epoch) 0 0
        (StoreRequest.performAll Memory.empty scattered) full runs 1 (.storage (.injected .update))
        [] m₁ m₂) ∧
    (∃ n, sweep (fun _ => .epoch)
      ({ StoreRequest.performAll Memory.empty scattered with readOnly := true }, 0) =
        (.error (.storage .readOnly),
          { StoreRequest.performAll Memory.empty scattered with readOnly := true }, n)) ∧
    ∃ full t₁ t₂ runs, runs.length = 2 ∧ Resumes (fun _ => .epoch) (fun _ => .epoch) 0 0
      (StoreRequest.performAll Relational.empty scattered) full runs 1
      (.storage (.injected .update)) [] t₁ t₂ := by
  obtain ⟨memory, locked, relational⟩ :=
    resumes_of_reachable (fun _ => .epoch) (fun _ => .epoch) 0 0
  refine ⟨?_, locked _ rfl (by decide +kernel), ?_⟩
  · obtain ⟨runs, full, sweeps, resumes⟩ := memory _ (.performAll .empty scattered) rfl
    have ids : runs.map RunRecord.id = ["r", "s"] := by
      cases sweeps.listed
      rfl
    have length : runs.length = 2 := by
      rw [← List.length_map (f := RunRecord.id), ids]
      rfl
    obtain ⟨m₁, m₂, resumes⟩ := resumes 1 (by omega) _ _
    exact ⟨full, m₁, m₂, runs, ids, resumes⟩
  · have epoch : Instant.epoch.FourDigits := by decide +kernel
    obtain ⟨runs, full, sweeps, resumes⟩ := relational (fun _ => epoch) (fun _ => epoch)
      (StoreRequest.performAll Relational.empty scattered) (.performAll .empty (by decide +kernel))
    -- the tables hold the rows in another order than they came, so their sweep is counted and not
    -- named
    have tables : StoreRequest.performAll Relational.empty scattered = Relational.holding
        (scattered.flatMap StoreRequest.runs) (scattered.flatMap StoreRequest.visits) := by
      decide +kernel
    have listed : (StoreRequest.performAll Relational.empty scattered).unfinished = .ok runs :=
      (Prod.ext_iff.1 sweeps.listed).1
    rw [tables, Relational.unfinished_holding (by decide +kernel)] at listed
    have length : runs.length = 2 := by
      rw [← Except.ok.inj listed, List.length_map, List.length_mergeSort]
      decide +kernel
    obtain ⟨t₁, t₂, resumes⟩ := resumes 1 (by omega) _ _
    exact ⟨full, t₁, t₂, runs, length, resumes⟩

end Recovery

end Runbook
