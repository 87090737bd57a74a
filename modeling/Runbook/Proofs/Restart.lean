import Runbook.Proofs.Durability
import Runbook.Proofs.Inspection
import Runbook.Recovery

/-!
# What a restart finds

The process of a run may end at any time, and another one closes the run then. Here is what the
store in memory has of such a run, if every write so far has worked.

* `Recovery.detail_sweep` — closing orphaned runs fails the visits that have not ended, and
  leaves the other ones.
* `Trace.Remains` — what is stored of a run, told by its last write.
* `Run.remains_of_start` — so it is after every part of every run. A visit is created before its
  predecessor is written as ended: between these two writes there are two visits that have not
  ended, and both of them are failed.
-/

namespace Runbook

open Program

/-! ## Closing orphaned runs -/

namespace Visit

/-- A visit that has ended is left. -/
theorem close_of_not_isActive {v : Visit} {now : Instant} (h : v.isActive = false) :
    v.close now = v := if_neg (by simp [h])

theorem close_of_isActive {v : Visit} {now : Instant} (h : v.isActive = true) :
    v.close now = v.fail orphaned now := if_pos h

theorem not_isActive_close (v : Visit) (now : Instant) : (v.close now).isActive = false := by
  cases active : v.isActive with
  | true => simp [close_of_isActive active, fail, isActive, Status.isTerminal]
  | false => rw [close_of_not_isActive active, active]

@[simp] theorem id_close (v : Visit) (now : Instant) : (v.close now).id = v.id := by
  rw [close]
  split <;> rfl

variable {clock : Nat → Instant} {n : Nat} {vs : List Visit}

@[simp] theorem ids_closeAll (clock : Nat → Instant) (n : Nat) (vs : List Visit) :
    (closeAll clock n vs).map id = vs.map id := by
  induction vs generalizing n with
  | nil => rfl
  | cons v vs ih => rw [closeAll, List.map_cons, List.map_cons, id_close, ih]

/-- Visits that have all ended are left. -/
theorem closeAll_eq_self (ended : ∀ v ∈ vs, v.isActive = false) : closeAll clock n vs = vs := by
  induction vs generalizing n with
  | nil => rfl
  | cons v vs ih =>
    obtain ⟨here, rest⟩ := List.forall_mem_cons.1 ended
    rw [closeAll, close_of_not_isActive here, ih rest]

/-- And then they have. -/
theorem not_isActive_of_mem_closeAll : ∀ v ∈ closeAll clock n vs, v.isActive = false := by
  induction vs generalizing n with
  | nil => simp [closeAll]
  | cons v vs ih => exact List.forall_mem_cons.2 ⟨not_isActive_close .., ih⟩

end Visit

namespace RunDetail

variable {clock : Nat → Instant} {n : Nat}

@[simp] theorem ids_close (d : RunDetail) (clock : Nat → Instant) (n : Nat) :
    (d.close clock n).visits.map Visit.id = d.visits.map Visit.id := Visit.ids_closeAll ..

/-- If a run is closed again, only the time of its last write is another one. -/
theorem visits_close_close (d : RunDetail) (k : Nat) :
    ((d.close clock n).close clock k).visits = (d.close clock n).visits :=
  Visit.closeAll_eq_self Visit.not_isActive_of_mem_closeAll

end RunDetail

namespace Memory

variable {m : Memory} {r : RunRecord} {vs : List Visit} {id run : String} {d : RunDetail}

/-- A change of one run leaves the other ones. -/
theorem find?_modify_of_ne {f : MemoryEntry → MemoryEntry} (m : Memory) (other : run ≠ id)
    (keeps : ∀ e, e.run.id = run → (f e).run.id = run) :
    (m.modify run f).find? id = m.find? id := by
  rw [find?, modify, find?]
  induction m.entries with
  | nil => rfl
  | cons e entries ih =>
    by_cases same : e.run.id = run
    · simp [same, keeps e same, other, ih]
    · by_cases here : e.run.id = id
      · simp [here, other.symm]
      · simpa [same, here] using ih

theorem detail_update_of_ne (vs : List Visit) (other : r.id ≠ id) :
    (m.update r vs).2.detail id = m.detail id := by
  rw [update]
  split
  · rfl
  · have added : ({ m with entries := m.entries ++ [⟨r, []⟩] } : Memory).find? id = m.find? id := by
      simp [find?, other]
    have changed (m' : Memory) :=
      find?_modify_of_ne (f := fun e => ⟨r, vs.foldl upsertVisit e.visits⟩) m' other fun _ _ => rfl
    dsimp only
    split
    · exact congrArg (Option.map _) (changed m)
    · exact congrArg (Option.map _) ((changed _).trans added)

theorem update_of_writable (r : RunRecord) (vs : List Visit) (writable : m.readOnly = false) :
    (m.update r vs).1 = .ok () ∧ (m.update r vs).2.readOnly = false := by
  rw [update, if_neg (by simp [writable])]
  refine ⟨rfl, ?_⟩
  dsimp only
  split <;> exact writable

/-- A run is found under its own ID. -/
theorem id_of_detail (found : m.detail id = some d) : d.run.id = id := by
  have := List.find?_some (detail_eq_some.1 found).2
  simpa using this

/-- A stored run that has not ended is listed as such. -/
theorem mem_unfinished (found : m.detail id = some d) (orphan : d.run.status.isTerminal = false) :
    id ∈ m.unfinished.map RunRecord.id := by
  have entry := List.mem_of_find?_eq_some (detail_eq_some.1 found).2
  refine List.mem_map.2 ⟨d.run, List.mem_filter.2 ⟨?_, by simp [orphan]⟩, id_of_detail found⟩
  exact List.mem_map_of_mem entry

end Memory

namespace Recovery

variable {m : Memory} {d : RunDetail} {run : String} {clock : Nat → Instant} {n : Nat}
  {first : RunRecord} {runs : List RunRecord}

/-- A run that is no longer stored is passed over. -/
theorem closeAll_of_none (gone : m.detail first.id = none) :
    closeAll clock (first :: runs) (m, n) = closeAll clock runs (m, n) := by
  simp [closeAll, Store.detail, gone]

/-- A stored one is written as closed. -/
theorem closeAll_of_some (writable : m.readOnly = false) (found : m.detail first.id = some d) :
    closeAll clock (first :: runs) (m, n) =
      ((closeAll clock runs ((m.update (d.close clock n).run (d.close clock n).visits).2,
          n + d.readings)).1.map (d.run.id :: ·),
        (closeAll clock runs ((m.update (d.close clock n).run (d.close clock n).visits).2,
          n + d.readings)).2) := by
  have updated : Store.update (d.close clock n).run (d.close clock n).visits m =
      (.ok (), (m.update (d.close clock n).run (d.close clock n).visits).2) :=
    Prod.ext (Memory.update_of_writable _ _ writable).1 rfl
  simp [closeAll, Store.detail, found, updated]

/-- Such a write replaces what was stored of the run. -/
theorem detail_update_close (writable : m.readOnly = false) (found : m.detail run = some d)
    (distinct : (d.visits.map Visit.id).Nodup) :
    (m.update (d.close clock n).run (d.close clock n).visits).2.detail run =
      some (d.close clock n) := by
  have ids := d.ids_close clock n
  have updated := Memory.detail_update (r := (d.close clock n).run)
    (by rwa [← Memory.id_of_detail found] at found)
    (Memory.update_of_writable (d.close clock n).run (d.close clock n).visits writable).1
  rw [Memory.foldl_upsertVisit_eq (ids ▸ distinct) (ids ▸ List.prefix_refl _)] at updated
  have names : (d.close clock n).nodeNames = [] := (Memory.detail_eq_some.1 found).1
  rw [← names] at updated
  rw [← Memory.id_of_detail found]
  exact updated

/-- Closing runs one after the other closes the run if it is among them, and leaves it if it is
not. It may be among them more than once; then only the time of its last write is a later one. -/
theorem detail_closeAll (clock : Nat → Instant) (n : Nat) (runs : List RunRecord)
    (writable : m.readOnly = false) (found : m.detail run = some d)
    (distinct : (d.visits.map Visit.id).Nodup) :
    ∃ ids m' n' d', closeAll clock runs (m, n) = (.ok ids, m', n') ∧ m'.detail run = some d' ∧
      if run ∈ runs.map RunRecord.id then ∃ k last, d' = { d.close clock k with
        run := { d.run with status := .error, updatedAt := clock last } } else d' = d := by
  induction runs generalizing m d n with
  | nil => exact ⟨[], m, n, d, rfl, found, by simp⟩
  | cons first runs ih =>
    cases here : m.detail first.id with
    | none =>
      have other : run ≠ first.id := by
        rintro rfl
        simp [here] at found
      rw [closeAll_of_none here]
      simpa [other] using ih n writable found distinct
    | some d₁ =>
      rw [closeAll_of_some writable here]
      have writable' := (Memory.update_of_writable (d₁.close clock n).run
        (d₁.close clock n).visits writable).2
      by_cases same : run = first.id
      · subst same
        obtain rfl := Option.some.inj (here.symm.trans found)
        -- a run listed twice is closed twice, which changes no node any more
        obtain ⟨ids, m', n', d', closed, detail, later⟩ := ih (n + d₁.readings) writable'
          (detail_update_close writable found distinct) (by rwa [d₁.ids_close])
        refine ⟨d₁.run.id :: ids, m', n', d', by rw [closed]; rfl, detail, ?_⟩
        rw [List.map_cons, if_pos List.mem_cons_self]
        split at later
        · obtain ⟨k, last, rfl⟩ := later
          refine ⟨n, last, ?_⟩
          rw [RunDetail.mk.injEq]
          exact ⟨rfl, d₁.visits_close_close k, rfl⟩
        · exact ⟨n, _, later⟩
      · have own : (d₁.close clock n).run.id = first.id := Memory.id_of_detail (d := d₁) here
        have other : (d₁.close clock n).run.id ≠ run := fun clash => same (clash.symm.trans own)
        have kept := (Memory.detail_update_of_ne (d₁.close clock n).visits other).trans found
        obtain ⟨ids, m', n', d', closed, detail, later⟩ :=
          ih (n + d₁.readings) writable' kept distinct
        refine ⟨d₁.run.id :: ids, m', n', d', by rw [closed]; rfl, detail, ?_⟩
        simpa [same] using later

/-- The visits of a run that have not ended fail, and the other ones are left. The run is closed
unless it has ended. -/
theorem detail_sweep (writable : m.readOnly = false) (found : m.detail run = some d)
    (distinct : (d.visits.map Visit.id).Nodup)
    (ended : d.run.status.isTerminal = true → ∀ v ∈ d.visits, v.isActive = false) :
    ∃ ids m' n' k d', sweep clock (m, n) = (.ok ids, m', n') ∧ m'.detail run = some d' ∧
      d'.visits = Visit.closeAll clock k d.visits ∧
      (d.run.status.isTerminal = false → ∃ last, d' = { d.close clock k with
        run := { d.run with status := .error, updatedAt := clock last } }) := by
  obtain ⟨ids, m', n', d', closed, detail, later⟩ :=
    detail_closeAll clock n m.unfinished writable found distinct
  split at later
  · obtain ⟨k, last, rfl⟩ := later
    exact ⟨ids, m', n', k, _, closed, detail, rfl, fun _ => ⟨last, rfl⟩⟩
  · next passed =>
    have terminal : d.run.status.isTerminal = true := by
      simpa using mt (Memory.mem_unfinished found) passed
    subst later
    refine ⟨ids, m', n', n, d', closed, detail, (Visit.closeAll_eq_self (ended terminal)).symm, ?_⟩
    simp [terminal]

end Recovery

/-! ## What a crash leaves -/

namespace Trace

variable {all all' ms ns rest : Trace} {history history' earlier : List Visit} {c : Visit}
  {record : RunRecord} {detail : RunDetail} {policy : WritePolicy} {run : String}

/-- What is stored of a run, of which there was only the `record` before, when the marks `ms` of it
are there. If nothing had cut it off, it would have had the visits `history` in the end, and left
the marks `all`. -/
inductive Remains (record : RunRecord) (history : List Visit) (all ms : Trace) :
    RunDetail → Prop where
  /-- nothing was written -/
  | untouched (last : ms.lastWrite? = none) : Remains record history all ms ⟨record, [], []⟩
  /-- the first visit was created -/
  | created {c : Visit} (last : ms.lastWrite? = some (.asked (.createVisit c) (.ok ())))
    (new : c.status = .initializing) : Remains record history all ms ⟨record, [c], []⟩
  /-- the run was written with its last visit at work; the earlier ones have ended -/
  | atWork {r : RunRecord} {front : List Visit} {v : Visit}
    (last : ms.lastWrite? = some (.asked (.update r (front ++ [v])) (.ok ())))
    (status : r.status = .processing) (ended : front <+: history)
    (processing : v.status = .processing) : Remains record history all ms ⟨r, front ++ [v], []⟩
  /-- a later visit was created; the one before it has ended as `w`, but that would have been
  written with the next write -/
  | between {r : RunRecord} {front : List Visit} {v w c : Visit}
    (last : ms.lastWrite? = some (.asked (.createVisit c) (.ok ())))
    (new : c.status = .initializing) (status : r.status = .processing)
    (ended : front ++ [w] <+: history) (same : v.Same w) (processing : v.status = .processing)
    (next : ∃ r' x, .asked (.update r' (front ++ [w, c.processing])) x :: ms <:+ all) :
    Remains record history all ms ⟨r, front ++ [v, c], []⟩
  /-- the run was written as it has ended -/
  | ended {r : RunRecord} {vs : List Visit}
    (last : ms.lastWrite? = some (.asked (.update r vs) (.ok ())))
    (terminal : r.status.isTerminal = true) (ended : vs <+: history) :
    Remains record history all ms ⟨r, vs, []⟩

namespace Remains

/-- Later on there are more visits and marks. -/
theorem mono (h : Remains record history all ms detail) (visits : history <+: history')
    (marks : all <:+ all') : Remains record history' all' ms detail := by
  cases h with
  | untouched last => exact .untouched last
  | created last new => exact .created last new
  | atWork last status ended processing => exact .atWork last status (ended.trans visits) processing
  | between last new status ended same processing next =>
    obtain ⟨r', x, next⟩ := next
    exact .between last new status (ended.trans visits) same processing ⟨r', x, next.trans marks⟩
  | ended last terminal ended => exact .ended last terminal (ended.trans visits)

/-- A run that is stored as ended has no visit that has not ended. -/
theorem not_isActive (h : Remains record history all ms detail)
    (waits : record.status.isTerminal = false) (ended : ∀ v ∈ history, v.isActive = false)
    (terminal : detail.run.status.isTerminal = true) : ∀ v ∈ detail.visits, v.isActive = false := by
  cases h with
  | untouched => simp
  | created => simp [waits] at terminal
  | atWork _ status | between _ _ status => simp [status, Status.isTerminal] at terminal
  | ended _ _ before => exact fun v hv => ended v (before.subset hv)

/-- At most two visits have not ended; that there are two of them is exactly if the last write has
created a visit behind an earlier one. -/
theorem countP_isActive (h : Remains record history all ms detail)
    (ended : ∀ v ∈ history, v.isActive = false) :
    detail.visits.countP Visit.isActive ≤ 2 ∧ (detail.visits.countP Visit.isActive = 2 ↔
      1 < detail.visits.length ∧ ∃ c w, ms.lastWrite? = some (.asked (.createVisit c) w)) := by
  have none {vs : List Visit} (before : vs <+: history) : vs.countP Visit.isActive = 0 :=
    List.countP_eq_zero.2 fun v hv => by simp [ended v (before.subset hv)]
  cases h with
  | untouched => simp
  | created last new => simp [new, Visit.isActive, Status.isTerminal]
  | atWork last _ before processing =>
    simp [last, none before, processing, Visit.isActive, Status.isTerminal]
  | between last new _ before _ processing =>
    have front := none ((List.prefix_append _ _).trans before)
    simp [last, front, new, processing, Visit.isActive, Status.isTerminal]
  | ended last _ before => simp [last, none before]

end Remains

/-- Where a visit is at work, it and the earlier ones are what remains, whether or not its executor
has begun. -/
theorem Listing.remains_update {ids : List String} {r : RunRecord} {v : Visit} {x : Written}
    (h : Listing run ids (.asked (.update r (earlier ++ [v])) x :: ms))
    (fresh : Fresh ⟨record, [], []⟩ (.asked (.update r (earlier ++ [v])) x :: ms))
    (clean : Clean (.asked (.update r (earlier ++ [v])) x :: ms))
    (status : r.status = .processing) (processing : v.status = .processing)
    (last : rest.lastWrite? = some (.asked (.update r (earlier ++ [v])) x))
    (same : rest.kept ⟨record, [], []⟩ =
      kept ⟨record, [], []⟩ (.asked (.update r (earlier ++ [v])) x :: ms)) :
    Remains record earlier all rest (rest.kept ⟨record, [], []⟩) := by
  rw [same, h.kept_update rfl fresh clean]
  cases x with
  | error e => cases (clean_cons.1 clean).1
  | ok => exact .atWork last status (List.prefix_refl _) processing

end Trace

namespace Definition.Chronicle

open Trace

variable {d : Definition} {policy : WritePolicy} {run : String} {trail : List Visit}
  {ms ns rest all : Trace} {c : Visit} {record r : RunRecord} {x : Written}

/-- When the next visit has been created, the one before it is still stored as at work. -/
theorem remains_created (h : d.Chronicle policy run trail ms) (tame : ∀ n ∈ d.nodes, n.Tame)
    (new : c.status = .initializing) (fresh : ms.Fresh ⟨record, [], []⟩) (clean : ms.Clean)
    (next : .asked (.update r (trail.reverse ++ [c.processing])) x ::
      .asked (.createVisit c) (.ok ()) :: ms <:+ all) :
    Remains record trail.reverse all (.asked (.createVisit c) (.ok ()) :: ms)
      (kept ⟨record, [], []⟩ (.asked (.createVisit c) (.ok ()) :: ms)) := by
  cases trail with
  | nil =>
    cases h
    exact .created rfl new
  | cons v trail =>
    obtain ⟨r', front, v', last, stored, status, processing, order, same⟩ :=
      h.kept_last tame (by simp) rfl (h.listing tame) fresh clean
    rw [order, List.append_assoc] at next
    rw [kept, stored, order, List.append_assoc]
    exact .between rfl new status (List.prefix_refl _) same processing ⟨r, x, next⟩

/-- Whichever mark of a node is the last one, this is what remains. -/
theorem remains_episode (h : d.Chronicle policy run trail ms) (tame : ∀ n ∈ d.nodes, n.Tame)
    {n : NodeSpec} (created : n.Creates run c) (episode : Episode policy run trail.reverse c ns)
    (fresh : rest.Fresh ⟨record, [], []⟩) (clean : rest.Clean) (hs : rest <:+ ns ++ ms)
    (before : rest <:+ ms → Remains record trail.reverse ms rest (rest.kept ⟨record, [], []⟩)) :
    Remains record trail.reverse (ns ++ ms) rest (rest.kept ⟨record, [], []⟩) := by
  have earlier (hs : rest <:+ ms) :=
    (before hs).mono (List.prefix_refl _) (List.suffix_append ns ms)
  have new : c.status = .initializing := by
    obtain ⟨id, record, now, -, rfl⟩ := created
    rfl
  have listing := (episode.listing created.parentId (h.listing tame)).of_suffix hs
  -- the first two marks of the node, in turn
  have entered {r : RunRecord} {w x : Written}
      (whole : .asked (.update r (trail.reverse ++ [c.processing])) x ::
        .asked (.createVisit c) w :: ms <:+ ns ++ ms)
      (hs : rest <:+ .asked (.createVisit c) w :: ms) :
      Remains record trail.reverse (ns ++ ms) rest (rest.kept ⟨record, [], []⟩) := by
    rcases List.suffix_cons_iff.1 hs with rfl | hs
    · obtain ⟨worked, clean'⟩ := Trace.clean_cons.1 clean
      cases w with
      | error e => cases worked
      | ok => exact h.remains_created tame new (fresh_cons.1 fresh).2 clean' whole
    · exact earlier hs
  cases episode with
  | lost =>
    rcases List.suffix_cons_iff.1 hs with rfl | hs
    · cases (Trace.clean_cons.1 clean).1
    · exact earlier hs
  | @idle r w x own status =>
    rcases List.suffix_cons_iff.1 hs with rfl | hs
    · exact listing.remains_update fresh clean status rfl rfl rfl
    · exact entered (List.suffix_refl _) hs
  | begun own status =>
    rcases List.suffix_cons_iff.1 hs with rfl | hs
    · exact (listing.of_suffix (List.suffix_cons _ _)).remains_update (fresh_cons.1 fresh).2
        (Trace.clean_cons.1 clean).2 status rfl rfl rfl
    · rcases List.suffix_cons_iff.1 hs with rfl | hs
      · exact listing.remains_update fresh clean status rfl rfl rfl
      · exact entered (List.suffix_cons _ _) hs

/-- Wherever a run is cut off between its first node and its last one, this is what remains. -/
theorem remains (h : d.Chronicle policy run trail ms) (tame : ∀ n ∈ d.nodes, n.Tame)
    (fresh : rest.Fresh ⟨record, [], []⟩) (clean : rest.Clean) (hs : rest <:+ ms) :
    Remains record trail.reverse ms rest (rest.kept ⟨record, [], []⟩) := by
  induction h with
  | start =>
    obtain rfl := List.suffix_nil.1 hs
    exact .untouched rfl
  | @node trail ms ns n c v earlier found created same ended episode ih =>
    refine (earlier.remains_episode tame created episode fresh clean hs ih).mono ?_
      (List.suffix_refl _)
    rw [List.reverse_cons]
    exact List.prefix_append _ _

end Definition.Chronicle

/-- What was entered can be told from the writes. -/
theorem Trace.entered_writes (t : Trace) : t.writes.entered = t.entered := by
  induction t with
  | nil => rfl
  | cons e t ih =>
    cases e with
    | asked r x =>
      cases r with
      | createVisit v => exact congrArg (· ++ [v.id]) ih
      | _ => exact ih
    | _ => exact ih

/-- The store has served every part of a trace. -/
theorem Memory.Serves.of_suffix {run : String} {m₀ m : Memory} {t u : Trace}
    (h : m₀.Serves run u m) (hs : t <:+ u) : ∃ m', m₀.Serves run t m' := by
  induction h with
  | start =>
    obtain rfl := List.suffix_nil.1 hs
    exact ⟨m₀, .start⟩
  | created h ih =>
    rcases List.suffix_cons_iff.1 hs with rfl | hs
    · exact ⟨_, .created h⟩
    · exact ih hs
  | updated h ih =>
    rcases List.suffix_cons_iff.1 hs with rfl | hs
    · exact ⟨_, .updated h⟩
    · exact ih hs
  | failed h failed ih =>
    rcases List.suffix_cons_iff.1 hs with rfl | hs
    · exact ⟨_, .failed h failed⟩
    · exact ih hs
  | unwritten h other ih =>
    rcases List.suffix_cons_iff.1 hs with rfl | hs
    · exact ⟨_, .unwritten h other⟩
    · exact ih hs
  | aside h same ih => exact ih hs

namespace Run

open Trace

variable {r : Run} {d : Definition} {s : Settings} {policy : WritePolicy} {run : String} {ok : Bool}
  {t rest : Trace} {record : RunRecord} {m₀ : Memory}

/-- So it is wherever a run is cut off that has ended in the end. -/
theorem Closed.remains (h : r.Closed d s run ok t) (tame : ∀ n ∈ d.nodes, n.Tame)
    (fresh : rest.Fresh ⟨record, [], []⟩) (clean : rest.Clean) (hs : rest <:+ t.marks) :
    Remains record r.visits t.marks rest (rest.kept ⟨record, [], []⟩) := by
  obtain ⟨ms, close, marks, chronicle, closing, -⟩ := h.order
  have listing := (h.listing tame).of_suffix hs
  rw [marks] at hs ⊢
  have walked (hs : rest <:+ ms) :=
    (chronicle.remains tame fresh clean hs).mono (List.prefix_refl _) (List.suffix_append close ms)
  -- after an update that ends the run the store holds its whole history
  have written {record' : RunRecord} {x : Written} {earlier : Trace}
      (terminal : record'.status.isTerminal = true)
      (last : rest = .asked (.update record' r.visits) x :: earlier) :
      Remains record r.visits (close ++ ms) rest (rest.kept ⟨record, [], []⟩) := by
    subst last
    rw [listing.kept_update rfl fresh clean]
    cases x with
    | error e => cases (clean_cons.1 clean).1
    | ok => exact .ended rfl terminal (List.prefix_refl _)
  cases closing with
  | last =>
    rcases List.suffix_cons_iff.1 hs with last | hs
    · exact written h.terminal last
    · exact walked hs
  | canceled own extra =>
    rcases List.suffix_cons_iff.1 hs with last | hs
    · exact written h.terminal last
    · rcases List.suffix_cons_iff.1 hs with last | hs
      · exact written (by rw [extra]; rfl) last
      · exact walked hs

/-- So it is, too, if the run has broken off. -/
theorem Broken.remains (h : Broken d policy run t) (tame : ∀ n ∈ d.nodes, n.Tame)
    (fresh : rest.Fresh ⟨record, [], []⟩) (clean : rest.Clean) (hs : rest <:+ t.marks) :
    ∃ history, (∀ v ∈ history, v.isActive = false) ∧
      Remains record history t.marks rest (rest.kept ⟨record, [], []⟩) := by
  obtain ⟨trail, ms, ns, n, c, marks, chronicle, -, created, episode⟩ := h.order
  rw [marks] at hs ⊢
  refine ⟨trail.reverse, fun v hv => chronicle.not_isActive v (List.mem_reverse.1 hv), ?_⟩
  exact chronicle.remains_episode tame created episode fresh clean hs
    (chronicle.remains tame fresh clean)

/-- The visits of a run that has ended have ended. -/
theorem Closed.not_isActive (h : r.Closed d s run ok t) : ∀ v ∈ r.visits, v.isActive = false := by
  obtain ⟨ms, close, -, chronicle, -⟩ := h.order
  exact fun v hv => chronicle.not_isActive v (List.mem_reverse.1 hv)

/-- What a restart finds of the run of that ID after the part `t` of its trace `u`, and what it
makes of it. -/
structure Orphaned (run : String) (record : RunRecord) (history : List Visit) (u t : Trace)
    (m : Memory) (detail : RunDetail) : Prop where
  /-- nothing is written while a node is at work -/
  undivided : u.Undivided
  /-- the visits of the run would have ended -/
  ended : ∀ v ∈ history, v.isActive = false
  /-- this is stored -/
  found : m.detail run = some detail
  /-- exactly the visits that were entered, in order -/
  entered : detail.visits.map Visit.id = t.entered
  /-- the last write tells in which state they are -/
  remains : Remains record history u.marks t.marks detail
  /-- at most two have not ended, and two only behind the creation of a later one -/
  atMost : detail.visits.countP Visit.isActive ≤ 2 ∧
    (detail.visits.countP Visit.isActive = 2 ↔ 1 < detail.visits.length ∧
      ∃ c w, t.lastWrite? = some (.asked (.createVisit c) w))
  /-- when orphaned runs are closed, exactly these fail, each at a reading of the clock -/
  closed : ∀ clock n, m.readOnly = false → ∃ ids m' n' k detail',
    Recovery.sweep clock (m, n) = (.ok ids, m', n') ∧ m'.detail run = some detail' ∧
    detail'.visits = Visit.closeAll clock k detail.visits ∧
    (detail.run.status.isTerminal = false → ∃ last, detail' = { detail.close clock k with
      run := { detail.run with status := .error, updatedAt := clock last } })

/-- The process of a run may end after any part of its trace. If every write so far has worked,
exactly the visits that are stored as not ended fail at the restart. There are two of them after a
visit was created behind an earlier one, which is stored as at work although it has ended. -/
theorem remains_of_start (pace : Pace) (before : List SignalCall) (fresh : r.trail = [])
    (tame : ∀ n ∈ r.definition.nodes, n.Tame) (stored : m₀.detail r.id = some ⟨record, [], []⟩)
    (waits : record.status.isTerminal = false) :
    ∀ o u (t : Trace) m, r.start.Ends pace (.calls before) o u → t <:+ u →
      m₀.Serves r.id t m → t.Clean →
      ∃ history detail, (∀ ok r', o = some (ok, r') → history = r'.visits) ∧
        Orphaned r.id record history u t m detail := by
  intro o u t m ends hs serves clean
  have hs' : t.marks <:+ u.marks := hs.filter _
  have regular := ensures_iff.1 (ensures_regular pace before fresh tame) o u ends
  obtain ⟨ids, listing⟩ := regular.listing
  have listing := listing.of_suffix hs'
  obtain ⟨found, freshly⟩ := serves.marks.detail_eq stored listing.own
  have clean := Trace.clean_marks.2 clean
  -- a run that panics has a history too, though none that it returns
  obtain ⟨history, visits, ended, remains⟩ : ∃ history,
      (∀ ok r', o = some (ok, r') → history = r'.visits) ∧ (∀ v ∈ history, v.isActive = false) ∧
      Remains record history u.marks t.marks (t.marks.kept ⟨record, [], []⟩) := by
    have closed := ensures_iff.1 (ensures_closed pace before fresh) o u ends
    rcases o with _ | ⟨ok, r'⟩
    · obtain ⟨history, ended, remains⟩ := closed.1.remains tame freshly clean hs'
      exact ⟨history, by simp, ended, remains⟩
    · exact ⟨r'.visits, by simp, closed.not_isActive, closed.remains tame freshly clean hs'⟩
  obtain ⟨all, once⟩ := Trace.keptIds_of_clean rfl listing.lists freshly clean
  refine ⟨history, _, visits, regular.undivided, ended, found, all.trans t.entered_marks, remains,
    ?_, fun clock n writable => ?_⟩
  · rw [← t.lastWrite?_marks]
    exact remains.countP_isActive ended
  · rw [← all] at once
    exact Recovery.detail_sweep writable found once (remains.not_isActive waits ended)

/-- If its process ends when the second visit has just been created, both visits fail, although the
first one is finished. -/
theorem pair_remains : ∃ r' u, ∃ t : Trace, ∃ m : Memory, ∃ record v c w,
    (pair .strict).start.Ends .prompt (.calls []) (some (true, r')) u ∧ u.Clean ∧ t <:+ u ∧
    m.detail (pair .strict).id = some ⟨record, [v, c], []⟩ ∧ v.Same w ∧ w ∈ r'.visits ∧
    w.status = .finished ∧
    ∀ clock n, ∃ ids m' n' k d', Recovery.sweep clock (m, n) = (.ok ids, m', n') ∧
      m'.detail (pair .strict).id = some d' ∧
      d'.visits = [v.fail orphaned (clock k), c.fail orphaned (clock (k + 1))] := by
  obtain ⟨r', later, c₂, r₁, vs, c₁, ended, finished, noted⟩ : ∃ r' later c₂ r₁ vs c₁,
      (Host.execute (pair .strict) []).1 = .ended (true, r') ∧
      (∀ w ∈ r'.visits, w.status = .finished) ∧
      (Host.execute (pair .strict) []).2.noted = later ++ [.asked (.createVisit c₂) (.ok ()),
        .asked (.update r₁ vs) (.ok ()), .asked (.createVisit c₁) (.ok ())] :=
    ⟨_, [_, _], _, _, _, _, rfl, by decide +kernel, rfl⟩
  obtain ⟨u, ends, serves, writes⟩ := Host.ends_execute ended
  have clean : u.Clean := by
    rw [← Trace.clean_writes, writes]
    decide +kernel
  obtain ⟨after, t, rfl, -, cut⟩ := List.filter_eq_append_iff.1 (writes.trans noted)
  have hs : t <:+ after ++ t := List.suffix_append _ _
  obtain ⟨m, serves⟩ := serves.of_suffix hs
  -- the next process can write
  have serves : Memory.Serves _ _ t { m with readOnly := false } := serves.aside rfl
  obtain ⟨history, detail, visits, -, -, found, entered, remains, -, sweep⟩ :=
    remains_of_start .prompt [] rfl Definition.pair_tame
      (Host.detail_holding (pair .strict) []) rfl _ _ t _ ends hs serves
      fun e he => clean e (hs.subset he)
  obtain rfl := visits _ _ rfl
  have last : Trace.lastWrite? (Trace.marks t) = some (.asked (.createVisit c₂) (.ok ())) := by
    rw [Trace.lastWrite?_marks, Trace.lastWrite?, ← List.head?_filter, cut]
    rfl
  have two : detail.visits.length = 2 := by
    have ids := congrArg List.length entered
    rw [← Trace.entered_writes, Trace.writes, cut, List.length_map] at ids
    exact ids
  cases remains with
  | untouched last' => cases last.symm.trans last'
  | created => cases two
  | atWork last' => cases last.symm.trans last'
  | ended last' => cases last.symm.trans last'
  | @between record front v w c last' new status before same processing =>
    obtain rfl : front = [] := by simpa using two
    have inside : w ∈ r'.visits := before.subset (List.mem_singleton_self w)
    refine ⟨r', _, t, _, record, v, c, w, ends, clean, hs, found, same, inside, finished w inside,
      fun clock n => ?_⟩
    obtain ⟨ids, m', n', k, d', swept, closed, failed, -⟩ := sweep clock n rfl
    have first : v.isActive = true := by simp [Visit.isActive, processing, Status.isTerminal]
    have second : c.isActive = true := by simp [Visit.isActive, new, Status.isTerminal]
    refine ⟨ids, m', n', k, d', swept, closed, failed.trans ?_⟩
    rw [List.nil_append, Visit.closeAll, Visit.closeAll, Visit.closeAll, if_pos first,
      Visit.close_of_isActive first, Visit.close_of_isActive second]

end Run

end Runbook
