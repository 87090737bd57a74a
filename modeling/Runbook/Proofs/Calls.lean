import Runbook.Proofs.Restart
import Runbook.Proofs.Timestamps
import Runbook.Store.Relational

/-!
# Calls of a store

* `StoreRequest`, `StoreRequest.perform` — the calls of a store as data, and what they are answered.
* `Memory.Reachable`, `Memory.Sound` — the states that the store in memory can come to: no run is
  stored twice, and no visit of a run.
* `Relational.Reachable` — those that the relational store can come to by times it can read.
-/

namespace Runbook

/-- A call of a store. -/
inductive StoreRequest where
  /-- store a new run -/
  | createRun (r : RunRecord)
  /-- store a new visit -/
  | createVisit (v : Visit)
  /-- store a run and visits of it -/
  | update (r : RunRecord) (visits : List Visit)
  /-- read a run -/
  | get (id : String)
  /-- read a run and its visits -/
  | detail (id : String)
  /-- read a page of runs -/
  | list (q : RunQuery)
  /-- read the runs that have not ended -/
  | unfinished
  deriving DecidableEq, Repr

/-- What a call is answered. -/
inductive StoreAnswer where
  /-- it was written -/
  | written
  /-- this run is stored, if any -/
  | run (r : Option RunRecord)
  /-- this run is stored with its visits, if any -/
  | detail (d : Option RunDetail)
  /-- these runs are on the page, of so many -/
  | page (runs : List RunRecord) (total : Nat)
  /-- these runs are stored -/
  | runs (rs : List RunRecord)
  deriving DecidableEq, Repr

/-- Rewrite an answer. -/
def Reply.map {σ α β : Type} (f : α → β) (reply : Reply σ α) : Reply σ β :=
  (reply.1.map f, reply.2)

namespace RunRecord

/-- Every time in the record is one of these. -/
def EveryTime (P : Instant → Prop) (r : RunRecord) : Prop := P r.createdAt ∧ P r.updatedAt

instance (P : Instant → Prop) [DecidablePred P] (r : RunRecord) : Decidable (r.EveryTime P) :=
  inferInstanceAs (Decidable (_ ∧ _))

theorem EveryTime.mono {P Q : Instant → Prop} {r : RunRecord} (h : r.EveryTime P)
    (imp : ∀ t, P t → Q t) : r.EveryTime Q := ⟨imp _ h.1, imp _ h.2⟩

end RunRecord

namespace Visit

/-- Every time in the record is one of these. -/
def EveryTime (P : Instant → Prop) (v : Visit) : Prop := P v.startTime ∧ ∀ t ∈ v.endTime, P t

instance (P : Instant → Prop) [DecidablePred P] (v : Visit) : Decidable (v.EveryTime P) :=
  inferInstanceAs (Decidable (_ ∧ _))

theorem EveryTime.mono {P Q : Instant → Prop} {v : Visit} (h : v.EveryTime P)
    (imp : ∀ t, P t → Q t) : v.EveryTime Q := ⟨imp _ h.1, fun t ht => imp t (h.2 t ht)⟩

end Visit

namespace StoreRequest

/-- Make the call. -/
def perform {σ : Type} [Store σ] (s : σ) : StoreRequest → Reply σ StoreAnswer
  | createRun r => (Store.createRun r s).map fun _ => .written
  | createVisit v => (Store.createVisit v s).map fun _ => .written
  | update r visits => (Store.update r visits s).map fun _ => .written
  | get id => (Store.get id s).map .run
  | detail id => (Store.detail id s).map .detail
  | list q => (Store.list q s).map fun found => .page found.1 found.2
  | unfinished => (Store.unfinished s).map .runs

/-- The state after some calls. -/
def performAll {σ : Type} [Store σ] (s : σ) (requests : List StoreRequest) : σ :=
  requests.foldl (fun s q => (q.perform s).2) s

/-- The runs that the call writes. -/
def runs : StoreRequest → List RunRecord
  | createRun r | update r _ => [r]
  | _ => []

/-- The visits that the call writes. -/
def visits : StoreRequest → List Visit
  | createVisit v => [v]
  | update _ visits => visits
  | _ => []

/-- Every time that the call writes is one of these. -/
structure EveryTime (P : Instant → Prop) (q : StoreRequest) : Prop where
  /-- in runs -/
  runs : ∀ r ∈ q.runs, r.EveryTime P
  /-- in visits -/
  visits : ∀ v ∈ q.visits, v.EveryTime P

instance (P : Instant → Prop) [DecidablePred P] (q : StoreRequest) : Decidable (q.EveryTime P) :=
  decidable_of_iff ((∀ r ∈ q.runs, r.EveryTime P) ∧ ∀ v ∈ q.visits, v.EveryTime P)
    ⟨fun h => ⟨h.1, h.2⟩, fun h => ⟨h.1, h.2⟩⟩

end StoreRequest

/-- In a list without repetitions of a key, each member is found by it. -/
theorem find?_key_eq_some {α κ : Type} [DecidableEq κ] {key : α → κ} {l : List α} {a : α}
    (distinct : (l.map key).Nodup) (h : a ∈ l) : l.find? (key · == key a) = some a := by
  induction l with
  | nil => cases h
  | cons b l ih =>
    rw [List.map_cons, List.nodup_cons] at distinct
    rcases List.mem_cons.1 h with rfl | h
    · simp
    · have other : key b ≠ key a := fun same => distinct.1 (same ▸ List.mem_map_of_mem h)
      rw [List.find?_cons_of_neg (by simpa using other), ih distinct.2 h]

namespace Memory

variable {m : Memory} {e : MemoryEntry} {r : RunRecord} {v : Visit} {s vs : List Visit}

/-! ## The store in memory -/

/-- The states of the store in memory. -/
inductive Reachable : Memory → Prop where
  /-- at first, nothing is stored -/
  | empty : Reachable empty
  /-- a call is made -/
  | call {m : Memory} (q : StoreRequest) (h : Reachable m) : Reachable (q.perform m).2
  /-- writes are switched on or off -/
  | switched {m : Memory} (readOnly : Bool) (h : Reachable m) : Reachable { m with readOnly }

/-- Nothing is stored twice. -/
structure Sound (m : Memory) : Prop where
  /-- no run is -/
  runs : (m.entries.map (·.run.id)).Nodup
  /-- no visit of a run is -/
  visits : ∀ e ∈ m.entries, (e.visits.map Visit.id).Nodup

theorem Sound.modify (h : m.Sound) {f : MemoryEntry → MemoryEntry} {id : String}
    (keeps : ∀ e, e.run.id = id → (f e).run.id = id)
    (visits : ∀ e ∈ m.entries, e.run.id = id → ((f e).visits.map Visit.id).Nodup) :
    (m.modify id f).Sound := by
  have ids : (m.modify id f).entries.map (·.run.id) = m.entries.map (·.run.id) := by
    rw [Memory.modify, List.map_map]
    refine List.map_congr_left fun e _ => ?_
    by_cases same : e.run.id = id
    · simp [same, keeps e same]
    · simp [same]
  refine ⟨ids ▸ h.runs, fun e' he' => ?_⟩
  obtain ⟨e, he, rfl⟩ := List.mem_map.1 he'
  split
  · next same => exact visits e he same
  · exact h.visits e he

/-- A run that is not stored can be added. -/
theorem Sound.add (h : m.Sound) (fresh : m.find? r.id = none) :
    Sound { m with entries := m.entries ++ [⟨r, []⟩] } := by
  refine ⟨?_, fun e he => ?_⟩
  · rw [List.map_append]
    have other := List.find?_eq_none.1 fresh
    exact h.runs.append (List.nodup_singleton _) (by simpa using other)
  · rcases List.mem_append.1 he with he | he
    · exact h.visits e he
    · rw [List.mem_singleton.1 he]
      exact List.nodup_nil

theorem Sound.createRun (h : m.Sound) (r : RunRecord) : (m.createRun r).2.Sound := by
  rw [Memory.createRun]
  split
  · exact h
  · next fresh => exact h.add (by simpa using fresh)

theorem Sound.createVisit (h : m.Sound) (v : Visit) : (m.createVisit v).2.Sound := by
  rw [Memory.createVisit]
  split
  · exact h
  · split
    · exact h
    · next e found =>
      split
      · exact h
      · next fresh =>
        refine h.modify (fun _ same => same) fun e' he' same => ?_
        have here : m.find? v.parentId = some e' := same ▸ find?_key_eq_some h.runs he'
        obtain rfl := Option.some.inj (found.symm.trans here)
        rw [List.map_append]
        exact (h.visits e he').append (List.nodup_singleton _) (by simpa using fresh)

theorem Sound.update (h : m.Sound) (r : RunRecord) (vs : List Visit) :
    (m.update r vs).2.Sound := by
  have written {m' : Memory} (h' : m'.Sound) :
      (m'.modify r.id fun e => ⟨r, vs.foldl upsertVisit e.visits⟩).Sound :=
    h'.modify (fun _ _ => rfl) fun e he _ => nodup_ids_foldl_upsertVisit (h'.visits e he)
  rw [Memory.update]
  split
  · exact h
  · dsimp only
    split
    · exact ⟨(written h).runs, (written h).visits⟩
    · next fresh =>
      have added := written (h.add (by simpa using fresh))
      exact ⟨added.runs, added.visits⟩

theorem Reachable.performAll (h : m.Reachable) (requests : List StoreRequest) :
    Reachable (StoreRequest.performAll m requests) := by
  induction requests generalizing m with
  | nil => exact h
  | cons q requests ih => exact ih (.call q h)

theorem Reachable.sound (h : m.Reachable) : m.Sound := by
  induction h with
  | empty => exact ⟨List.nodup_nil, by simp [Memory.empty]⟩
  | call q _ ih =>
    cases q with
    | createRun r => exact ih.createRun r
    | createVisit v => exact ih.createVisit v
    | update r vs => exact ih.update r vs
    | _ => exact ih
  | switched _ _ ih => exact ⟨ih.runs, ih.visits⟩

end Memory

namespace Relational

/-- The states of the relational store, if it is given times with years of four digits. -/
inductive Reachable : Relational → Prop where
  /-- at first, the tables are empty -/
  | empty : Reachable empty
  /-- a call is made -/
  | call {t : Relational} {q : StoreRequest} (times : q.EveryTime Instant.FourDigits)
    (h : Reachable t) : Reachable (q.perform t).2

theorem Reachable.performAll {t : Relational} (h : t.Reachable) {requests : List StoreRequest}
    (times : ∀ q ∈ requests, q.EveryTime Instant.FourDigits) :
    Reachable (StoreRequest.performAll t requests) := by
  induction requests generalizing t with
  | nil => exact h
  | cons q requests ih =>
    obtain ⟨here, rest⟩ := List.forall_mem_cons.1 times
    exact ih (.call here h) rest

end Relational

end Runbook
