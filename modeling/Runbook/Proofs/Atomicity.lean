import Mathlib.Data.List.Induction
import Mathlib.Logic.Relation
import Runbook.Proofs.Paging

/-!
# All or nothing

A write that a store refuses leaves no trace in it, and one that it accepts is stored as a whole.

* `lastBy`, `last_of_mem_foldl_upsert` — of the records that were written with one key the last one
  is found.
* `Statement`, `Transaction` — how the relational store executes a write: one statement after the
  other on a draft of its own, which replaces the tables at the end, or is thrown away as soon as a
  statement is refused.
* `Transacted`, `StoreRequest.transacted` — so nobody else sees anything of a write before its end.
* `Relational.exists_upsertVisits_iff` — which visits are refused.
* `Memory.Holds`, `Relational.HoldsRows`, `Relational.Shows` — a run and some visits are stored, and
  can be read.
* `writes_atomic` — both stores write all or nothing.
-/

namespace Runbook

open Relation

/-! ## The last one wins -/

section

variable {α : Type} {key : α → String} {merge : α → α → α} {l new : List α} {a b : α}
  {k : String}

/-- The last member of a list with that key. -/
def lastBy (key : α → String) (l : List α) (k : String) : Option α :=
  l.reverse.find? (key · == k)

@[simp] theorem lastBy_concat (l : List α) (a : α) (k : String) :
    lastBy key (l ++ [a]) k = if key a = k then some a else lastBy key l k := by
  rw [lastBy, List.reverse_append, List.reverse_singleton, List.singleton_append, List.find?_cons]
  by_cases here : key a = k
  · simp [here]
  · rw [if_neg here, beq_eq_false_iff_ne.2 here, lastBy]

/-- Which one is the last does not depend on what else they are made into. -/
theorem lastBy_map {β : Type} (f : β → α) (l : List β) (k : String) :
    lastBy key (l.map f) k = (lastBy (fun b => key (f b)) l k).map f := by
  rw [lastBy, ← List.map_reverse, List.find?_map]
  rfl

/-- There is a last one wherever there is one. -/
theorem exists_lastBy (h : a ∈ l) : ∃ b, lastBy key l (key a) = some b := by
  refine Option.isSome_iff_exists.1 (List.find?_isSome.2 ⟨a, List.mem_reverse.2 h, ?_⟩)
  exact beq_self_eq_true _

/-- What is stored after a write was written, or took over what was written, or has another key. -/
theorem mem_upsert_cases (h : b ∈ upsert key merge l a) :
    b = a ∨ (∃ c ∈ l, key c = key a ∧ b = merge c a) ∨ b ∈ l ∧ key b ≠ key a := by
  rw [upsert] at h
  split at h
  · obtain ⟨c, hc, rfl⟩ := List.mem_map.1 h
    split
    · next same => exact .inr (.inl ⟨c, hc, same, rfl⟩)
    · next other => exact .inr (.inr ⟨hc, other⟩)
  · next fresh =>
    rcases List.mem_append.1 h with hb | hb
    · exact .inr (.inr ⟨hb, fun same => fresh (same ▸ List.mem_map_of_mem hb)⟩)
    · exact .inl (List.mem_singleton.1 hb)

variable (keeps : ∀ b a, key b = key a → key (merge b a) = key a)

include keeps

/-- After a write the new key is there, and nothing else is new. -/
theorem mem_keys_upsert_iff (l : List α) (a : α) :
    k ∈ (upsert key merge l a).map key ↔ k ∈ l.map key ∨ k = key a := by
  rw [upsert]
  split
  · next known =>
    have keys : (l.map fun b => if key b = key a then merge b a else b).map key = l.map key := by
      rw [List.map_map]
      refine List.map_congr_left fun b _ => ?_
      by_cases same : key b = key a
      · simp [same, keeps b a same]
      · simp [same]
    rw [keys]
    exact ⟨.inl, fun h => h.elim id fun same => same ▸ known⟩
  · simp

/-- So it is after any number of writes. -/
theorem mem_keys_foldl_upsert (l new : List α) : k ∈ (new.foldl (upsert key merge) l).map key ↔
    k ∈ l.map key ∨ k ∈ new.map key := by
  induction new generalizing l with
  | nil => simp
  | cons a new ih =>
    rw [List.foldl_cons, ih, mem_keys_upsert_iff keeps, List.map_cons, List.mem_cons, or_assoc]

/-- What is stored with a key that was written comes from the last record with it. -/
theorem last_of_mem_foldl_upsert {T : α → α → Prop} (written : ∀ a, T a a)
    (merged : ∀ b a, T (merge b a) a) (h : b ∈ new.foldl (upsert key merge) l)
    (listed : key b ∈ new.map key) : ∃ a, lastBy key new (key b) = some a ∧ T b a := by
  induction new using List.reverseRecOn generalizing b with
  | nil => cases listed
  | append_singleton new a ih =>
    rw [List.foldl_append] at h
    rcases mem_upsert_cases h with rfl | ⟨c, -, same, rfl⟩ | ⟨earlier, other⟩
    · exact ⟨b, by simp, written b⟩
    · exact ⟨a, by simp [keeps c a same], merged c a⟩
    · rw [lastBy_concat, if_neg other.symm]
      refine ih earlier ?_
      simpa [other] using listed

end

/-! ## Writes that are refused -/

/-- What is read off an answer is refused if the answer is. -/
theorem Reply.map_eq_error {σ α β : Type} {f : α → β} {reply : Reply σ α} {e : EngineError} :
    (reply.map f).1 = .error e ↔ reply.1 = .error e := by
  obtain ⟨answer, s⟩ := reply
  cases answer <;> simp [Reply.map, Except.map]

/-- A write that is refused has written nothing. -/
theorem Memory.perform_of_error {m : Memory} {q : StoreRequest} {e : EngineError}
    (refused : (q.perform m).1 = .error e) : (q.perform m).2 = m := by
  cases q with
  | createRun r =>
    have refused : (m.createRun r).1 = .error e := Reply.map_eq_error.1 refused
    show (m.createRun r).2 = m
    rw [createRun] at refused ⊢
    split at refused
    · next known => rw [if_pos known]
    · cases refused
  | createVisit v => exact createVisit_of_error (Reply.map_eq_error.1 refused)
  | update r visits => exact update_of_error (Reply.map_eq_error.1 refused)
  | _ => rfl

namespace Relational

variable {t : Relational} {r : RunRecord} {v : Visit} {e : EngineError}

/-- A run that is refused has not been written, -/
theorem createRun_of_error (refused : (t.createRun r).1 = .error e) : (t.createRun r).2 = t := by
  rw [createRun] at refused ⊢
  split at refused
  · next known => rw [if_pos known]
  · cases refused

/-- and neither has a visit: the one statement of each call has been refused, and nothing came
before it. -/
theorem createVisit_of_error (refused : (t.createVisit v).1 = .error e) :
    (t.createVisit v).2 = t := by
  rw [createVisit] at refused ⊢
  split at refused
  · next known => rw [if_pos known]
  · next fresh =>
    rw [if_neg fresh]
    split at refused
    · next orphan => rw [if_pos orphan]
    · cases refused

end Relational

/-- So it is with the tables. -/
theorem StoreRequest.perform_of_error {t : Relational} {q : StoreRequest} {e : EngineError}
    (refused : (q.perform t).1 = .error e) : (q.perform t).2 = t := by
  cases q with
  | createRun r => exact Relational.createRun_of_error (Reply.map_eq_error.1 refused)
  | createVisit v => exact Relational.createVisit_of_error (Reply.map_eq_error.1 refused)
  | update r visits =>
    have refused : (t.update r visits).1 = .error e := Reply.map_eq_error.1 refused
    show (t.update r visits).2 = t
    rw [Relational.update] at refused ⊢
    split at refused
    · cases refused
    · rfl
  | _ => rfl

/-! ## Transactions -/

/-- A statement that writes to the tables. -/
inductive Statement where
  /-- insert a run -/
  | insertRun (r : RunRecord)
  /-- insert a visit -/
  | insertVisit (v : Visit)
  /-- insert a run, or write to its row -/
  | upsertRun (r : RunRecord)
  /-- insert a visit, or write to its row -/
  | upsertVisit (v : Visit)

/-- The state after a write that was accepted. -/
def Reply.accepted {σ : Type} (reply : Reply σ Unit) : Except EngineError σ :=
  reply.1.map fun _ => reply.2

namespace Statement

/-- Execute a statement: the tables then, unless it is refused. -/
def execute (t : Relational) : Statement → Except EngineError Relational
  | insertRun r => (t.createRun r).accepted
  | insertVisit v => (t.createVisit v).accepted
  | upsertRun r => .ok (t.upsertRun r)
  | upsertVisit v => t.upsertVisit v

/-- Execute statements one after the other, up to the first that is refused. -/
def executeAll (t : Relational) : List Statement → Except EngineError Relational
  | [] => .ok t
  | s :: ss => do executeAll (← s.execute t) ss

theorem executeAll_cons (t : Relational) (s : Statement) (ss : List Statement) :
    executeAll t (s :: ss) = (s.execute t).bind (executeAll · ss) := rfl

/-- Statements are executed one after the other, up to the first one that is refused. -/
theorem executeAll_append (t : Relational) (ss ss' : List Statement) :
    executeAll t (ss ++ ss') = (executeAll t ss).bind (executeAll · ss') := by
  induction ss generalizing t with
  | nil => rfl
  | cons s ss ih =>
    rw [List.cons_append, executeAll_cons, executeAll_cons]
    cases s.execute t with
    | error e => rfl
    | ok t' => exact ih t'

/-- The statements that write visits do what the call does. -/
theorem executeAll_upsertVisit (t : Relational) (vs : List Visit) :
    executeAll t (vs.map upsertVisit) = t.upsertVisits vs := by
  induction vs generalizing t with
  | nil => rfl
  | cons v vs ih => exact congrArg (t.upsertVisit v).bind (funext ih)

end Statement

namespace StoreRequest

/-- The call writes. -/
def isWrite : StoreRequest → Bool
  | createRun _ | createVisit _ | update .. => true
  | _ => false

/-- The statements of a write. -/
def statements : StoreRequest → List Statement
  | createRun r => [.insertRun r]
  | createVisit v => [.insertVisit v]
  | update r visits => .upsertRun r :: visits.map .upsertVisit
  | _ => []

end StoreRequest

/-- A transaction between two statements. -/
structure Transaction where
  /-- the tables as everybody else sees them -/
  stored : Relational
  /-- the tables as the next statement finds them -/
  draft : Relational
  /-- the statements that have not been executed -/
  left : List Statement

namespace Transaction

/-- A transaction that has executed nothing. -/
def start (t : Relational) (ss : List Statement) : Transaction := ⟨t, t, ss⟩

/-- The next statement is executed. -/
inductive Step : Transaction → Transaction → Prop where
  /-- on the draft -/
  | execute {stored draft draft' : Relational} {s : Statement} {left : List Statement}
    (executed : s.execute draft = .ok draft') :
    Step ⟨stored, draft, s :: left⟩ ⟨stored, draft', left⟩

/-- Some more statements are executed. -/
abbrev Passes : Transaction → Transaction → Prop := ReflTransGen Step

/-- How a transaction ends: what it is answered, and the tables then. -/
inductive Closes : Transaction → Except EngineError Unit → Relational → Prop where
  /-- nothing is left, and the draft is stored -/
  | commit {stored draft : Relational} : Closes ⟨stored, draft, []⟩ (.ok ()) draft
  /-- a statement is refused, and the draft is thrown away -/
  | rollback {stored draft : Relational} {s : Statement} {left : List Statement} {e : EngineError}
    (refused : s.execute draft = .error e) : Closes ⟨stored, draft, s :: left⟩ (.error e) stored

variable {t t' : Relational} {ss : List Statement} {x y : Transaction}
  {a : Except EngineError Unit}

/-- The transaction of these statements, on these tables, is so far: some statements have been
executed on the draft, and others see the tables as they were. -/
structure Underway (t : Relational) (ss : List Statement) (x : Transaction) : Prop where
  /-- others see nothing -/
  stored : x.stored = t
  /-- the draft is what the first statements have made of the tables -/
  draft : ∃ done, ss = done ++ x.left ∧ Statement.executeAll t done = .ok x.draft

/-- When the transaction begins, no statement has been executed. -/
theorem Underway.start : Underway t ss (start t ss) := ⟨rfl, [], rfl, rfl⟩

/-- It takes one statement after the other, and goes on only after one that was accepted. -/
theorem Underway.step (h : Underway t ss x) (hs : x.Step y) : Underway t ss y := by
  obtain @⟨_, _, _, s, _, executed⟩ := hs
  obtain ⟨stored, done, rfl, drafted⟩ := h
  refine ⟨stored, done ++ [s], by simp, ?_⟩
  rw [Statement.executeAll_append, drafted]
  show (s.execute _).bind _ = _
  rw [executed]
  rfl

/-- So at any moment what it has in hand is what the statements so far have made of the tables. -/
theorem Underway.of_passes (h : (Transaction.start t ss).Passes x) : Underway t ss x := by
  induction h with
  | refl => exact .start
  | tail _ step ih => exact ih.step step

/-- A transaction comes to its end. -/
theorem exists_closes (x : Transaction) : ∃ y a t', x.Passes y ∧ y.Closes a t' := by
  obtain ⟨stored, draft, left⟩ := x
  induction left generalizing draft with
  | nil => exact ⟨_, _, _, .refl, .commit⟩
  | cons s left ih =>
    cases executed : s.execute draft with
    | error e => exact ⟨_, _, _, .refl, .rollback executed⟩
    | ok draft' =>
      obtain ⟨y, a, t', steps, closes⟩ := ih draft'
      exact ⟨y, a, t', .head (.execute executed) steps, closes⟩

/-- It is answered what its statements come to, and is stored if none of them is refused. -/
theorem Underway.closes (h : Underway t ss x) (hc : x.Closes a t') :
    (∃ e, Statement.executeAll t ss = .error e ∧ a = .error e ∧ t' = t) ∨
      Statement.executeAll t ss = .ok t' ∧ a = .ok () := by
  obtain ⟨stored, done, rfl, drafted⟩ := h
  cases hc with
  | commit => exact .inr ⟨by simpa using drafted, rfl⟩
  | @rollback _ draft s left e refused =>
    refine .inl ⟨e, ?_, rfl, stored⟩
    rw [Statement.executeAll_append, drafted]
    show (s.execute draft).bind _ = _
    rw [refused]
    rfl

end Transaction

namespace StoreRequest

variable {t : Relational} {q : StoreRequest}

/-- The answer to a write, and the tables then, if this is what its statements come to. -/
def settle (t : Relational) : Except EngineError Relational → Reply Relational StoreAnswer
  | .ok t' => (.ok .written, t')
  | .error e => (.error e, t)

/-- A single statement. -/
theorem settle_accepted {reply : Reply Relational Unit}
    (undone : ∀ e, reply.1 = .error e → reply.2 = t) :
    settle t (reply.accepted.bind .ok) = reply.map fun _ => .written := by
  obtain ⟨answer, t'⟩ := reply
  cases answer with
  | ok => rfl
  | error e =>
    obtain rfl : t' = t := undone e rfl
    rfl

/-- A write is answered what its statements come to. -/
theorem perform_eq (t : Relational) (write : q.isWrite = true) :
    q.perform t = settle t (Statement.executeAll t q.statements) := by
  cases q with
  | createRun r => exact (settle_accepted fun e => Relational.createRun_of_error).symm
  | createVisit v => exact (settle_accepted fun e => Relational.createVisit_of_error).symm
  | update r visits =>
    have executed : Statement.executeAll t (update r visits).statements =
        (t.upsertRun r).upsertVisits visits :=
      Statement.executeAll_upsertVisit (t.upsertRun r) visits
    have performed : (update r visits).perform t =
      (t.update r visits).map fun _ => StoreAnswer.written := rfl
    rw [executed, performed, Relational.update]
    cases (t.upsertRun r).upsertVisits visits <;> rfl
  | _ => cases write

/-- The call is one transaction on the tables. -/
structure Transacted (t : Relational) (q : StoreRequest) : Prop where
  /-- nobody else sees anything of it before its end -/
  hidden {x : Transaction} (steps : (Transaction.start t q.statements).Passes x) : x.stored = t
  /-- it comes to its end -/
  ends : ∃ x a t', (Transaction.start t q.statements).Passes x ∧ x.Closes a t'
  /-- what it comes to is the answer, and what it leaves is stored -/
  answered {x : Transaction} {a : Except EngineError Unit} {t' : Relational}
    (steps : (Transaction.start t q.statements).Passes x) (closes : x.Closes a t') :
    q.perform t = (a.map fun _ => .written, t')

/-- So every write is one transaction: its statements come to what the call comes to, and until it
is closed nobody sees any of it. -/
theorem transacted (t : Relational) (write : q.isWrite = true) : q.Transacted t where
  hidden steps := (Transaction.Underway.of_passes steps).stored
  ends := (Transaction.start t q.statements).exists_closes
  answered steps closes := by
    rw [perform_eq t write]
    rcases (Transaction.Underway.of_passes steps).closes closes with
      ⟨e, refused, rfl, rfl⟩ | ⟨executed, rfl⟩
    · rw [refused]
      rfl
    · rw [executed]
      rfl

end StoreRequest

/-! ## The store in memory -/

namespace Memory

variable {m : Memory} {r : RunRecord} {vs s : List Visit} {v : Visit}

/-- The store has the run and the visits as they were written; of those with one ID it has the
last one, and no other. -/
structure Holds (m : Memory) (r : RunRecord) (vs : List Visit) : Prop where
  /-- the run -/
  run : m.get r.id = some r
  /-- its visits -/
  visits : ∃ d, m.detail r.id = some d ∧ d.run = r ∧ ∀ v ∈ vs, ∃ w,
    lastBy Visit.id vs v.id = some w ∧ w ∈ d.visits ∧ ∀ x ∈ d.visits, x.id = v.id → x = w

/-- Writing a visit replaces the one with its ID. -/
theorem upsertVisit_eq (s : List Visit) (v : Visit) :
    upsertVisit s v = upsert Visit.id (fun _ new => new) s v := by
  have known : s.any (·.id == v.id) = true ↔ v.id ∈ s.map Visit.id := by simp
  rw [upsertVisit, upsert]
  by_cases h : v.id ∈ s.map Visit.id
  · rw [if_pos h, if_pos (known.2 h)]
  · rw [if_neg h, if_neg (mt known.1 h)]

/-- Of the visits that were written with one ID, the last one is there. -/
theorem last_of_mem_foldl_upsertVisit {x : Visit} (h : x ∈ vs.foldl upsertVisit s)
    (listed : x.id ∈ vs.map Visit.id) : lastBy Visit.id vs x.id = some x := by
  rw [show upsertVisit = upsert Visit.id (fun _ new => new) from
    funext fun s => funext fun v => upsertVisit_eq s v] at h
  obtain ⟨a, last, rfl⟩ := last_of_mem_foldl_upsert (T := fun b a => b = a) (fun _ _ _ => rfl)
    (fun _ => rfl) (fun _ _ => rfl) h listed
  exact last

/-- What is stored of a run that was written, whether or not it was stored before. -/
theorem detail_update_eq (writable : m.readOnly = false) (r : RunRecord) (vs : List Visit) :
    (m.update r vs).2.detail r.id =
      some ⟨r, vs.foldl upsertVisit ((m.detail r.id).elim [] RunDetail.visits), []⟩ := by
  have written : (m.update r vs).1 = .ok () := by rw [update, if_neg (by simp [writable])]
  cases found : m.detail r.id with
  | some d => exact detail_update found written
  | none =>
    have missing : m.find? r.id = none := by simpa [detail] using found
    have added : find? { m with entries := m.entries ++ [⟨r, []⟩] } r.id = some ⟨r, []⟩ := by
      rw [find?, List.find?_append, show m.entries.find? (·.run.id == r.id) = none from missing]
      simp
    rw [update, if_neg (by simp [writable])]
    dsimp only
    rw [if_neg (by simp [missing])]
    refine detail_eq_some.2 ⟨rfl, ?_⟩
    have changed := find?_modify (f := fun e => ⟨r, vs.foldl upsertVisit e.visits⟩)
      { m with entries := m.entries ++ [⟨r, []⟩] } r.id fun _ _ => rfl
    rw [added] at changed
    exact changed

/-- An update that may write has written the run and, of the visits with one ID, the last. -/
theorem holds_update (writable : m.readOnly = false) (r : RunRecord) (vs : List Visit) :
    (m.update r vs).2.Holds r vs := by
  have detail := detail_update_eq writable r vs
  refine ⟨?_, _, detail, rfl, fun v hv => ?_⟩
  · obtain ⟨-, entry⟩ := detail_eq_some.1 detail
    rw [get, entry]
    rfl
  · have listed : v.id ∈ vs.map Visit.id := List.mem_map_of_mem hv
    obtain ⟨w, hw, same⟩ := List.mem_map.1
      (mem_ids_foldl_upsertVisit (s := (m.detail r.id).elim [] RunDetail.visits).2 (.inr listed))
    have last := last_of_mem_foldl_upsertVisit hw (same ▸ listed)
    rw [same] at last
    refine ⟨w, last, hw, fun x hx own => ?_⟩
    have last' := last_of_mem_foldl_upsertVisit hx (own ▸ listed)
    rw [own, last] at last'
    exact (Option.some.inj last').symm

/-- Updates are refused exactly if writes are switched off. -/
theorem update_eq_ok_iff (m : Memory) (r : RunRecord) (vs : List Visit) :
    (m.update r vs).1 = .ok () ↔ m.readOnly = false := by
  rw [update]
  cases m.readOnly <;> simp

end Memory

/-! ## The relational store -/

namespace Relational

variable {t t' : Relational} {r : RunRecord} {vs : List Visit} {v : Visit} {e : EngineError}
  {id : String}

/-! ### Which visits are refused -/

/-- To write over a row keeps its ID, -/
theorem keeps_id_run (b a : RunRow) (same : b.id = a.id) : (b.overwrite a).id = a.id := same

/-- also for visits. -/
theorem keeps_id_visit (b a : VisitRow) (same : b.id = a.id) : (b.overwrite a).id = a.id := same

/-- A visit is there if there is a row with its ID. -/
theorem hasVisit_iff : t.hasVisit id ↔ id ∈ t.visits.map VisitRow.id := by
  simp [hasVisit]

/-- To write a run is to write over the row with its ID, or to add one. -/
theorem upsertRun_eq (t : Relational) (r : RunRecord) : t.upsertRun r =
    { t with runs := upsert RunRow.id RunRow.overwrite t.runs (.ofRecord r) } := by
  rw [upsertRun, upsert]
  by_cases stored : t.hasRun r.id
  · have listed : (RunRow.ofRecord r).id ∈ t.runs.map RunRow.id := hasRun_iff.1 stored
    rw [if_pos stored, if_pos listed]
    rfl
  · have fresh : (RunRow.ofRecord r).id ∉ t.runs.map RunRow.id := mt hasRun_iff.2 stored
    rw [if_neg stored, if_neg fresh]

/-- So it is with a visit, but that a new one is refused if its run is not there. This is the only
statement of an update that can be refused. -/
theorem upsertVisit_eq (t : Relational) (v : Visit) : t.upsertVisit v =
    if t.hasVisit v.id ∨ t.hasRun v.parentId then
      .ok { t with visits := upsert VisitRow.id VisitRow.overwrite t.visits (.ofVisit v) }
    else .error (.storage .foreignKeyViolated) := by
  rw [upsertVisit, upsert]
  by_cases stored : t.hasVisit v.id
  · have listed : (VisitRow.ofVisit v).id ∈ t.visits.map VisitRow.id := hasVisit_iff.1 stored
    rw [if_pos stored, if_pos (.inl stored), if_pos listed]
    rfl
  · have fresh : (VisitRow.ofVisit v).id ∉ t.visits.map VisitRow.id := mt hasVisit_iff.2 stored
    rw [if_neg stored, if_neg fresh]
    by_cases parent : t.hasRun v.parentId
    · rw [if_neg (by simp [parent]), if_pos (.inr parent)]
    · rw [if_pos (by simpa using parent), if_neg (by simp [stored, parent])]

/-- The tables with one more visit written. -/
theorem upsertVisit_eq_ok : t.upsertVisit v = .ok t' ↔
    (t.hasVisit v.id ∨ t.hasRun v.parentId) ∧
      t' = { t with visits := upsert VisitRow.id VisitRow.overwrite t.visits (.ofVisit v) } := by
  rw [upsertVisit_eq]
  split
  · next here =>
    refine ⟨fun same => ⟨here, (Except.ok.inj same).symm⟩, ?_⟩
    rintro ⟨-, rfl⟩
    rfl
  · next refused => simp [refused]

/-- Runs are not touched where visits are written. -/
theorem upsertVisits_eq_ok (written : t.upsertVisits vs = .ok t') : t' =
    { t with
      visits := (vs.map .ofVisit).foldl (upsert VisitRow.id VisitRow.overwrite) t.visits } := by
  induction vs generalizing t with
  | nil =>
    cases written
    rfl
  | cons v vs ih =>
    cases first : t.upsertVisit v with
    | error e => simp [upsertVisits, first, bind, Except.bind] at written
    | ok t₁ =>
      have rest : t₁.upsertVisits vs = .ok t' := by
        simpa [upsertVisits, first, bind, Except.bind] using written
      obtain ⟨-, rfl⟩ := upsertVisit_eq_ok.1 first
      exact ih rest

/-- Visits can be written exactly if each of them is stored, or listed before, or else belongs to
a stored run. -/
theorem exists_upsertVisits_iff : (∃ t', t.upsertVisits vs = .ok t') ↔
    ∀ front v back, vs = front ++ v :: back →
      t.hasVisit v.id ∨ v.id ∈ front.map Visit.id ∨ t.hasRun v.parentId := by
  induction vs generalizing t with
  | nil =>
    refine ⟨fun _ front v back same => ?_, fun _ => ⟨t, rfl⟩⟩
    exact absurd same.symm (List.append_ne_nil_of_right_ne_nil _ (List.cons_ne_nil _ _))
  | cons v vs ih =>
    by_cases accepted : t.hasVisit v.id ∨ t.hasRun v.parentId
    · obtain ⟨t₁, first⟩ : ∃ t₁, t.upsertVisit v = .ok t₁ :=
        ⟨_, upsertVisit_eq_ok.2 ⟨accepted, rfl⟩⟩
      have rest : t.upsertVisits (v :: vs) = t₁.upsertVisits vs := by
        simp [upsertVisits, first, bind, Except.bind]
      obtain ⟨-, rfl⟩ := upsertVisit_eq_ok.1 first
      -- from here on the first visit counts as stored, which is what `front` says of it before
      have stored (id : String) : hasVisit { t with
          visits := upsert VisitRow.id VisitRow.overwrite t.visits (.ofVisit v) } id ↔
          t.hasVisit id ∨ id = v.id := by
        rw [hasVisit_iff, hasVisit_iff]
        exact mem_keys_upsert_iff keeps_id_visit t.visits (.ofVisit v)
      rw [rest, ih]
      constructor
      · intro later front w back same
        cases front with
        | nil =>
          obtain ⟨rfl, -⟩ := List.cons.inj same
          exact accepted.imp_right .inr
        | cons v' front =>
          obtain ⟨rfl, rfl⟩ := List.cons.inj same
          rcases later front w back rfl with known | listed | parent
          · rcases (stored w.id).1 known with known | own
            · exact .inl known
            · exact .inr (.inl (by simp [own]))
          · exact .inr (.inl (List.mem_cons_of_mem _ listed))
          · exact .inr (.inr parent)
      · intro all front w back same
        rcases all (v :: front) w back (by rw [same]; rfl) with known | listed | parent
        · exact .inl ((stored w.id).2 (.inl known))
        · rcases List.mem_cons.1 listed with own | listed
          · exact .inl ((stored w.id).2 (.inr own))
          · exact .inr (.inl listed)
        · exact .inr (.inr parent)
    -- if the first visit is refused, it is the one that breaks the condition
    · have refused : t.upsertVisit v = .error (.storage .foreignKeyViolated) := by
        rw [upsertVisit_eq, if_neg accepted]
      constructor
      · rintro ⟨t', written⟩
        simp [upsertVisits, refused, bind, Except.bind] at written
      · intro all
        refine absurd ?_ accepted
        exact (all [] v vs rfl).imp_right fun h => h.resolve_left (by simp)

/-- An update is accepted exactly if each of its visits is stored, or listed before, or else
belongs to a stored run or to the one that is written. -/
theorem update_eq_ok_iff (t : Relational) (r : RunRecord) (vs : List Visit) :
    (t.update r vs).1 = .ok () ↔ ∀ front v back, vs = front ++ v :: back →
      t.hasVisit v.id ∨ v.id ∈ front.map Visit.id ∨ v.parentId = r.id ∨ t.hasRun v.parentId := by
  have parent (id : String) : (t.upsertRun r).hasRun id ↔ id = r.id ∨ t.hasRun id := by
    rw [hasRun_iff, hasRun_iff, upsertRun_eq, or_comm]
    exact mem_keys_upsert_iff keeps_id_run t.runs (.ofRecord r)
  have visit (id : String) : (t.upsertRun r).hasVisit id = t.hasVisit id := by
    rw [upsertRun_eq]
    rfl
  have accepted : (t.update r vs).1 = .ok () ↔
      ∃ t', (t.upsertRun r).upsertVisits vs = .ok t' := by
    rw [update]
    cases (t.upsertRun r).upsertVisits vs <;> simp
  rw [accepted, exists_upsertVisits_iff]
  simp only [parent, visit]

/-! ### What is stored -/

/-- Rows of the run and of the visits are stored, and each shows what was written; of visits with
one ID, the last one. Times are stored as texts with microseconds. -/
structure HoldsRows (t : Relational) (r : RunRecord) (vs : List Visit) : Prop where
  /-- the run is stored -/
  run : t.hasRun r.id
  /-- as it was written -/
  runRow : ∀ row ∈ t.runs, row.id = r.id → row.overwrite (.ofRecord r) = row
  /-- so are the visits -/
  visits : ∀ v ∈ vs, t.hasVisit v.id ∧ ∃ w, lastBy Visit.id vs v.id = some w ∧
    ∀ row ∈ t.visits, row.id = v.id → row.overwrite (.ofVisit w) = row

/-- An update that has worked has executed all of its statements. -/
theorem exists_of_update_eq_ok (written : (t.update r vs).1 = .ok ()) :
    ∃ t', (t.upsertRun r).upsertVisits vs = .ok t' ∧ (t.update r vs).2 = t' := by
  rw [update] at written
  split at written
  · next t' rest => exact ⟨t', rest, by rw [update, rest]⟩
  · cases written

/-- So the rows are there, of each ID the last one that was written. -/
theorem holdsRows_update (written : (t.update r vs).1 = .ok ()) :
    (t.update r vs).2.HoldsRows r vs := by
  obtain ⟨t', rest, after⟩ := exists_of_update_eq_ok written
  rw [after, upsertVisits_eq_ok rest, upsertRun_eq]
  -- whatever was written over a row last is what the row says
  have stored (row : VisitRow) (hrow : row ∈ (vs.map VisitRow.ofVisit).foldl
      (upsert VisitRow.id VisitRow.overwrite) t.visits) (listed : row.id ∈ vs.map Visit.id) :
      ∃ w, lastBy Visit.id vs row.id = some w ∧ row.overwrite (.ofVisit w) = row := by
    have listed : row.id ∈ (vs.map VisitRow.ofVisit).map VisitRow.id := by
      rwa [List.map_map]
    obtain ⟨_, last, takes⟩ := last_of_mem_foldl_upsert keeps_id_visit
      (T := fun row new : VisitRow => row.overwrite new = row) (fun _ => rfl) (fun _ _ => rfl)
      hrow listed
    rw [lastBy_map] at last
    obtain ⟨w, listed, rfl⟩ := Option.map_eq_some_iff.1 last
    exact ⟨w, listed, takes⟩
  -- the run is there; its row is the new one; each visit has its row
  refine ⟨?_, fun row hrow own => ?_, fun v hv => ?_⟩
  · exact hasRun_iff.2 ((mem_keys_upsert_iff keeps_id_run t.runs _).2 (.inr rfl))
  · rcases mem_upsert_cases hrow with rfl | ⟨c, -, -, rfl⟩ | ⟨-, other⟩
    · rfl
    · rfl
    · exact absurd own other
  · have listed : v.id ∈ vs.map Visit.id := List.mem_map_of_mem hv
    obtain ⟨w, last⟩ : ∃ w, lastBy Visit.id vs v.id = some w := exists_lastBy hv
    refine ⟨?_, w, last, fun row hrow own => ?_⟩
    · refine hasVisit_iff.2 ((mem_keys_foldl_upsert keeps_id_visit t.visits _).2 (.inr ?_))
      rwa [List.map_map]
    · obtain ⟨w', last', takes⟩ := stored row hrow (own ▸ listed)
      rw [own, last] at last'
      obtain rfl := Option.some.inj last'
      exact takes

/-! ### What is read -/

/-- Every stored visit belongs to a stored run. -/
def Anchored (t : Relational) : Prop := ∀ row ∈ t.visits, row.parentId ∈ t.ids

/-- A visit that is added has its run. -/
theorem Anchored.add (h : t.Anchored) (parent : t.hasRun v.parentId) :
    Anchored { t with visits := t.visits ++ [.ofVisit v] } := by
  refine List.forall_mem_append.2 ⟨h, fun row hrow => ?_⟩
  rw [List.mem_singleton.1 hrow]
  exact hasRun_iff.1 parent

/-- One that is written over keeps the run that it has, which is why the write does not look for the
run then. -/
theorem Anchored.upsertVisit (h : t.Anchored) (written : t.upsertVisit v = .ok t') :
    t'.Anchored := by
  rw [Relational.upsertVisit] at written
  dsimp only at written
  split at written
  · cases written
    intro row hrow
    obtain ⟨old, hold, rfl⟩ := List.mem_map.1 hrow
    split <;> exact h old hold
  · split at written
    · cases written
    · next parent =>
      cases written
      exact h.add (by simpa using parent)

/-- By induction over the visits that are written: none of them takes away a run. -/
theorem Anchored.upsertVisits (h : t.Anchored) (written : t.upsertVisits vs = .ok t') :
    t'.Anchored := by
  induction vs generalizing t with
  | nil =>
    cases written
    exact h
  | cons v vs ih =>
    cases first : t.upsertVisit v with
    | error e => simp [Relational.upsertVisits, first, bind, Except.bind] at written
    | ok t₁ =>
      refine ih (h.upsertVisit first) ?_
      simpa [Relational.upsertVisits, first, bind, Except.bind] using written

/-- So it remains after each call: runs are added and written over, and never removed. -/
theorem Anchored.perform (h : t.Anchored) (q : StoreRequest) : (q.perform t).2.Anchored := by
  cases q with
  | createRun r =>
    -- no visit is written, and no run disappears
    intro row hrow
    refine (ids_prefix_perform t (.createRun r)).subset (h row ?_)
    have same : (t.createRun r).2.visits = t.visits := by
      rw [createRun]
      split <;> rfl
    exact same ▸ hrow
  | createVisit v =>
    show (t.createVisit v).2.Anchored
    rw [createVisit]
    split
    · exact h
    · split
      · exact h
      · next parent => exact h.add (by simpa using parent)
  | update r vs =>
    show (t.update r vs).2.Anchored
    -- the run is written first, so the visits may refer to it
    have run : (t.upsertRun r).Anchored := by
      intro row hrow
      rw [upsertRun_eq] at hrow
      exact (ids_prefix_upsertRun t r).subset (h row hrow)
    rw [update]
    split
    · next written => exact run.upsertVisits written
    · exact h
  | _ => exact h

/-- So it is in all tables that calls can lead to. -/
theorem Reachable.anchored (h : t.Reachable) : t.Anchored := by
  induction h with
  | empty => exact fun row hrow => absurd hrow List.not_mem_nil
  | @call t q _ _ ih => exact ih.perform q

/-- The run and the visits can be read, and show what was written; of visits with one ID, the last
one. Times are read with microseconds. -/
structure Shows (t : Relational) (r : RunRecord) (vs : List Visit) : Prop where
  /-- the run -/
  run : ∃ s, t.get r.id = .ok (some s) ∧ s.overwrite r.asStored = s
  /-- the visits, each with the run that it belongs to -/
  visits : ∀ v ∈ vs, ∃ w, lastBy Visit.id vs v.id = some w ∧ ∃ run d x,
    t.detail run = .ok (some d) ∧ x ∈ d.visits ∧ x.id = v.id ∧ x.overwrite w.asStored = x

/-- What is read after an update is what was written, since the texts of its times are read back as
the times that they were made of. -/
theorem shows_update (reachable : t.Reachable)
    (times : (StoreRequest.update r vs).EveryTime Instant.FourDigits)
    (written : (t.update r vs).1 = .ok ()) : (t.update r vs).2.Shows r vs := by
  obtain ⟨t', rest, after⟩ := exists_of_update_eq_ok written
  obtain ⟨rs, ws, held⟩ := reachable.held
  have held : t'.Held (RunRecord.upsert rs r) (vs.foldl Visit.upsert ws) :=
    (held.upsertRun (times.runs r (List.mem_singleton_self r))).upsertVisits times.visits rest
  have anchored : t'.Anchored := after ▸ reachable.anchored.perform (.update r vs)
  rw [after]
  constructor
  · obtain ⟨s, hs, own⟩ := List.mem_map.1 (mem_keys_upsert RunRecord.id_overwrite rs r)
    refine ⟨s.asStored, ?_, ?_⟩
    · rw [held.tables, get_holding held.runTimes, ← own, find?_key_eq_some held.runIds hs]
      rfl
    · rcases mem_upsert_cases hs with rfl | ⟨c, -, -, rfl⟩ | ⟨-, other⟩
      · rfl
      · rfl
      · exact absurd own other
  · intro v hv
    have keeps (b a : Visit) (same : b.id = a.id) : (b.overwrite a).id = a.id := same
    have listed : v.id ∈ vs.map Visit.id := List.mem_map_of_mem hv
    obtain ⟨x, hx, own⟩ := List.mem_map.1 ((mem_keys_foldl_upsert keeps ws vs).2 (.inr listed))
    obtain ⟨w, last, takes⟩ := last_of_mem_foldl_upsert keeps
      (T := fun x w : Visit => x.asStored.overwrite w.asStored = x.asStored)
      (fun _ => rfl) (fun _ _ => rfl) hx (own ▸ listed)
    -- the run of the visit is stored, so that it can be read with its visits
    have parent : x.parentId ∈ (RunRecord.upsert rs r).map RunRecord.id := by
      rw [← hasRun_holding, ← held.tables, hasRun_iff]
      refine anchored (.ofVisit x) ?_
      rw [held.tables]
      exact List.mem_map_of_mem hx
    obtain ⟨s, hs, owner⟩ := List.mem_map.1 parent
    have read : t'.detail x.parentId = .ok (some ⟨s.asStored, ((vs.foldl Visit.upsert ws).filter
        (·.parentId == x.parentId)).map Visit.asStored, []⟩) := by
      rw [held.tables, detail_holding held.runTimes held.visitTimes, ← owner,
        find?_key_eq_some held.runIds hs]
      rfl
    refine ⟨w, own ▸ last, x.parentId, _, x.asStored, read, ?_, own, takes⟩
    exact List.mem_map_of_mem (List.mem_filter.2 ⟨hx, beq_self_eq_true _⟩)

end Relational

/-! ## Both stores -/

/-- The write is made as a whole, or not at all. -/
structure StoreRequest.Atomic (q : StoreRequest) : Prop where
  /-- the store in memory is left as it was -/
  memory {m : Memory} {e : EngineError} (refused : (q.perform m).1 = .error e) :
    (q.perform m).2 = m
  /-- so are the tables -/
  tables {t : Relational} {e : EngineError} (refused : (q.perform t).1 = .error e) :
    (q.perform t).2 = t
  /-- and nobody sees them half written -/
  transacted (write : q.isWrite = true) (t : Relational) : q.Transacted t

/-- An update that is accepted is stored with all its visits. -/
structure UpdateStored (r : RunRecord) (vs : List Visit) : Prop where
  /-- in memory -/
  memory {m : Memory} (written : (m.update r vs).1 = .ok ()) : (m.update r vs).2.Holds r vs
  /-- in tables, whichever they are -/
  tables {t : Relational} (written : (t.update r vs).1 = .ok ()) :
    (t.update r vs).2.HoldsRows r vs
  /-- and it can be read, if its times can -/
  shown {t : Relational} (reachable : t.Reachable)
    (times : (StoreRequest.update r vs).EveryTime Instant.FourDigits)
    (written : (t.update r vs).1 = .ok ()) : (t.update r vs).2.Shows r vs
  /-- in memory it is refused exactly if writes are switched off -/
  writable (m : Memory) : (m.update r vs).1 = .ok () ↔ m.readOnly = false
  /-- in tables it is refused exactly for a new visit of a run that is not stored -/
  anchored (t : Relational) : (t.update r vs).1 = .ok () ↔ ∀ front v back, vs = front ++ v :: back →
    t.hasVisit v.id ∨ v.id ∈ front.map Visit.id ∨ v.parentId = r.id ∨ t.hasRun v.parentId

/-- Nothing is left of a write that is refused, and all of an update that is accepted is stored. -/
theorem writes_atomic : (∀ q : StoreRequest, q.Atomic) ∧
    ∀ (r : RunRecord) (vs : List Visit), UpdateStored r vs := by
  refine ⟨fun q => ⟨Memory.perform_of_error, q.perform_of_error, fun write t => ?_⟩,
    fun r vs => ?_⟩
  · exact q.transacted t write
  · exact
      { memory := fun written =>
          Memory.holds_update ((Memory.update_eq_ok_iff _ r vs).1 written) r vs
        tables := Relational.holdsRows_update
        shown := Relational.shows_update
        writable := fun m => Memory.update_eq_ok_iff m r vs
        anchored := fun t => Relational.update_eq_ok_iff t r vs }

/-- A run, and visits that are written with it: one of them twice, and then another, of a run. -/
def halfway (run : String) : RunRecord × List Visit :=
  let visit (id run : String) (status : Status) : Visit :=
    ⟨id, run, "b", "u", "n", status, "", .immediate, "", .epoch, none⟩
  (.create "r" "p" "b" "t" "u" .epoch,
    [visit "v" "r" .processing, visit "v" "r" .finished, visit "w" run .processing])

/-- If that run is not stored, nobody sees that the statements before the last were executed.
Otherwise the visit that was written twice is as it was written last. -/
theorem halfway_atomic :
    let t := (Relational.empty.createRun (halfway "r").1).2
    let q := StoreRequest.update (halfway "s").1 (halfway "s").2
    let off := { Memory.empty with readOnly := true }
    (∃ x, (Transaction.start t q.statements).Passes x ∧ x.draft.visits ≠ [] ∧ x.left.length = 1 ∧
      x.stored = t) ∧
    (q.perform t).1 = .error (.storage .foreignKeyViolated) ∧ (q.perform t).2 = t ∧
    (q.perform off).1 = .error (.storage .readOnly) ∧ (q.perform off).2 = off ∧
    ∃ run d x, (t.update (halfway "r").1 (halfway "r").2).2.detail run = .ok (some d) ∧
      x ∈ d.visits ∧ x.id = "v" ∧ x.status = .finished := by
  intro t q off
  have atomic := writes_atomic.1 q
  have refused : (q.perform t).1 = .error (.storage .foreignKeyViolated) := by decide +kernel
  have readOnly : (q.perform off).1 = .error (.storage .readOnly) := by decide +kernel
  refine ⟨?_, refused, atomic.tables refused, readOnly, atomic.memory readOnly, ?_⟩
  · have steps : (Transaction.start t q.statements).Passes _ :=
      .tail (.tail (.tail .refl (.execute rfl)) (.execute rfl)) (.execute rfl)
    exact ⟨_, steps, by decide +kernel, rfl, (atomic.transacted rfl t).hidden steps⟩
  · have reachable : t.Reachable :=
      .call (q := .createRun (halfway "r").1) (by decide +kernel) .empty
    have shows := (writes_atomic.2 (halfway "r").1 (halfway "r").2).shown reachable
      (by decide +kernel) (by decide +kernel)
    obtain ⟨w, last, run, d, x, read, inside, own, takes⟩ :=
      shows.visits _ List.mem_cons_self
    refine ⟨run, d, x, read, inside, own, ?_⟩
    obtain rfl : _ = w := Option.some.inj last
    exact (congrArg Visit.status takes).symm

end Runbook
