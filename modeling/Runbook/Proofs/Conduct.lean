import Runbook.Proofs.Inspection

/-!
# What a run asks for

* `Conduct` — what executors may do, and which operations the oracle may be asked about.
* `Trace.Minted` — each visit is created with an ID that was given for it, and for no other
  visit. So no two visits have one ID if none is given twice (`Trace.Minted.nodup`).
* `Trace.Proper`, `Program.Proper` — all that is asked keeps to a conduct, visits are created like
  that, and what is written lists them.
* `Run.KeepsTo` — a run that keeps to a conduct in all its behaviours. It does so if its executors
  do (`Run.keepsTo_of_executors`), and it always accounts for its visits, if executors leave the IDs
  of these (`Run.proper_of_leads`).
-/

namespace Runbook

open Program

/-- What a run may do that others could notice. -/
structure Conduct where
  /-- what its executors may ask -/
  acts : Act → Prop
  /-- the operations that the oracle may be asked about -/
  operations : String → Prop

/-- Anything. -/
def Conduct.free : Conduct := ⟨fun _ => True, fun _ => True⟩

/-- What a run has done about its visits. -/
structure Ledger where
  /-- the ID that was given last, unless a visit was created with it -/
  unused : Option String
  /-- the IDs of the visits that were entered -/
  entered : List String

/-- The ledger after an answer. -/
def Ledger.after (l : Ledger) : (r : Request) → r.Answer → Ledger
  | .newVisitId, id => { l with unused := some id }
  | .createVisit v, _ => ⟨none, l.entered ++ [v.id]⟩
  | _, _ => l

/-! ## Requests and traces -/

namespace Request

/-- The request keeps to the conduct. -/
def Within (c : Conduct) : Request → Prop
  | act _ a => c.acts a
  | beginQuery operation | query operation => c.operations operation
  | _ => True

/-- If it is a write, it concerns the run: a visit with the unused ID is created, or those that were
entered are listed. -/
def Accounts (run : String) (l : Ledger) : Request → Prop
  | createVisit v => v.parentId = run ∧ l.unused = some v.id
  | update r vs => r.id = run ∧ vs.map Visit.id = l.entered
  | _ => True

end Request

/-- What was asked keeps to the conduct. -/
def Incident.Within (c : Conduct) : Incident → Prop
  | asked r _ => r.Within c
  | _ => True

namespace Trace

variable {e : Incident} {t u : Trace} {id run : String} {c : Conduct}

/-- The IDs that were given for visits, the latest first. -/
def given : Trace → List String
  | [] => []
  | .asked .newVisitId id :: t => id :: given t
  | _ :: t => given t

/-- The one that was given last, unless a visit was created with it. -/
def unused? : Trace → Option String
  | [] => none
  | .asked .newVisitId id :: _ => some id
  | .asked (.createVisit _) _ :: _ => none
  | _ :: t => unused? t

/-- The ledger after the trace. -/
def ledger (t : Trace) : Ledger := ⟨t.unused?, t.entered⟩

/-- Each visit was created with the ID that was given last. -/
def Minted (t : Trace) : Prop :=
  ∀ (e : Incident) (earlier : Trace), e :: earlier <:+ t →
    ∀ v w, e = .asked (.createVisit v) w → earlier.unused? = some v.id

/-- Each visit that is created takes the ID that was made last, if it was not taken before. -/
theorem minted_cons : Minted (e :: t) ↔
    (∀ v w, e = .asked (.createVisit v) w → t.unused? = some v.id) ∧ t.Minted :=
  forall_cons_suffix

/-- The ledger is kept from one request to the next, -/
theorem ledger_asked (r : Request) (x : r.Answer) (t : Trace) :
    ledger (.asked r x :: t) = t.ledger.after r x := by
  cases r <;> rfl

/-- and calls of the signal are not put down in it. -/
@[simp] theorem ledger_calls (cs : List SignalCall) (t : Trace) :
    (calls cs ++ t).ledger = t.ledger := by
  induction cs with
  | nil => rfl
  | cons c cs ih => exact ih

/-- An ID that is given to a visit was not given before. -/
theorem Minted.nodup (h : t.Minted) (distinct : t.given.Nodup) :
    t.entered.Nodup ∧ t.entered ⊆ t.given ∧
      ∀ id, t.unused? = some id → id ∈ t.given ∧ id ∉ t.entered := by
  induction t with
  | nil => simp [entered, unused?]
  | cons e t ih =>
    obtain ⟨mints, before⟩ := minted_cons.1 h
    cases e with
    | asked r x =>
      cases r with
      | newVisitId =>
        obtain ⟨new, distinct⟩ := List.nodup_cons.1 distinct
        obtain ⟨once, inside, -⟩ := ih before distinct
        refine ⟨once, fun id hid => List.mem_cons_of_mem x (inside hid), ?_⟩
        rintro id ⟨⟩
        exact ⟨List.mem_cons_self, fun known => new (inside known)⟩
      | createVisit v =>
        obtain ⟨once, inside, unused⟩ := ih before distinct
        obtain ⟨known, new⟩ := unused v.id (mints v x rfl)
        refine ⟨once.append (List.nodup_singleton _) (by simpa using new), ?_, by rintro id ⟨⟩⟩
        exact List.append_subset.2 ⟨inside, List.cons_subset.2 ⟨known, List.nil_subset _⟩⟩
      | _ => exact ih before distinct
    | _ => exact ih before distinct

/-- All that was asked keeps to the conduct, and accounts for the visits of the run. -/
structure Proper (c : Conduct) (run : String) (t : Trace) : Prop where
  /-- it keeps to the conduct -/
  within : ∀ e ∈ t, e.Within c
  /-- visits were created with the IDs that were given for them -/
  minted : t.Minted
  /-- they are listed where the run is written -/
  listing : t.Listing run t.entered

namespace Proper

/-- Nothing improper has happened at the beginning. -/
theorem nil : Proper c run [] where
  within := by simp
  minted e earlier h := by simpa using h.length_le
  listing := ⟨trivial, rfl, by simp⟩

/-- Whatever is no answer. -/
theorem cons (h : t.Proper c run) (other : ∀ r x, e ≠ .asked r x) : Proper c run (e :: t) := by
  have minted : Minted (e :: t) :=
    minted_cons.2 ⟨fun v w create => absurd create (other _ _), h.minted⟩
  obtain ⟨within, -, lists, -, own⟩ := h
  cases e with
  | asked r x => exact absurd rfl (other r x)
  | _ => exact ⟨List.forall_mem_cons.2 ⟨trivial, within⟩, minted, lists, rfl,
      List.forall_mem_cons.2 ⟨trivial, own⟩⟩

/-- Calls of the signal come from outside, and are no conduct of the run. -/
theorem calls (h : t.Proper c run) (cs : List SignalCall) : (Trace.calls cs ++ t).Proper c run := by
  induction cs with
  | nil => exact h
  | cons call cs ih => exact ih.cons (by simp)

/-- A request is proper if it stays among what belongs to the run and fits what the ledger says. -/
theorem asked {r : Request} {x : r.Answer} (h : t.Proper c run) (inside : r.Within c)
    (accounts : r.Accounts run t.ledger) : Proper c run (.asked r x :: t) where
  within := List.forall_mem_cons.2 ⟨inside, h.within⟩
  minted := by
    refine minted_cons.2 ⟨?_, h.minted⟩
    rintro v w ⟨⟩
    exact accounts.2
  listing := by
    cases r with
    | createVisit v => exact h.listing.create accounts.1
    | update record visits => exact h.listing.update accounts.1 accounts.2
    | _ => exact ⟨h.listing.lists, rfl, List.forall_mem_cons.2 ⟨trivial, h.listing.own⟩⟩

end Proper

end Trace

/-! ## Programs -/

namespace Program

variable {α β : Type} {c : Conduct} {run : String} {P : α → Ledger → Prop} {Q : β → Ledger → Prop}
  {p q : Program α} {f : α → Program β} {l : Ledger}

/-- All that the program asks keeps to the conduct and accounts for the visits of the run, and the
condition holds in the end. -/
def Proper (c : Conduct) (run : String) (P : α → Ledger → Prop) : Program α → Ledger → Prop
  | .done a, l => P a l
  | .panic, _ => True
  | .ask r next, l => (r.Within c ∧ r.Accounts run l) ∧
    ∀ x, (next x).Proper c run P (l.after r x)
  | .pause _ next, l => ∀ w, (next w).Proper c run P l

/-- What is proper step by step is proper, if the next step begins with the ledger that the last one
has left. -/
theorem Proper.bind (hp : p.Proper c run P l)
    (hf : ∀ a l, P a l → (f a).Proper c run Q l) : (p.bind f).Proper c run Q l := by
  induction p generalizing l with
  | done a => exact hf a l hp
  | panic => trivial
  | ask r next ih => exact ⟨hp.1, fun x => ih x (hp.2 x)⟩
  | pause p next ih => exact fun w => ih w (hp w)

/-- Along its behaviours all is as the program has it. -/
theorem Proper.of_leads {pace : Pace} {t u : Trace} (leads : p.Leads pace t q u)
    (h : p.Proper c run P t.ledger) (before : t.Proper c run) : u.Proper c run := by
  induction leads with
  | here => exact before
  | @ask r next x q t u v answers _ ih =>
    obtain ⟨cs, -, -, rfl⟩ := answers
    obtain ⟨⟨inside, accounts⟩, on⟩ := h
    refine ih ?_ ((before.asked inside accounts).calls cs)
    rw [Trace.ledger_calls, Trace.ledger_asked]
    exact on x
  | @pause p next w q t u v wakes _ ih =>
    obtain ⟨-, y, cs, -, rfl, ⟨-, rfl⟩ | ⟨cs', -, rfl⟩⟩ := wakes
    · refine ih ?_ ((before.cons (by simp)).calls cs)
      rw [Trace.ledger_calls]
      exact h w
    · refine ih ?_ ((((before.cons (by simp)).calls cs').cons (by simp)).calls cs)
      have same : Trace.ledger (.woke w :: Trace.calls cs' ++ .waits p :: t) = t.ledger :=
        Trace.ledger_calls cs' _
      rw [Trace.ledger_calls, same]
      exact h w

end Program

/-! ## Executors -/

/-- If the visit has an operation, the oracle may be asked about it. -/
def Conduct.Allows (c : Conduct) (v : Visit) : Prop :=
  v.operationId.isEmpty = false → c.operations v.operationId

/-- The executor keeps to the conduct, and hands over visits with that ID, and with operations
that the oracle may be asked about. -/
def Execution.Within (c : Conduct) (id : String) : Execution → Prop
  | .finish scene _ => scene.visit.id = id ∧ c.Allows scene.visit
  | .ask a next => c.acts a ∧ ∀ x, (next x).Within c id
  | .pause scene _ next => (scene.visit.id = id ∧ c.Allows scene.visit) ∧ next.Within c id

namespace NodeSpec

/-- The executor of the node keeps to the conduct if it finds a visit that does. -/
def Within (c : Conduct) (n : NodeSpec) : Prop :=
  ∀ scene, c.Allows scene.visit → (n.executor scene).Within c scene.visit.id

/-- The executor of the node leaves the ID of its visit. -/
def KeepsId (n : NodeSpec) : Prop :=
  ∀ scene, (n.executor scene).Everywhere fun s => s.visit.id = scene.visit.id

/-- A node that keeps the ID of its visit is within what is free to all: this says nothing about its
operations. -/
theorem KeepsId.within_free {n : NodeSpec} (h : n.KeepsId) : n.Within .free := by
  intro scene _
  have on (id : String) (e : Execution) (keeps : e.Everywhere (·.visit.id = id)) :
      e.Within .free id := by
    induction e with
    | finish scene outcome => exact ⟨keeps, fun _ => trivial⟩
    | ask a next ih => exact ⟨trivial, fun x => ih x (keeps x)⟩
    | pause scene wait next ih => exact ⟨⟨keeps.1, fun _ => trivial⟩, ih keeps.2⟩
  exact on _ _ (h scene)

end NodeSpec

variable {c : Conduct} {run : String} {l : Ledger}

/-- An executor asks for nothing that is put down in the ledger. It hands over a visit that has its
ID and names an operation that is allowed, which is what the polling after it needs. -/
theorem Execution.Within.program {id : String} {deadline : Option Nat} {e : Execution}
    (h : e.Within c id) : (e.program run deadline).Proper c run
      (fun a l' => (a.1.visit.id = id ∧ c.Allows a.1.visit) ∧ l' = l) l := by
  induction e with
  | finish scene outcome => exact ⟨h, rfl⟩
  | ask act next ih => exact ⟨⟨h.1, trivial⟩, fun x => ih x (h.2 x)⟩
  | pause scene wait next ih =>
    intro w
    cases w with
    | due => exact ih h.2
    | signalled | expired => exact ⟨h.1, rfl⟩

namespace Run

variable {r : Run} {n : NodeSpec} {v : Visit} {f : Failure}

/-- An edit that leaves the ID of the current visit leaves all of them. -/
theorem ids_edit {g : Visit → Visit} (keeps : ∀ v ∈ r.current, (g v).id = v.id) :
    (r.edit g).visits.map Visit.id = r.visits.map Visit.id := by
  rw [visits, visits]
  cases trail : r.trail with
  | nil => simp [edit, trail]
  | cons v rest => simp [r.edit_trail g trail, keeps v (by simp [current, trail])]

/-- It is the run, and its visits are those that were entered. -/
structure Listed (run : String) (r : Run) (l : Ledger) : Prop where
  /-- its ID -/
  id : r.id = run
  /-- its visits -/
  visits : r.visits.map Visit.id = l.entered

/-- The list names visits by their IDs, so it remains true of a visit that keeps its ID. -/
theorem Listed.edit {g : Visit → Visit} (h : Listed run r l)
    (keeps : ∀ v ∈ r.current, (g v).id = v.id) : Listed run (r.edit g) l :=
  ⟨h.id, (ids_edit keeps).trans h.visits⟩

/-! ## Parts of a run -/

/-- To stamp a failure is to ask for the time only. -/
theorem proper_fail (h : Listed run r l) : (r.fail f).Proper c run (Listed run) l :=
  ⟨⟨trivial, trivial⟩, fun _ => h.edit fun _ _ => rfl⟩

/-- The visit keeps its ID when it ends, so the write names the visits that are listed. -/
theorem proper_endWith {s : Status} (h : Listed run r l) :
    (r.endWith f s).Proper c run (Listed run) l := by
  rw [endWith]
  split
  · exact (proper_fail h).bind fun _ _ h => ⟨h.id, h.visits⟩
  · exact ⟨h.id, h.visits⟩

/-- So it does when it is canceled. -/
theorem proper_markCanceled (h : Listed run r l) : r.markCanceled.Proper c run (Listed run) l :=
  ⟨⟨trivial, trivial⟩, fun _ => proper_endWith h⟩

/-- An update names all visits of the run, and these are listed. -/
theorem proper_save (h : Listed run r l) : r.save.Proper c run
    (fun a l => a.2.current = r.current ∧ Listed run a.2 l) l :=
  ⟨⟨trivial, trivial⟩, fun _ => ⟨⟨trivial, h.id, h.visits⟩, fun _ => ⟨rfl, h.id, h.visits⟩⟩⟩

/-- That its answer is overlooked does not change what was asked. -/
theorem proper_saveAnyway (h : Listed run r l) : r.saveAnyway.Proper c run (Listed run) l :=
  (proper_save h).bind fun _ _ h => h.2

section

variable {α : Type} {p : Program (Except Failure α)}

/-- To look at the own signal is proper, -/
theorem proper_unlessCanceled (hp : p.Proper c run (fun _ l' => l' = l) l) :
    (r.unlessCanceled p).Proper c run (fun _ l' => l' = l) l := by
  refine ⟨⟨trivial, trivial⟩, fun signal => ?_⟩
  dsimp only [done_bind]
  split
  · exact rfl
  · exact hp

/-- and so it is to wait for it. -/
theorem proper_pauseFor {w : Wait} (hp : p.Proper c run (fun _ l' => l' = l) l) :
    (r.pauseFor w p).Proper c run (fun _ l' => l' = l) l := by
  intro wake
  cases wake with
  | signalled => exact ⟨⟨trivial, trivial⟩, fun _ => rfl⟩
  | due | expired => exact hp

end

/-- Queries about an operation are proper if the operation is one of those that are allowed to the
run. -/
theorem proper_ask {operation : String} (allowed : c.operations operation) :
    (r.ask operation).Proper c run (fun _ l' => l' = l) l := by
  refine proper_unlessCanceled ⟨⟨allowed, trivial⟩, fun delay => ?_⟩
  cases delay with
  | none => exact ⟨⟨allowed, trivial⟩, fun _ => rfl⟩
  | some ms => exact proper_pauseFor ⟨⟨allowed, trivial⟩, fun _ => rfl⟩

/-- So is polling, by induction on the number of queries that are left. -/
theorem proper_pollFrom {operation : String} (allowed : c.operations operation)
    (left due : Nat) : (r.pollFrom operation left due).Proper c run (fun _ l' => l' = l) l := by
  induction left generalizing due with
  | zero =>
    refine proper_unlessCanceled (proper_pauseFor ?_)
    split
    · exact rfl
    · trivial
  | succ left ih =>
    refine proper_unlessCanceled (proper_pauseFor ⟨⟨trivial, trivial⟩, fun clock => ?_⟩)
    refine (proper_ask allowed).bind fun answer _ same => ?_
    subst same
    cases answer with
    | error f => exact rfl
    | ok answer =>
      dsimp only
      split
      · exact rfl
      · exact ih _

/-- The operation is that of the visit, which allows it. -/
theorem proper_poll (allows : c.Allows v) :
    (r.poll v).Proper c run (fun _ l' => l' = l) l := by
  rw [poll]
  split
  · exact rfl
  · next named =>
    exact ⟨⟨trivial, trivial⟩, fun _ => proper_pollFrom (allows (by simpa using named)) _ _⟩

/-- The node is executed within its bounds, and its visit keeps its ID, which is the one that is
listed as the last. -/
theorem proper_execute (within : n.Within c) (allows : c.Allows v) (h : Listed run r l)
    (here : r.current = some v) : (r.execute n v).Proper c run
      (fun a l => c.Allows a.1 ∧ Listed run a.2.2 l) l := by
  refine ⟨⟨trivial, trivial⟩, fun signal => ?_⟩
  dsimp only [done_bind]
  split
  · exact ⟨allows, h⟩
  · refine ⟨⟨trivial, trivial⟩, fun clock => ⟨⟨trivial, trivial⟩, fun _ => ?_⟩⟩
    obtain ⟨rfl, visits⟩ := h
    refine (within ⟨v, r.context⟩ allows).program.bind ?_
    rintro a l' ⟨⟨same, allows⟩, rfl⟩
    refine ⟨⟨trivial, trivial⟩, fun _ => ⟨allows, ?_⟩⟩
    have edited : Listed r.id (r.edit fun _ => a.1.visit) l' := by
      refine Listed.edit ⟨rfl, visits⟩ fun w hw => ?_
      obtain rfl : v = w := Option.some.inj (here.symm.trans hw)
      exact same
    exact ⟨edited.id, edited.visits⟩

/-- Nothing but the own signal is looked at here. -/
theorem proper_afterFailure (h : Listed run r l) :
    (r.afterFailure f).Proper c run (fun a => Listed run a.2) l := by
  cases f with
  | canceled reason =>
    exact (proper_markCanceled h).bind fun _ _ h => (proper_saveAnyway h).bind fun _ _ h => h
  | persistence detail => exact (proper_endWith h).bind fun _ _ h => h
  | _ => exact h

/-- The failed visit is written as one of those that are listed, -/
theorem proper_failWith (h : Listed run r l) :
    (r.failWith f).Proper c run (fun a => Listed run a.2) l :=
  (proper_fail h).bind fun _ _ h => proper_afterFailure h

/-- and so is the finished one. -/
theorem proper_succeedWith {payload : Option String} (h : Listed run r l) :
    (r.succeedWith payload).Proper c run (fun a => Listed run a.2) l :=
  ⟨⟨trivial, trivial⟩, fun _ => h.edit fun _ _ => rfl⟩

/-- If the visit is polled its operation is allowed; otherwise nothing but writes are left. -/
theorem proper_settleVisit (allows : c.Allows v) (h : Listed run r l) :
    (r.settleVisit n v).Proper c run (fun a => Listed run a.2) l := by
  rw [settleVisit]
  split
  · exact proper_succeedWith h
  · split
    · exact h
    · refine (proper_poll allows).bind fun result _ same => ?_
      subst same
      cases result with
      | ok payload => exact proper_succeedWith h
      | error f => exact proper_failWith h

/-- A step takes a new ID, creates a visit by it and lists it. The ID is not used up by a visit that
could not be created, but then it is never tried again, as the next step takes another one. -/
theorem proper_step (within : n.Within c) (h : Listed run r l) :
    (r.step n).Proper c run (fun a => Listed run a.2) l := by
  refine ⟨⟨trivial, trivial⟩, fun id => ⟨⟨trivial, trivial⟩, fun now => ?_⟩⟩
  -- the ID that was given a moment ago is that of the new visit
  refine ⟨⟨trivial, h.id, rfl⟩, fun created => ?_⟩
  have entered {v : Visit} (same : v.id = id) :
      Listed run (r.enter v) ⟨none, l.entered ++ [id]⟩ :=
    ⟨h.id, by simp [h.visits, same]⟩
  have snapshot {v : Visit} (same : v.id = id) :
      Listed run (r.enter v).takeSnapshot ⟨none, l.entered ++ [id]⟩ :=
    ⟨h.id, (entered same).visits⟩
  dsimp only [done_bind]
  split
  · exact proper_afterFailure (entered rfl)
  · refine (proper_save (snapshot rfl)).bind ?_
    rintro ⟨saved, r'⟩ l' ⟨here, h⟩
    dsimp only
    split
    · exact proper_failWith h
    · have named {v : Visit} (none : v.operationId = "") : c.Allows v := by
        intro named
        simp [none] at named
      refine (proper_execute within (named rfl) h here).bind ?_
      rintro ⟨v, failure, r⟩ l' ⟨allows, h⟩
      cases failure with
      | some f => exact proper_failWith h
      | none => exact proper_settleVisit allows h

/-! ## The whole run -/

/-- At the end of the path the visits that are listed are written once more. -/
theorem proper_arrive {ok : Bool} (h : Listed run r l) :
    (r.arrive ok).Proper c run (fun a => Listed run a.2) l := by
  refine ⟨⟨trivial, trivial⟩, fun _ => ⟨⟨trivial, trivial⟩, fun signal => ?_⟩⟩
  dsimp only [done_bind]
  split
  · exact (proper_markCanceled h).bind fun _ _ h => h
  · change Listed run (if r.record.status = .canceled then r else r.withStatus .finished) l
    split
    · exact h
    · exact ⟨h.id, h.visits⟩

/-- By induction over the nodes that are left, each step finds the ledger as the last one has left
it: all visits listed and no ID unused. -/
theorem proper_walk {nodes : List NodeSpec} {target : Option String} {ok : Bool}
    (within : ∀ n ∈ nodes, n.Within c) (h : Listed run r l) :
    (walk nodes target ok r).Proper c run (fun a => Listed run a.2) l := by
  induction nodes generalizing target ok r l with
  | nil => exact proper_arrive h
  | cons n nodes ih =>
    obtain ⟨here, behind⟩ := List.forall_mem_cons.1 within
    cases target with
    | none => exact proper_arrive h
    | some name =>
      rw [walk]
      split
      · refine ⟨⟨trivial, trivial⟩, fun _ => ⟨⟨trivial, trivial⟩, fun signal => ?_⟩⟩
        dsimp only [done_bind]
        split
        · exact (proper_markCanceled h).bind fun _ _ h =>
            (proper_saveAnyway h).bind fun _ _ h => h
        · refine (proper_step here h).bind ?_
          rintro ⟨course, r⟩ l h
          cases course with
          | advance => exact ih behind h
          | recover => exact ih behind ⟨h.id, h.visits⟩
          | stop => exact h
      · exact ih behind h

/-- The last write names the same visits. -/
theorem proper_close {ok : Bool} (h : Listed run r l) :
    (r.close ok).Proper c run (fun a => Listed run a.2) l := by
  have completes {r : Run} {l : Ledger} (h : Listed run r l) :
      ((r.complete ok).saveAnyway.bind fun r => done (ok, r)).Proper c run
        (fun a => Listed run a.2) l := by
    have completed : Listed run (r.complete ok) l := by
      rw [complete]
      split
      · exact h
      · exact ⟨h.id, h.visits⟩
    exact (proper_saveAnyway completed).bind fun _ _ h => h
  refine ⟨⟨trivial, trivial⟩, fun signal => ?_⟩
  dsimp only [done_bind, pure_eq, bind_eq]
  split
  · exact (proper_markCanceled h).bind fun _ _ h => completes h
  · exact completes h

/-- A run that has no visits begins with an empty ledger and keeps it. -/
theorem proper_start (fresh : r.trail = []) (within : ∀ n ∈ r.definition.nodes, n.Within c) :
    r.start.Proper c r.id (fun a => Listed r.id a.2) ⟨none, []⟩ := by
  have begun : Listed r.id (r.withStatus .processing) ⟨none, []⟩ :=
    ⟨rfl, by simp [visits, withStatus, fresh]⟩
  exact (proper_walk within begun).bind fun _ _ h => proper_close h

/-! ## Behaviours -/

/-- In no behaviour does the run leave the conduct. -/
def KeepsTo (r : Run) (c : Conduct) : Prop :=
  ∀ before q u, r.start.Leads .slow (.calls before) q u → ∀ e ∈ u, e.Within c

variable {before : List SignalCall} {pace : Pace} {q : Program (Bool × Run)} {u : Trace}

/-- So all that it does is proper, at any time and whatever it is answered. -/
theorem proper_of_within (fresh : r.trail = []) (within : ∀ n ∈ r.definition.nodes, n.Within c)
    (leads : r.start.Leads pace (.calls before) q u) : u.Proper c r.id := by
  have called : (Trace.calls before).Proper c r.id := by
    simpa using Trace.Proper.nil.calls before
  have nothing : (Trace.calls before).ledger = ⟨none, []⟩ := by
    simpa [Trace.ledger, Trace.unused?, Trace.entered] using Trace.ledger_calls before []
  exact Proper.of_leads leads (nothing ▸ proper_start fresh within) called

/-- A run keeps to the conduct of its executors. -/
theorem keepsTo_of_executors (fresh : r.trail = [])
    (within : ∀ n ∈ r.definition.nodes, n.Within c) : r.KeepsTo c :=
  fun _ _ _ leads => (proper_of_within fresh within leads).within

/-- Whatever happens, a run accounts for its visits. -/
theorem proper_of_leads (fresh : r.trail = []) (keepsIds : ∀ n ∈ r.definition.nodes, n.KeepsId)
    (leads : r.start.Leads pace (.calls before) q u) : u.Proper .free r.id :=
  proper_of_within fresh (fun n hn => (keepsIds n hn).within_free) leads

end Run

end Runbook
