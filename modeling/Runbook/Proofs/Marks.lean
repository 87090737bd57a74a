import Runbook.Proofs.Waiting

/-!
# Marks: writes and starts

What matters of a trace for the records of a run: the writes to its store, and
where an executor began. They are the *marks* of the trace.

* `Trace.marks`, `Trace.Clean` — the marks, and that every write among them worked.
* `Trace.Undivided` — nothing is written while a node is at work: whatever an
  executor does, and whatever a polling node asks and waits for, its executor began
  after the last write.
* `Trace.Marked` — the marks that are left from one trace to a later one.
* `Program.Plain` — programs that leave none: all the work of a node is such a program.
-/

namespace Runbook

/-- Whether a request leaves a mark. -/
def Request.isMark : Request → Bool
  | .createVisit _ | .update .. | .atWork .. => true
  | _ => false

/-- Whether a request belongs to the work of a node: to its executor, or to polling. -/
def Request.isWork : Request → Bool
  | .act .. | .beginQuery _ | .query _ => true
  | _ => false

namespace Incident

/-- Whether it is a write, or the start of an executor. -/
def isMark : Incident → Bool
  | asked r _ => r.isMark
  | _ => false

/-- Whether an executor began. -/
def isStart : Incident → Bool
  | asked (.atWork ..) _ => true
  | _ => false

/-- Whether a node was at work: its executor acted, the oracle was asked, or the run
waited. -/
def isWork : Incident → Bool
  | asked r _ => r.isWork
  | passed .. | waits _ | woke _ => true
  | called _ => false

end Incident

namespace Trace

variable {pace : Pace} {t u v : Trace} {e : Incident}

/-! ## Marks -/

/-- The marks of a trace. -/
def marks (t : Trace) : Trace := t.filter Incident.isMark

/-- Whether an executor has begun since the last write. -/
def occupied (t : Trace) : Bool := t.marks.head?.any Incident.isStart

/-- Nothing is written while a node is at work. -/
def Undivided (t : Trace) : Prop :=
  ∀ (e : Incident) (earlier : Trace), e :: earlier <:+ t → e.isWork → earlier.occupied

/-- Every write worked. -/
def Clean (t : Trace) : Prop := ∀ e ∈ t, e.isFailedWrite = false

instance (t : Trace) : Decidable t.Clean :=
  inferInstanceAs (Decidable (∀ e ∈ t, e.isFailedWrite = false))

@[simp] theorem marks_nil : marks [] = [] := rfl

/-- A mark is added to the marks, -/
theorem marks_cons_of_isMark (h : e.isMark = true) : marks (e :: t) = e :: marks t :=
  List.filter_cons_of_pos h

/-- and anything else leaves them as they are. -/
theorem marks_cons_of_not_isMark (h : e.isMark = false) : marks (e :: t) = marks t :=
  List.filter_cons_of_neg (by simp [h])

@[simp] theorem marks_calls {cs : List SignalCall} : marks (calls cs) = [] := by
  induction cs with
  | nil => rfl
  | cons c cs ih => exact ih

/-- This is told from the end of a trace: what happened last is to have happened at a moment when it
may, and the rest before. -/
theorem undivided_cons :
    Undivided (e :: t) ↔ (e.isWork → t.occupied) ∧ t.Undivided := forall_cons_suffix

/-- Calls of the signal are no work of a node, so they may come at any time. -/
theorem undivided_calls (cs : List SignalCall) : (calls cs).Undivided := by
  induction cs with
  | nil =>
    intro e u h
    simpa using h.length_le
  | cons c cs ih => exact undivided_cons.2 ⟨by simp [Incident.isWork], ih⟩

/-- A write that fails is one. -/
theorem isWrite_of_isFailedWrite (h : e.isFailedWrite = true) : e.isWrite = true := by
  cases e with
  | asked r x =>
    cases r with
    | createVisit v => rfl
    | update r visits => rfl
    | _ => cases h
  | _ => cases h

/-- Every write is a mark. -/
theorem isMark_of_isWrite (h : e.isWrite = true) : e.isMark = true := by
  cases e with
  | asked r x =>
    cases r with
    | createVisit v => rfl
    | update r visits => rfl
    | _ => cases h
  | _ => cases h

/-- So it is a mark, and cannot be missed by who looks at marks only. -/
theorem isMark_of_isFailedWrite (h : e.isFailedWrite = true) : e.isMark = true :=
  isMark_of_isWrite (isWrite_of_isFailedWrite h)

/-- Whether all writes worked is told from one incident after the other, -/
theorem clean_cons : Clean (e :: t) ↔ e.isFailedWrite = false ∧ t.Clean :=
  List.forall_mem_cons

/-- and from the parts of a trace. -/
theorem clean_append : Clean (u ++ t) ↔ u.Clean ∧ t.Clean := List.forall_mem_append

/-- Whether every write worked can be told from any part that has the failed ones. -/
theorem clean_filter {p : Incident → Bool} (failed : ∀ e, e.isFailedWrite = true → p e = true) :
    Clean (t.filter p) ↔ t.Clean := by
  constructor
  · intro h e he
    cases fails : e.isFailedWrite with
    | false => rfl
    | true =>
      rw [← fails]
      exact h e (List.mem_filter.2 ⟨he, failed e fails⟩)
  · exact fun h e he => h e (List.mem_filter.1 he).1

/-- So it can from the marks. -/
theorem clean_marks : t.marks.Clean ↔ t.Clean :=
  clean_filter fun _ => isMark_of_isFailedWrite

/-! ## What is left behind -/

/-- From `t` to the later trace these marks were left, and a node was at work only
after its executor had begun. -/
structure Marked (t ms u : Trace) : Prop where
  /-- the marks -/
  marks : u.marks = ms ++ t.marks
  /-- nothing was written while a node was at work -/
  undivided : t.Undivided → u.Undivided

/-- Nothing leaves no marks, -/
theorem Marked.refl : t.Marked [] t := ⟨rfl, id⟩

/-- and the marks of what comes later stand before those of what came earlier. -/
theorem Marked.trans {ms ms' : Trace} (h : t.Marked ms u) (h' : u.Marked ms' v) :
    t.Marked (ms' ++ ms) v where
  marks := by rw [h'.marks, h.marks, List.append_assoc]
  undivided ht := h'.undivided (h.undivided ht)

/-- An executor that has begun goes on as long as there is no mark. -/
theorem Marked.occupied_eq (h : t.Marked [] u) : u.occupied = t.occupied := by
  rw [occupied, h.marks, List.nil_append, occupied]

/-- What leaves no mark may happen at a moment when it may happen: it does not change the marks, and
so it does not change whether an executor has begun. -/
theorem Marked.unmarked {ms : Trace} (h : t.Marked ms u) (plain : e.isMark = false)
    (work : e.isWork = true → u.occupied = true) : t.Marked ms (e :: u) where
  marks := by rw [marks_cons_of_not_isMark plain, h.marks]
  undivided ht := undivided_cons.2 ⟨work, h.undivided ht⟩

/-- What does not belong to the work of a node may happen at any time. -/
theorem Marked.idle {ms : Trace} (h : t.Marked ms u) (plain : e.isMark = false)
    (idle : e.isWork = false) : t.Marked ms (e :: u) :=
  h.unmarked plain fun work => absurd work (by simp [idle])

/-- Calls of the signal come in between without a mark. -/
theorem Marked.calls {ms : Trace} (h : t.Marked ms u) (cs : List SignalCall) :
    t.Marked ms (calls cs ++ u) := by
  induction cs with
  | nil => exact h
  | cons c cs ih => exact ih.idle rfl rfl

/-- A request leaves its mark. -/
theorem Answers.marked {r : Request} {x : r.Answer} (h : t.Answers pace r x u)
    (mark : r.isMark = true) : t.Marked [.asked r x] u := by
  obtain ⟨cs, -, -, rfl⟩ := h
  have idle : r.isWork = false := by
    cases r with
    | createVisit | update | atWork => rfl
    | _ => cases mark
  refine Marked.calls ⟨marks_cons_of_isMark (e := .asked r x) mark,
    fun ht => undivided_cons.2 ⟨?_, ht⟩⟩ cs
  simp [Incident.isWork, idle]

/-- A request without a mark. -/
theorem Answers.unmarked {r : Request} {x : r.Answer} (h : t.Answers pace r x u)
    (plain : r.isMark = false) (work : r.isWork = true → t.occupied = true) :
    t.Marked [] u := by
  obtain ⟨cs, -, -, rfl⟩ := h
  exact (Marked.refl.unmarked (e := .asked r x) plain work).calls cs

/-- A request that has to do neither with the records nor with the work of a node leaves everything
open. -/
theorem Answers.idle {r : Request} {x : r.Answer} (h : t.Answers pace r x u)
    (plain : r.isMark = false) (idle : r.isWork = false) : t.Marked [] u :=
  h.unmarked plain fun work => absurd work (by simp [idle])

/-- A node that is at work may wait. -/
theorem Wakes.unmarked {p : Pause} {w : Wake} (h : t.Wakes pace p w u)
    (work : t.occupied = true) : t.Marked [] u := by
  obtain ⟨-, v, cs, -, rfl, ⟨-, rfl⟩ | ⟨cs', -, rfl⟩⟩ := h
  · exact (Marked.refl.unmarked rfl fun _ => work).calls cs
  · have waits : t.Marked [] (Trace.calls cs' ++ .waits p :: t) :=
      (Marked.refl.unmarked rfl fun _ => work).calls cs'
    exact (waits.unmarked rfl fun _ => waits.occupied_eq.trans work).calls cs

end Trace

namespace Program

variable {α β : Type} {pace : Pace} {p : Program α} {f : α → Program β} {t : Trace} {work : Bool}

/-! ## Programs without marks -/

/-- The program leaves no marks; unless it may `work`, it also asks nothing that
belongs to the work of a node, and does not wait. -/
def Plain (work : Bool) : Program α → Prop
  | .done _ | .panic => True
  | .ask r next => (r.isMark = false ∧ (r.isWork = true → work = true)) ∧
    ∀ x, (next x).Plain work
  | .pause _ next => work = true ∧ ∀ w, (next w).Plain work

/-- Both parts of a program leave no marks if each does. -/
theorem Plain.bind (hp : p.Plain work) (hf : ∀ a, (f a).Plain work) :
    (p.bind f).Plain work := by
  induction p with
  | done a => exact hf a
  | panic => trivial
  | ask r next ih => exact ⟨hp.1, fun x => ih x (hp.2 x)⟩
  | pause p next ih => exact ⟨hp.1, fun w => ih w (hp.2 w)⟩

/-- A request that leaves none may come first. -/
theorem plain_request {r : Request} {f : r.Answer → Program β}
    (hr : r.isMark = false ∧ (r.isWork = true → work = true)) (hf : ∀ x, (f x).Plain work) :
    ((request r).bind f).Plain work := ⟨hr, hf⟩

/-- A plain program leaves no marks; if it works, it does so where an executor has
begun. -/
theorem Plain.ensures_marked (h : p.Plain work) (begun : work = true → t.occupied = true) :
    p.Ensures pace (fun _ u => t.Marked [] u) t := by
  suffices ∀ u : Trace, t.Marked [] u → p.Ensures pace (fun _ u => t.Marked [] u) u from
    this t .refl
  induction p with
  | done a => exact fun u hu => hu
  | panic => exact fun u hu => hu
  | ask r next ih =>
    intro u hu x v hv
    refine ih x (h.2 x) v (hu.trans (hv.unmarked h.1.1 fun hr => ?_))
    exact hu.occupied_eq.trans (begun (h.1.2 hr))
  | pause p next ih =>
    intro u hu w v hv
    exact ih w (h.2 w) v (hu.trans (hv.unmarked (hu.occupied_eq.trans (begun h.1))))

/-- Where a plain program ends, it may be assumed that there are no new marks. -/
theorem Plain.ensures {Q : Option α → Trace → Prop} (h : p.Plain work)
    (begun : work = true → t.occupied = true)
    (hq : p.Ensures pace (fun o u => t.Marked [] u → Q o u) t) : p.Ensures pace Q t :=
  (hq.and (h.ensures_marked begun)).mono fun _ _ hu => hu.1 hu.2

/-- A plain program that does not work may run at any time. -/
theorem Plain.ensures_idle {Q : Option α → Trace → Prop} (h : p.Plain false)
    (hq : p.Ensures pace (fun o u => t.Marked [] u → Q o u) t) : p.Ensures pace Q t :=
  h.ensures (by simp) hq

end Program

open Program

/-- An executor leaves no marks. -/
theorem Execution.plain_program {run : String} {deadline : Option Nat} (e : Execution) :
    (e.program run deadline).Plain true := by
  induction e with
  | finish scene outcome => trivial
  | ask act next ih => exact ⟨⟨rfl, fun _ => rfl⟩, ih⟩
  | pause scene wait next ih =>
    refine ⟨rfl, fun w => ?_⟩
    cases w with
    | due => exact ih
    | _ => trivial

namespace Run

variable {α : Type} {r : Run} {work : Bool} {p : Program (Except Failure α)}

/-- A failure is put down in the run, and is not written yet. -/
theorem plain_fail {f : Failure} : (r.fail f).Plain work :=
  plain_request ⟨rfl, by simp [Request.isWork]⟩ fun _ => trivial

/-- So it is with the end of a run: the write comes after it, -/
theorem plain_endWith {f : Failure} {s : Status} : (r.endWith f s).Plain work := by
  rw [endWith]
  split
  · exact plain_fail.bind fun _ => trivial
  · trivial

/-- and after a cancellation. -/
theorem plain_markCanceled : r.markCanceled.Plain work :=
  plain_request ⟨rfl, by simp [Request.isWork]⟩ fun _ => plain_endWith

/-! ## Polling -/

/-- To look at the signal is neither a write nor work. -/
theorem plain_unlessCanceled (hp : p.Plain work) : (r.unlessCanceled p).Plain work := by
  refine plain_request ⟨rfl, by simp [Request.isWork]⟩ fun signal => ?_
  split
  · trivial
  · exact hp

/-- To wait is work, so it takes an executor that has begun. -/
theorem plain_pauseFor {w : Wait} (hp : p.Plain true) : (r.pauseFor w p).Plain true := by
  refine ⟨rfl, fun wake => ?_⟩
  cases wake with
  | signalled => exact plain_request ⟨rfl, fun _ => rfl⟩ fun _ => trivial
  | _ => exact hp

/-- So do queries, -/
theorem plain_ask {operation : String} : (r.ask operation).Plain true := by
  refine plain_unlessCanceled (plain_request ⟨rfl, fun _ => rfl⟩ fun delay => ?_)
  have answer : ((request (.query operation)).bind fun x =>
      done (.ok x : Except Failure Answer)).Plain true :=
    plain_request ⟨rfl, fun _ => rfl⟩ fun _ => trivial
  cases delay with
  | none => exact answer
  | some ms => exact plain_pauseFor answer

/-- and polling is queries and waits only, by induction on the queries that are left. Nothing is
written between them. -/
theorem plain_pollFrom {operation : String} (left due : Nat) :
    (r.pollFrom operation left due).Plain true := by
  induction left generalizing due with
  | zero =>
    refine plain_unlessCanceled (plain_pauseFor ?_)
    split
    · trivial
    · trivial
  | succ left ih =>
    refine plain_unlessCanceled (plain_pauseFor ?_)
    refine plain_request ⟨rfl, fun _ => rfl⟩ fun clock => plain_ask.bind fun answer => ?_
    cases answer with
    | error f => trivial
    | ok answer =>
      dsimp only
      split
      · trivial
      · exact ih _

/-- Polling leaves no marks, however many ticks it takes. -/
theorem plain_poll {v : Visit} : (r.poll v).Plain true := by
  rw [poll]
  split
  · trivial
  · exact plain_request ⟨rfl, fun _ => rfl⟩ fun _ => plain_pollFrom _ _

end Run

end Runbook
