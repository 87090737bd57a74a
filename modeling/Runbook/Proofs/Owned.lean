import Runbook.Run.Walk

/-!
# Programs of one run

A run looks at its own signal only, and its executors act on its behalf.

* `Program.Owned` — every request and every wait of a program is on behalf of one
  run, and a condition holds of its values.
* `Run.owned_start` — a run that is executed asks on its own behalf.
-/

namespace Runbook

/-- Whether a request is on behalf of a run, if it is on behalf of any. -/
def Request.IsFor (run : String) : Request → Prop
  | .signal id | .between id | .atWork id _ | .act id _ => id = run
  | .createVisit v => v.parentId = run
  | .update r _ => r.id = run
  | _ => True

namespace Program

variable {α β : Type} {run : String}

/-- All that the program asks and waits for is on behalf of the run, and its values
meet the condition. -/
def Owned (run : String) : Program α → (α → Prop) → Prop
  | .done a, Q => Q a
  | .panic, _ => True
  | .ask r next, Q => r.IsFor run ∧ ∀ x, (next x).Owned run Q
  | .pause p next, Q => p.run = run ∧ ∀ w, (next w).Owned run Q

/-- The values of the first part are handed to the second one. -/
theorem owned_bind {p : Program α} {f : α → Program β} {Q : β → Prop} :
    (p.bind f).Owned run Q ↔ p.Owned run fun a => (f a).Owned run Q := by
  induction p with
  | done a => rfl
  | panic => rfl
  | ask r next ih => exact and_congr_right fun _ => forall_congr' ih
  | pause p next ih => exact and_congr_right fun _ => forall_congr' ih

/-- A request at the beginning is to be on behalf of the run, whatever the answer is. -/
theorem owned_request {r : Request} {f : r.Answer → Program β} {Q : β → Prop} :
    ((request r).bind f).Owned run Q ↔ r.IsFor run ∧ ∀ x, (f x).Owned run Q := .rfl

/-- The values may meet a weaker condition. -/
theorem Owned.mono {p : Program α} {P Q : α → Prop} (h : p.Owned run P) (imp : ∀ a, P a → Q a) :
    p.Owned run Q := by
  induction p with
  | done a => exact imp a h
  | panic => trivial
  | ask r next ih => exact ⟨h.1, fun x => ih x (h.2 x)⟩
  | pause p next ih => exact ⟨h.1, fun w => ih w (h.2 w)⟩

end Program

open Program

/-- An executor does not say for whom it acts: its acts and waits are made on behalf of the run that
carries it out. -/
theorem Execution.owned_program {run : String} {deadline : Option Nat} (e : Execution) :
    (e.program run deadline).Owned run fun _ => True := by
  induction e with
  | finish scene outcome => trivial
  | ask act next ih => exact ⟨rfl, ih⟩
  | pause scene wait next ih =>
    refine ⟨rfl, fun w => ?_⟩
    cases w with
    | due => exact ih
    | _ => trivial

namespace Run

variable {r : Run} {n : NodeSpec} {v : Visit} {run : String}

/-! ## Records -/

/-- A failure is stamped with the time, which is on nobody's behalf. -/
theorem owned_fail {f : Failure} (h : r.id = run) : (r.fail f).Owned run (·.id = run) :=
  owned_request.2 ⟨trivial, fun _ => h⟩

/-- A run that ends has the ID that it had, -/
theorem owned_endWith {f : Failure} {s : Status} (h : r.id = run) :
    (r.endWith f s).Owned run (·.id = run) := by
  rw [endWith]
  split
  · exact owned_bind.2 ((owned_fail h).mono fun _ h' => h')
  · exact h

/-- also if it is canceled. -/
theorem owned_markCanceled (h : r.id = run) : r.markCanceled.Owned run (·.id = run) :=
  owned_request.2 ⟨h, fun _ => owned_endWith h⟩

/-- The record is written under its own ID, and the visits along with it, -/
theorem owned_save (h : r.id = run) : r.save.Owned run (·.2.id = run) :=
  owned_request.2 ⟨trivial, fun _ => owned_request.2 ⟨h, fun _ => h⟩⟩

/-- whatever the store says. -/
theorem owned_saveAnyway (h : r.id = run) : r.saveAnyway.Owned run (·.id = run) :=
  owned_bind.2 ((owned_save h).mono fun _ h' => h')

/-! ## Polling -/

variable {α : Type} {p : Program (Except Failure α)}

/-- A run looks at no signal but its own, -/
theorem owned_unlessCanceled (h : r.id = run) (hp : p.Owned run fun _ => True) :
    (r.unlessCanceled p).Owned run fun _ => True := by
  refine owned_request.2 ⟨h, fun signal => ?_⟩
  split
  · trivial
  · exact hp

/-- and waits for no other. -/
theorem owned_pauseFor {w : Wait} (h : r.id = run) (hp : p.Owned run fun _ => True) :
    (r.pauseFor w p).Owned run fun _ => True := by
  refine ⟨h, fun wake => ?_⟩
  cases wake with
  | signalled => exact owned_request.2 ⟨h, fun _ => trivial⟩
  | _ => exact hp

/-- Queries name an operation and no run. -/
theorem owned_ask {operation : String} (h : r.id = run) :
    (r.ask operation).Owned run fun _ => True := by
  refine owned_unlessCanceled h (owned_request.2 ⟨trivial, fun delay => ?_⟩)
  have answer : ((request (.query operation)).bind fun x =>
      done (.ok x : Except Failure Answer)).Owned run fun _ => True :=
    owned_request.2 ⟨trivial, fun _ => trivial⟩
  cases delay with
  | none => exact answer
  | some ms => exact owned_pauseFor h answer

/-- So polling looks at its own signal, time and again, -/
theorem owned_pollFrom {operation : String} (left due : Nat) (h : r.id = run) :
    (r.pollFrom operation left due).Owned run fun _ => True := by
  induction left generalizing due with
  | zero =>
    refine owned_unlessCanceled h (owned_pauseFor h ?_)
    split
    · trivial
    · trivial
  | succ left ih =>
    refine owned_unlessCanceled h (owned_pauseFor h ?_)
    refine owned_request.2 ⟨trivial, fun clock => owned_bind.2 ?_⟩
    refine (owned_ask h).mono fun answer _ => ?_
    cases answer with
    | error f => trivial
    | ok answer =>
      dsimp only
      split
      · trivial
      · exact ih _

/-- from the first query on. -/
theorem owned_poll (h : r.id = run) : (r.poll v).Owned run fun _ => True := by
  rw [poll]
  split
  · trivial
  · exact owned_request.2 ⟨trivial, fun _ => owned_pollFrom _ _ h⟩

/-! ## One node -/

/-- The executor works in the name of the run, and afterwards the signal of the run is read
again. -/
theorem owned_execute (h : r.id = run) : (r.execute n v).Owned run (·.2.2.id = run) := by
  refine owned_request.2 ⟨h, fun signal => ?_⟩
  split
  · exact h
  · refine owned_request.2 ⟨trivial, fun clock => owned_request.2 ⟨h, fun _ => owned_bind.2 ?_⟩⟩
    rw [h]
    exact (Execution.owned_program _).mono fun _ _ => owned_request.2 ⟨h, fun _ => h⟩

/-- Whether the run was canceled is read from its own signal. -/
theorem owned_afterFailure {f : Failure} (h : r.id = run) :
    (r.afterFailure f).Owned run (·.2.id = run) := by
  cases f with
  | canceled reason =>
    refine owned_bind.2 ((owned_markCanceled h).mono fun r' h' => ?_)
    exact owned_bind.2 ((owned_saveAnyway h').mono fun _ h'' => h'')
  | persistence detail => exact owned_bind.2 ((owned_endWith h).mono fun _ h' => h')
  | _ => exact h

/-- The failure is put down in its own record, -/
theorem owned_failWith {f : Failure} (h : r.id = run) :
    (r.failWith f).Owned run (·.2.id = run) :=
  owned_bind.2 ((owned_fail h).mono fun _ h' => owned_afterFailure h')

/-- as is the end of a visit. -/
theorem owned_succeedWith {payload : Option String} (h : r.id = run) :
    (r.succeedWith payload).Owned run (·.2.id = run) :=
  owned_request.2 ⟨trivial, fun _ => h⟩

/-- However a visit ends, this goes on in its own name. -/
theorem owned_settleVisit (h : r.id = run) : (r.settleVisit n v).Owned run (·.2.id = run) := by
  rw [settleVisit]
  split
  · exact owned_succeedWith h
  · split
    · exact h
    · refine owned_bind.2 ((owned_poll h).mono fun result _ => ?_)
      cases result with
      | ok payload => exact owned_succeedWith h
      | error f => exact owned_failWith h

/-- The new visit is created under the run. Its ID is a new one and belongs to nobody before. -/
theorem owned_step (h : r.id = run) : (r.step n).Owned run (·.2.id = run) := by
  refine owned_request.2 ⟨trivial, fun id => owned_request.2 ⟨trivial, fun now =>
    owned_request.2 ⟨h, fun created => ?_⟩⟩⟩
  split
  · exact owned_afterFailure h
  · have begun (v : Visit) : (r.enter v).takeSnapshot.id = run := h
    refine owned_bind.2 ((owned_save (begun _)).mono fun (saved, r) h => ?_)
    dsimp only
    split
    · exact owned_failWith h
    · refine owned_bind.2 ((owned_execute h).mono fun (v, failure, r) h => ?_)
      cases failure with
      | some f => exact owned_failWith h
      | none => exact owned_settleVisit h

/-! ## The whole run -/

/-- A run looks at its own signal. -/
theorem owned_look {Q : Signal → Prop} (h : r.id = run) (hQ : ∀ s, Q s) : r.look.Owned run Q :=
  owned_request.2 ⟨h, fun _ => ⟨h, hQ⟩⟩

/-- So it does at the end of the path, -/
theorem owned_arrive {ok : Bool} (h : r.id = run) : (r.arrive ok).Owned run (·.2.id = run) := by
  refine owned_bind.2 (owned_look h fun signal => ?_)
  split
  · exact owned_bind.2 ((owned_markCanceled h).mono fun _ h' => h')
  · dsimp only [pure_eq, Owned]
    split
    · exact h
    · exact h

/-- and before each node, by induction over the nodes that are left: no step changes the ID of the
run. -/
theorem owned_walk {nodes : List NodeSpec} {target : Option String} {ok : Bool}
    (h : r.id = run) : (walk nodes target ok r).Owned run (·.2.id = run) := by
  induction nodes generalizing target ok r with
  | nil =>
    rw [walk]
    exact owned_arrive h
  | cons n nodes ih =>
    cases target with
    | none => exact owned_arrive h
    | some name =>
      rw [walk]
      split
      · refine owned_bind.2 (owned_look h fun signal => ?_)
        split
        · refine owned_bind.2 ((owned_markCanceled h).mono fun _ h' => ?_)
          exact owned_bind.2 ((owned_saveAnyway h').mono fun _ h'' => h'')
        · refine owned_bind.2 ((owned_step h).mono fun (course, r) h => ?_)
          cases course with
          | advance => exact ih h
          | recover => exact ih h
          | stop => exact h
      · exact ih h

/-- At the end it looks once more and writes its record. -/
theorem owned_close {ok : Bool} (h : r.id = run) : (r.close ok).Owned run (·.2.id = run) := by
  have completed (r : Run) (h : r.id = run) :
      ((r.complete ok).saveAnyway.bind fun r => done (ok, r)).Owned run (·.2.id = run) := by
    refine owned_bind.2 ((owned_saveAnyway ?_).mono fun _ h' => h')
    rw [complete]
    split
    · exact h
    · exact h
  refine owned_request.2 ⟨h, fun signal => ?_⟩
  dsimp only
  split
  · exact owned_bind.2 ((owned_markCanceled h).mono fun r h => completed r h)
  · exact completed r h

/-- A run that is executed asks on its own behalf, and stays the same run. -/
theorem owned_start : r.start.Owned r.id (·.2.id = r.id) := by
  refine owned_bind.2 (Owned.mono (owned_walk rfl) fun (ok, r') h => ?_)
  exact owned_close h

end Run

end Runbook
