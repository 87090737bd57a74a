import Runbook.Proofs.Performance

/-!
# A canceled run ends at its next turn

A run waits only while its executor works and while it polls. Once its signal has fired it begins
neither, and whatever wait the signal ends is the last one.

* `Program.Still` — a program that never waits.
* `Program.Alert` — where the signal ends a wait, the rest of the program is still.
* `Program.Brisk` — a program that does not wait if the signal has fired.
* `Run.alert_start`, `Run.brisk_start` — so it is with every run.
* `Program.Still.exists_ended`, `Program.Brisk.exists_ended` — such programs are carried on to their
  ends at once.
-/

namespace Runbook

open Program

/-- Whether a request can be answered so after the signal of the run has fired. -/
def Request.Tells (run : String) : (r : Request) → r.Answer → Prop
  | .signal id, s => id = run → Signal.fired s = true
  | _, _ => True

namespace Program

variable {α β : Type} {run : String}

/-- The program asks, but never waits, and ends with a value that meets the condition. -/
def Still : Program α → (α → Prop) → Prop
  | .done a, Q => Q a
  | .panic, _ => False
  | .ask _ next, Q => ∀ x, (next x).Still Q
  | .pause .., _ => False

/-- So it does if the signal of the run has fired. -/
def Brisk (run : String) : Program α → (α → Prop) → Prop
  | .done a, Q => Q a
  | .panic, _ => False
  | .ask r next, Q => ∀ x, r.Tells run x → (next x).Brisk run Q
  | .pause .., _ => False

/-- Where the signal ends a wait of the program, the rest of it is still, with values that meet the
second condition. All values meet the first one. -/
def Alert : Program α → (α → Prop) → (α → Prop) → Prop
  | .done a, A, _ => A a
  | .panic, _, _ => True
  | .ask _ next, A, B => ∀ x, (next x).Alert A B
  | .pause _ next, A, B => (next .signalled).Still B ∧ ∀ w, (next w).Alert A B

variable {p : Program α} {f : α → Program β} {P Q A B : α → Prop} {R C : β → Prop}

/-! ## Composition -/

/-- The second part of a program counts as well. If the first one waits neither side holds, and if
it panics neither does. -/
theorem still_bind : (p.bind f).Still R ↔ p.Still fun a => (f a).Still R := by
  induction p with
  | done a => rfl
  | panic => rfl
  | ask r next ih => exact forall_congr' ih
  | pause p next ih => rfl

/-- So it is if the signal has fired: what the first part was told of it does not matter to the
second part, which asks for itself. -/
theorem brisk_bind : (p.bind f).Brisk run R ↔ p.Brisk run fun a => (f a).Brisk run R := by
  induction p with
  | done a => rfl
  | panic => rfl
  | ask r next ih => exact forall_congr' fun x => imp_congr_right fun _ => ih x
  | pause p next ih => rfl

/-- A wait of the first part that the signal ends is followed by the rest of both, and so both rests
are to be still then. -/
theorem alert_bind : (p.bind f).Alert R C ↔
    p.Alert (fun a => (f a).Alert R C) fun a => (f a).Still C := by
  induction p with
  | done a => rfl
  | panic => rfl
  | ask r next ih => exact forall_congr' ih
  | pause p next ih => exact and_congr still_bind (forall_congr' ih)

/-- The values may meet a weaker condition, -/
theorem Still.mono (h : p.Still P) (imp : ∀ a, P a → Q a) : p.Still Q := by
  induction p with
  | done a => exact imp a h
  | panic => exact h
  | ask r next ih => exact fun x => ih x (h x)
  | pause p next ih => exact h

/-- also if the signal has fired. -/
theorem Brisk.mono (h : p.Brisk run P) (imp : ∀ a, P a → Q a) : p.Brisk run Q := by
  induction p with
  | done a => exact imp a h
  | panic => exact h
  | ask r next ih => exact fun x tells => ih x (h x tells)
  | pause p next ih => exact h

/-- What never waits does not do so after a signal. -/
theorem Still.brisk (h : p.Still Q) : p.Brisk run Q := by
  induction p with
  | done a => exact h
  | panic => exact h
  | ask r next ih => exact fun x _ => ih x (h x)
  | pause p next ih => exact h

/-- What never waits has no wait that the signal could end, and so it does not matter what is to
hold after one. -/
theorem Still.alert (h : p.Still A) : p.Alert A B := by
  induction p with
  | done a => exact h
  | panic => trivial
  | ask r next ih => exact fun x => ih x (h x)
  | pause p next ih => exact h.elim

/-- Both conditions may be weakened. -/
theorem Alert.mono (h : p.Alert P Q) (first : ∀ a, P a → A a) (second : ∀ a, Q a → B a) :
    p.Alert A B := by
  induction p with
  | done a => exact first a h
  | panic => trivial
  | ask r next ih => exact fun x => ih x (h x)
  | pause p next ih => exact ⟨h.1.mono second, fun w => ih w (h.2 w)⟩

/-- What is alert stays so. -/
theorem Alert.of_leads {pace : Pace} {q : Program α} {t u : Trace} (h : p.Alert A B)
    (leads : p.Leads pace t q u) : q.Alert A B := by
  induction leads with
  | here => exact h
  | ask _ _ ih => exact ih (h _)
  | pause _ _ ih => exact ih (h.2 _)

/-! ## Carrying on -/

section

variable {σ : Type} [Store σ]

/-- A program that does not wait is carried on to its end. -/
theorem Still.exists_ended (still : p.Still Q) (h : Host σ) :
    ∃ a, (h.advance p).1 = .ended a ∧ Q a := by
  induction p generalizing h with
  | done a => exact ⟨a, rfl, still⟩
  | panic => exact still.elim
  | ask r next ih => exact ih _ (still _) _
  | pause p next ih => exact still.elim

/-- A signal that has fired says so. -/
theorem tells_answer {h : Host σ} (fired : (h.signal run).fired = true) (r : Request) :
    r.Tells run (h.answer r).1 := by
  cases r with
  | signal id =>
    intro same
    subst same
    exact fired
  | _ => trivial

/-- So it is if the signal of the run has fired. -/
theorem Brisk.exists_ended (brisk : p.Brisk run Q) {h : Host σ}
    (fired : (h.signal run).fired = true) : ∃ a, (h.advance p).1 = .ended a ∧ Q a := by
  induction p generalizing h with
  | done a => exact ⟨a, rfl, brisk⟩
  | panic => exact brisk.elim
  | ask r next ih =>
    obtain ⟨cs, calls, -⟩ := Host.exists_calls_answer run h r
    exact ih _ (brisk _ (tells_answer fired r)) (Host.fired_of_calls calls fired)
  | pause p next ih => exact brisk.elim

end

end Program

/-! ## Executors -/

/-- An executor that the signal interrupts is left at once. -/
theorem Execution.alert_program {run : String} {deadline : Option Nat} (e : Execution) :
    (e.program run deadline).Alert (fun _ => True) (·.2 = .canceled) := by
  induction e with
  | finish scene outcome => trivial
  | ask act next ih => exact fun x => ih x
  | pause scene wait next ih =>
    refine ⟨rfl, fun w => ?_⟩
    cases w with
    | due => exact ih
    | signalled | expired => trivial

namespace Run

variable {α : Type} {r : Run} {n : NodeSpec} {v : Visit} {run : String}

/-! ## Writing down what has happened -/

/-- A failure is stamped with the time, -/
theorem still_fail (f : Failure) : (r.fail f).Still fun _ => True := fun _ => trivial

/-- and at the end nothing but the time is asked for, too. -/
theorem still_endWith (f : Failure) (s : Status) : (r.endWith f s).Still fun _ => True := by
  rw [endWith]
  split
  · exact fun _ => trivial
  · trivial

/-- A cancellation marks records. -/
theorem still_markCanceled : r.markCanceled.Still fun _ => True :=
  fun _ => still_endWith _ _

/-- The store is asked once, and answers whatever it has come to: -/
theorem still_save : r.save.Still fun _ => True := fun _ _ => trivial

/-- there is no second try after a wait. -/
theorem still_saveAnyway : r.saveAnyway.Still fun _ => True := fun _ _ => trivial

/-- A node that has finished is written down, -/
theorem still_succeedWith (payload : Option String) :
    (r.succeedWith payload).Still fun _ => True := fun _ => trivial

/-- and so is a run that stops between two nodes. -/
theorem still_stopCanceled : r.stopCanceled.Still fun _ => True := by
  refine still_bind.2 (still_markCanceled.mono fun r _ => ?_)
  exact still_bind.2 (still_saveAnyway.mono fun _ _ => trivial)

/-- After a failure the records are marked and written, or nothing is done at all, -/
theorem still_afterFailure (f : Failure) : (r.afterFailure f).Still fun _ => True := by
  cases f with
  | canceled reason =>
    refine still_bind.2 (still_markCanceled.mono fun r _ => ?_)
    exact still_bind.2 (still_saveAnyway.mono fun _ _ => trivial)
  | persistence detail => exact still_bind.2 ((still_endWith _ _).mono fun _ _ => trivial)
  | _ => trivial

/-- and this is all that is left to do for a node that has failed. -/
theorem still_failWith (f : Failure) : (r.failWith f).Still fun _ => True :=
  still_bind.2 ((still_fail f).mono fun _ _ => still_afterFailure f)

/-- A node that was canceled is the last one. -/
theorem still_failWith_canceled (reason : String) :
    (r.failWith (.canceled reason)).Still (·.1 = .stop) := by
  refine still_bind.2 ((still_fail _).mono fun r _ => ?_)
  refine still_bind.2 (still_markCanceled.mono fun r _ => ?_)
  exact still_bind.2 (still_saveAnyway.mono fun _ _ => rfl)

/-- At the end of a run the records are written for the last time, -/
theorem still_close (ok : Bool) : (r.close ok).Still fun _ => True := by
  intro signal
  dsimp only [done_bind]
  split
  · refine still_bind.2 (still_markCanceled.mono fun r _ => ?_)
    exact still_bind.2 (still_saveAnyway.mono fun _ _ => trivial)
  · exact still_bind.2 (still_saveAnyway.mono fun _ _ => trivial)

/-- and at the end of the path even less happens. -/
theorem still_arrive (ok : Bool) : (r.arrive ok).Still fun _ => True := by
  intro _ signal
  dsimp only [done_bind]
  split
  · exact still_bind.2 (still_markCanceled.mono fun _ _ => trivial)
  · trivial

/-! ## Polling -/

/-- A value that tells of a cancellation. -/
def IsCanceled : Except Failure α → Prop
  | .error (.canceled _) => True
  | _ => False

section

variable {p : Program (Except Failure α)}

/-- To look at the signal first is no wait, and what is done after it has fired is none, either. -/
theorem alert_unlessCanceled (h : p.Alert (fun _ => True) IsCanceled) :
    (r.unlessCanceled p).Alert (fun _ => True) IsCanceled := by
  intro signal
  dsimp only [done_bind]
  split
  · trivial
  · exact h

/-- A wait that the signal ends comes to a cancellation there and then. This is the one place where
polling waits. -/
theorem alert_pauseFor {w : Wait} (h : p.Alert (fun _ => True) IsCanceled) :
    (r.pauseFor w p).Alert (fun _ => True) IsCanceled := by
  refine ⟨fun _ => trivial, fun wake => ?_⟩
  cases wake with
  | signalled => exact fun _ => trivial
  | due | expired => exact h

end

/-- An answer that takes its time is waited for in that way. -/
theorem alert_ask (operation : String) :
    (r.ask operation).Alert (fun _ => True) IsCanceled := by
  apply alert_unlessCanceled
  intro delay
  cases delay with
  | none => exact fun _ => trivial
  | some ms => exact alert_pauseFor fun _ => trivial

/-- By induction on the queries that are left: if the wait for an answer is canceled, no further
round begins, as the failure is handed on. -/
theorem alert_pollFrom (operation : String) (left due : Nat) :
    (r.pollFrom operation left due).Alert (fun _ => True) IsCanceled := by
  induction left generalizing due with
  | zero =>
    apply alert_unlessCanceled
    apply alert_pauseFor
    split <;> trivial
  | succ left ih =>
    apply alert_unlessCanceled
    apply alert_pauseFor
    intro clock
    dsimp only [done_bind]
    refine alert_bind.2 ((alert_ask operation).mono ?_ ?_)
    · intro answer _
      cases answer with
      | error f => trivial
      | ok answer =>
        dsimp only
        split
        · trivial
        · exact ih _
    · intro answer canceled
      cases answer with
      | error f => cases f with
        | canceled reason => trivial
        | _ => exact canceled.elim
      | ok answer => exact canceled.elim

/-- So polling is alert, and one without an operation does not wait at all. -/
theorem alert_poll : (r.poll v).Alert (fun _ => True) IsCanceled := by
  rw [poll]
  split
  · trivial
  · exact fun clock => alert_pollFrom _ _ _

/-! ## One node -/

/-- An executor that is interrupted leaves the node with a cancellation, whose reason is read from
the signal after it. -/
theorem alert_execute : (r.execute n v).Alert (fun _ => True)
    fun left => ∃ reason, left.2.1 = some (.canceled reason) := by
  intro signal
  dsimp only [done_bind]
  split
  · trivial
  · intro clock _
    dsimp only [done_bind]
    refine alert_bind.2 ((Execution.alert_program _).mono ?_ ?_)
    · exact fun _ _ _ => trivial
    · rintro ⟨scene, closing⟩ canceled signal
      obtain rfl : closing = .canceled := canceled
      exact ⟨signal.reason, rfl⟩

/-- A visit that is canceled while it is polled fails, and the run stops with it. In all other cases
what is left to do is still. -/
theorem alert_settleVisit : (r.settleVisit n v).Alert (fun _ => True) (·.1 = .stop) := by
  rw [settleVisit]
  split
  · exact (still_succeedWith none).alert
  · split
    · trivial
    · refine alert_bind.2 (alert_poll.mono ?_ ?_)
      · intro result _
        cases result with
        | ok payload => exact (still_succeedWith payload).alert
        | error f => exact (still_failWith f).alert
      · intro result canceled
        cases result with
        | ok payload => exact canceled.elim
        | error f =>
          cases f with
          | canceled reason => exact still_failWith_canceled reason
          | _ => exact canceled.elim

/-- A node whose wait the signal ends is the last one. -/
theorem alert_step : (r.step n).Alert (fun _ => True) (·.1 = .stop) := by
  intro id now created
  dsimp only [done_bind]
  split
  · exact (still_afterFailure _).alert
  · refine alert_bind.2 (still_save.alert.mono ?_ fun _ => False.elim)
    rintro ⟨saved, r⟩ -
    dsimp only
    split
    · exact (still_failWith _).alert
    · refine alert_bind.2 (alert_execute.mono ?_ ?_)
      · rintro ⟨v, failure, r⟩ -
        cases failure with
        | some f => exact (still_failWith f).alert
        | none => exact alert_settleVisit
      · rintro ⟨v, failure, r⟩ ⟨reason, canceled⟩
        obtain rfl : failure = some (.canceled reason) := canceled
        exact still_failWith_canceled reason

/-! ## The whole run -/

/-- By induction over the nodes that are left. A node whose wait the signal ends stops the walk, so
no later node can wait; after the others the walk goes on and is alert. -/
theorem alert_walk {nodes : List NodeSpec} {target : Option String} {ok : Bool} :
    (walk nodes target ok r).Alert (fun _ => True) fun _ => True := by
  induction nodes generalizing target ok r with
  | nil =>
    rw [walk]
    exact (still_arrive ok).alert
  | cons n nodes ih =>
    cases target with
    | none => exact (still_arrive ok).alert
    | some name =>
      rw [walk]
      split
      · intro _ signal
        dsimp only [done_bind]
        split
        · exact still_stopCanceled.alert
        · refine alert_bind.2 (alert_step.mono ?_ ?_)
          · rintro ⟨course, r⟩ -
            cases course with
            | advance | recover => exact ih
            | stop => trivial
          · rintro ⟨course, r⟩ stop
            obtain rfl : course = .stop := stop
            trivial
      · exact ih

/-- Where the signal ends a wait of a run, the run waits no more. -/
theorem alert_start : r.start.Alert (fun _ => True) fun _ => True := by
  apply alert_bind.2
  exact alert_walk.mono (fun walked _ => (still_close walked.1).alert) fun walked _ =>
    still_close walked.1

/-- Nothing has to be known about the nodes here: the walk looks at the signal before the first node
that it comes to, and ends there. -/
theorem brisk_walk {nodes : List NodeSpec} {target : Option String} {ok : Bool}
    (own : r.id = run) : (walk nodes target ok r).Brisk run fun _ => True := by
  induction nodes generalizing target with
  | nil =>
    rw [walk]
    exact (still_arrive ok).brisk
  | cons n nodes ih =>
    cases target with
    | none => exact (still_arrive ok).brisk
    | some name =>
      rw [walk]
      split
      · intro _ _ signal fired
        have fired : Signal.fired signal = true := fired own
        dsimp only [done_bind]
        rw [if_pos fired]
        exact still_stopCanceled.brisk
      · exact ih

/-- A run whose signal has fired before it begins does not wait. -/
theorem brisk_start : r.start.Brisk r.id fun _ => True := by
  have own : (r.withStatus .processing).id = r.id := rfl
  apply brisk_bind.2
  exact (brisk_walk own).mono fun walked _ => (still_close walked.1).brisk

end Run

end Runbook
