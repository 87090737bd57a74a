import Runbook.Program

/-!
# Traces: what happens around a run

A run asks and waits; its surroundings answer and wake it, and call its signal
when they like. What happened so far is a *trace*.

* `SignalCall`, `Incident`, `Trace` — calls of the signal, all that can happen,
  and a list of it, the latest first.
* `Trace.signal` — the signal that the calls of a trace have left.
* `Trace.Answers`, `Trace.Wakes` — how the surroundings may go on after a trace.
  Everything that a request can be answered with is allowed, as long as what is
  said about the signal is true. A run that waits goes on because of its signal
  exactly if that has fired: cancellation goes before all else.
* `Pace` — when others may call the signal. If the store is prompt, that is only
  before the run begins, between two nodes, while an executor works and while the
  run waits.
* `Trace.Heeds` — nothing is begun once the signal has fired.
-/

namespace Runbook

/-- A call of the signal of a run. -/
inductive SignalCall where
  /-- cancel with a reason -/
  | cancel (reason : String)
  /-- fire without a reason -/
  | fire
  deriving DecidableEq, Repr

/-- The signal after a call. -/
def Signal.after (s : Signal) : SignalCall → Signal
  | .cancel reason => s.cancel reason
  | .fire => s.fire

@[simp] theorem Signal.fired_after (s : Signal) (c : SignalCall) : (s.after c).fired = true := by
  cases c <;> rfl

/-- The first reason stays. -/
theorem Signal.note_after {s : Signal} {reason : String} (h : s.note = some reason)
    (c : SignalCall) : (s.after c).note = some reason := by
  cases c <;> simp [after, cancel, fire, h]

/-- Something that happens around a run. -/
inductive Incident where
  /-- the run asked for something and got it -/
  | asked (r : Request) (answer : r.Answer)
  /-- a pause was over when it began, and was passed -/
  | passed (p : Pause) (w : Wake)
  /-- the run began to wait -/
  | waits (p : Pause)
  /-- it went on -/
  | woke (w : Wake)
  /-- the signal of the run was called -/
  | called (c : SignalCall)

/-- What happened so far, the latest first. -/
abbrev Trace := List Incident

namespace Incident

/-- Whether the store was written to, or was to be. -/
def isWrite : Incident → Bool
  | asked (.createVisit _) _ | asked (.update ..) _ => true
  | _ => false

/-- Whether something was begun: a visit, an executor or a query. -/
def begins : Incident → Bool
  | asked (.createVisit _) _ | asked (.atWork ..) _ | asked (.beginQuery _) _
  | asked (.query _) _ => true
  | _ => false

/-- Whether an executor acted. -/
def isAct : Incident → Bool
  | asked (.act ..) _ => true
  | _ => false

/-- Whether it can happen at any time. -/
def isFree : Incident → Bool
  | asked (.createVisit _) _ | asked (.atWork ..) _ | asked (.beginQuery _) _
  | asked (.query _) _ | asked (.act ..) _ | woke .signalled => false
  | _ => true

/-- Whether a write failed. -/
def isFailedWrite : Incident → Bool
  | asked (.createVisit _) (.error _) | asked (.update ..) (.error _) => true
  | _ => false

end Incident

namespace Trace

/-! ## What a trace says -/

/-- The signal that the calls have left. -/
def signal : Trace → Signal
  | [] => .quiet
  | .called c :: t => (signal t).after c
  | _ :: t => signal t

/-- The calls as a trace; the latest is the first. -/
def calls (cs : List SignalCall) : Trace := cs.map .called

/-- The reason of the first call that gave one. -/
def firstReason? : Trace → Option String
  | [] => none
  | .called (.cancel reason) :: t => (firstReason? t).or (some reason)
  | _ :: t => firstReason? t

/-- The last write to the store. -/
def lastWrite? (t : Trace) : Option Incident := t.find? Incident.isWrite

/-- Whether a node is at work: its executor has begun, and the run has not come
to the place between two nodes since. -/
def busy : Trace → Bool
  | [] => false
  | .asked (.atWork ..) _ :: _ => true
  | .asked (.between _) _ :: _ => false
  | _ :: t => busy t

/-- Whether a node was at work when the signal fired. -/
def struck : Trace → Bool
  | [] => false
  | .called _ :: t => if (signal t).fired then struck t else busy t
  | _ :: t => struck t

/-- Whether the signal interrupted the run while it waited. -/
def Interrupted (t : Trace) : Prop := .woke .signalled ∈ t

/-- Nothing is begun once the signal has fired, and no executor acts once the
signal has interrupted the run. -/
def Heeds (t : Trace) : Prop :=
  ∀ (e : Incident) (earlier : Trace), e :: earlier <:+ t →
    (e.begins → earlier.signal.fired = false) ∧ (e.isAct → ¬ earlier.Interrupted)

end Trace

/-! ## How the surroundings may go on -/

/-- When others may call the signal of a run. -/
inductive Pace where
  /-- the store answers at once: only before the run begins, between two nodes,
  while an executor works and while the run waits -/
  | prompt
  /-- at any time -/
  | slow
  deriving DecidableEq, Repr

/-- Whether others may call the signal before the run goes on with the answer,
however fast the store is. -/
def Request.isOpen : Request → Bool
  | .between _ | .atWork .. | .act .. => true
  | _ => false

/-- Whether an act of an executor can be answered so, and the signal be called
so before the executor goes on. -/
def Act.Allows (s : Signal) : (a : Act) → a.Answer → List SignalCall → Prop
  | .isCanceled, x, _ => x = s.fired
  | .fire, _, cs => .fire ∈ cs
  | _, _, _ => True

/-- Whether a request can be answered so, and the signal be called so before the
run goes on. -/
def Request.Allows (s : Signal) : (r : Request) → r.Answer → List SignalCall → Prop
  | .signal _, x, _ => x = s
  | .act _ a, x, cs => a.Allows s x cs
  | _, _, _ => True

namespace Trace

/-- Whether after `t` a request can be answered so, with the trace `u` when the
run goes on. -/
def Answers (pace : Pace) (t : Trace) (r : Request) (x : r.Answer) (u : Trace) : Prop :=
  ∃ cs, (cs = [] ∨ r.isOpen ∨ pace = .slow) ∧ r.Allows t.signal x cs ∧
    u = calls cs ++ .asked r x :: t

/-- Whether after `t` a pause can end so, with the trace `u` when the run goes
on. -/
def Wakes (pace : Pace) (t : Trace) (p : Pause) (w : Wake) (u : Trace) : Prop :=
  (w = .expired → p.deadline.isSome) ∧ ∃ v cs, (cs = [] ∨ pace = .slow) ∧ u = calls cs ++ v ∧
    (w ≠ .signalled ∧ v = .passed p w :: t ∨
      ∃ cs, (w = .signalled ↔ (calls cs ++ .waits p :: t).signal.fired = true) ∧
        v = .woke w :: calls cs ++ .waits p :: t)

/-! ## Equations -/

section

variable (c : SignalCall) (t : Trace)

@[simp] theorem signal_nil : signal [] = .quiet := rfl

@[simp] theorem signal_asked (r : Request) (x : r.Answer) :
    signal (.asked r x :: t) = signal t := rfl

@[simp] theorem signal_passed (p : Pause) (w : Wake) : signal (.passed p w :: t) = signal t := rfl

@[simp] theorem signal_waits (p : Pause) : signal (.waits p :: t) = signal t := rfl

@[simp] theorem signal_woke (w : Wake) : signal (.woke w :: t) = signal t := rfl

@[simp] theorem signal_called : signal (.called c :: t) = (signal t).after c := rfl

@[simp] theorem calls_nil : calls [] = [] := rfl

@[simp] theorem calls_cons (cs : List SignalCall) : calls (c :: cs) = .called c :: calls cs := rfl

end

/-- Calls are made one after another. -/
theorem signal_calls {cs : List SignalCall} {t : Trace} :
    (calls cs ++ t).signal = cs.foldr (fun c s => s.after c) t.signal := by
  induction cs with
  | nil => rfl
  | cons c cs ih => simp [ih]

/-- The reason that failures give is the first one, or a word for there being
none. -/
theorem signal_note (t : Trace) : t.signal.note = t.firstReason? := by
  induction t with
  | nil => rfl
  | cons e t ih =>
    cases e with
    | called c => cases c <;> simp [Signal.after, Signal.cancel, Signal.fire, firstReason?, ih]
    | _ => exact ih

theorem signal_reason (t : Trace) : t.signal.reason = t.firstReason?.getD "canceled" := by
  rw [Signal.reason, signal_note]

/-- A signal that has fired stays so. -/
theorem fired_cons {t : Trace} (e : Incident) (h : t.signal.fired = true) :
    (signal (e :: t)).fired = true := by
  cases e <;> simp [h]

/-- So it does after more incidents. -/
theorem fired_append {t : Trace} (u : Trace) (h : t.signal.fired = true) :
    (signal (u ++ t)).fired = true := by
  induction u with
  | nil => exact h
  | cons e u ih => exact fired_cons e ih

/-- The first reason stays. -/
theorem note_append {t : Trace} (u : Trace) {reason : String}
    (h : t.signal.note = some reason) : (signal (u ++ t)).note = some reason := by
  induction u with
  | nil => exact h
  | cons e u ih =>
    cases e with
    | called c => exact Signal.note_after ih c
    | _ => exact ih

/-- Reasons are given to signals that fire. -/
theorem fired_of_note {t : Trace} {reason : String} (h : t.signal.note = some reason) :
    t.signal.fired = true := by
  induction t with
  | nil => cases h
  | cons e t ih =>
    cases e with
    | called c => exact Signal.fired_after _ c
    | _ => exact ih h

end Trace

end Runbook
