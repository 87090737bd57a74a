import Runbook.Proofs.Behaviour
import Runbook.Proofs.Calm
import Runbook.Run.Step

/-!
# What executors and queries come to

The places where a run waits are an executor at work, the ticks of a polling
node and slow answers of the oracle. Here is what behaviours leave behind there.

* `Execution.Everywhere` — what holds of every scene that an executor hands over.
* `Execution.ensures_program` — an executor acts until it is through, its time is
  up, or the signal interrupts it.
* `Run.Polled`, `Run.ensures_poll` — a node polls until it has its answer, or the
  signal has fired.
-/

namespace Runbook

open Program

variable {pace : Pace} {t u : Trace}

/-! ## Executors -/

namespace Execution

/-- A condition holds of every scene that the executor hands over. -/
def Everywhere (P : Scene → Prop) : Execution → Prop
  | .finish scene _ => P scene
  | .ask _ next => ∀ x, (next x).Everywhere P
  | .pause scene _ next => P scene ∧ next.Everywhere P

/-- A condition that holds everywhere on some assumption. -/
theorem everywhere_of_imp {c : Prop} {P : Scene → Prop} {e : Execution}
    (h : c → e.Everywhere P) : e.Everywhere fun scene => c → P scene := by
  induction e with
  | finish scene outcome => exact h
  | ask act next ih => exact fun x => ih x fun hc => h hc x
  | pause scene wait next ih => exact ⟨fun hc => (h hc).1, ih fun hc => (h hc).2⟩

/-- How the work of an executor with a deadline has come to its end when the
trace is `u`. -/
structure Closed (pace : Pace) (deadline : Option Nat) (closing : Closing) (u : Trace) :
    Prop where
  /-- all was in order -/
  orderly : pace = .prompt → u.Orderly
  /-- it was interrupted because the signal had fired -/
  canceled : closing = .canceled → u.signal.fired = true
  /-- only then it was interrupted -/
  awake : closing ≠ .canceled → u.Awake pace
  /-- its time was up because it had a deadline -/
  expired : closing = .expired → deadline.isSome

/-- The work of an executor comes to its end in one of these ways, with a scene
that it has handed over. -/
theorem ensures_program {run : String} {deadline : Option Nat} {P : Scene → Prop}
    {e : Execution} {Q : Option (Scene × Closing) → Trace → Prop} (he : e.Everywhere P)
    (awake : t.Awake pace)
    (h : ∀ scene closing u, P scene → Closed pace deadline closing u →
      Q (some (scene, closing)) u) :
    (e.program run deadline).Ensures pace Q t := by
  induction e generalizing t with
  | finish scene outcome =>
    exact h scene _ t he ⟨fun hp => (awake hp).1, by simp, fun _ => awake, by simp⟩
  | ask act next ih =>
    rintro x u ⟨cs, -, -, rfl⟩
    exact ih x (he x) awake.act
  | pause scene wait next ih =>
    intro w u hw
    have ordered (hp : pace = .prompt) : u.Orderly := by
      subst hp
      exact hw.orderly (awake rfl).1
    cases w with
    | signalled => exact h scene _ u he.1 ⟨ordered, fun _ => hw.fired, by simp, by simp⟩
    | due => exact ih he.2 (awake.wakes hw (by simp))
    | expired =>
      refine h scene _ u he.1 ⟨ordered, by simp, fun _ => ?_, fun _ => hw.1 rfl⟩
      exact awake.wakes hw (by simp)

end Execution

/-! ## Polling -/

/-- Whether a node that failed so has a way on: where its event leads. -/
def Failure.leadsOn : Failure → Bool
  | .canceled _ | .persistence _ => false
  | _ => true

namespace Run

variable {α : Type}

/-- How asking and waiting on behalf of a node may end: with a value or a failure
of the node while nothing is canceled, as canceled once the signal has fired, or
by a panic. -/
inductive Polled (pace : Pace) (r : Run) : Option (Except Failure α) → Trace → Prop where
  /-- with a value -/
  | value {a : α} {u : Trace} (calm : u.Calm pace) : Polled pace r (some (.ok a)) u
  /-- with a failure -/
  | failed {f : Failure} {u : Trace} (calm : u.Calm pace) (leads : f.leadsOn) :
    Polled pace r (some (.error f)) u
  /-- as canceled -/
  | canceled {reason : String} {u : Trace} (fired : u.signal.fired = true)
    (ordered : pace = .prompt → u.Orderly ∧ reason = u.signal.reason) :
    Polled pace r (some (.error (.canceled reason))) u
  /-- without a value -/
  | overflow {u : Trace} (calm : u.Calm pace)
    (most : r.settings.maxPolls.toNat + 1 = UInt32.size) : Polled pace r none u

variable {r : Run} {p : Program (Except Failure α)}

/-- The signal is what the trace says. -/
theorem ensures_signal {f : Signal → Program α} {Q : Option α → Trace → Prop}
    (h : ∀ cs, (cs = [] ∨ pace = .slow) →
      (f t.signal).Ensures pace Q (Trace.calls cs ++ .asked (.signal r.id) t.signal :: t)) :
    (r.signal.bind f).Ensures pace Q t := by
  refine ensures_request.2 fun x cs hcs hx => ?_
  obtain rfl : x = t.signal := hx
  exact h cs (by simpa [Request.isOpen] using hcs)

/-- A cancellation that has been noticed is reported with its reason. -/
theorem polled_canceled (fired : t.signal.fired = true) (ordered : pace = .prompt → t.Orderly) :
    (r.signal.bind fun signal => done (.error (.canceled signal.reason))).Ensures pace
      (Polled pace r (α := α)) t := by
  refine ensures_signal fun cs hcs => ?_
  refine .canceled (Trace.fired_append _ fired) fun hp => ?_
  obtain rfl : cs = [] := by simpa [hp] using hcs
  exact ⟨(ordered hp).free rfl, rfl⟩

theorem ensures_unlessCanceled (calm : t.Calm pace)
    (h : ∀ u : Trace, u.Calm pace → p.Ensures pace (Polled pace r) u) :
    (r.unlessCanceled p).Ensures pace (Polled pace r) t := by
  refine ensures_signal fun cs hcs => ?_
  have calm' := calm.asked (r := .signal r.id) t.signal (hcs.imp_right .inr) rfl
  cases fired : t.signal.fired with
  | false => exact h _ calm'
  | true =>
    refine .canceled (Trace.fired_append _ fired) fun hp => ?_
    exact absurd (calm hp).2 (by simp [fired])

theorem ensures_pauseFor {w : Wait} (calm : t.Calm pace)
    (h : ∀ u : Trace, u.Calm pace → p.Ensures pace (Polled pace r) u) :
    (r.pauseFor w p).Ensures pace (Polled pace r) t := by
  intro wake u hw
  cases wake with
  | signalled =>
    refine polled_canceled hw.fired fun hp => ?_
    subst hp
    exact hw.orderly (calm rfl).1
  | due => exact h u (calm.wakes hw (by simp))
  | expired => exact h u (calm.wakes hw (by simp))

/-- Asking the oracle begins nothing once the signal has fired. -/
theorem ensures_ask {operation : String} (calm : t.Calm pace) :
    (r.ask operation).Ensures pace (Polled pace r) t := by
  have answer (u : Trace) (hu : u.Calm pace) :
      ((request (.query operation)).bind fun x => done (.ok x)).Ensures pace (Polled pace r) u :=
    ensures_request.2 fun x cs hcs _ => .value (hu.asked _ hcs rfl)
  refine ensures_unlessCanceled calm fun u hu => ?_
  refine ensures_request.2 fun delay cs hcs _ => ?_
  have hu' := hu.asked delay hcs rfl
  cases delay with
  | none => exact answer _ hu'
  | some ms => exact ensures_pauseFor hu' answer

/-- A verdict is no cancellation. -/
theorem polled_verdict {answer : Answer} {result : Except Failure (Option String)}
    (h : verdict answer = some result) (calm : t.Calm pace) :
    Polled pace r (some result) t := by
  cases answer with
  | error e => cases h; exact .failed calm rfl
  | ok report =>
    rw [verdict] at h
    split at h
    · cases h
    · cases h; exact .failed calm rfl
    · cases h; exact .value calm

theorem ensures_pollFrom {operation : String} (left due : Nat) (calm : t.Calm pace) :
    (r.pollFrom operation left due).Ensures pace (Polled pace r) t := by
  induction left generalizing t due with
  | zero =>
    refine ensures_unlessCanceled calm fun u hu => ensures_pauseFor hu fun v hv => ?_
    split
    · exact .failed hv rfl
    · refine .overflow hv ?_
      have := r.settings.maxPolls.toNat_lt
      have size : UInt32.size = 2 ^ 32 := rfl
      omega
  | succ left ih =>
    refine ensures_unlessCanceled calm fun u hu => ensures_pauseFor hu fun v hv => ?_
    refine ensures_request.2 fun clock cs hcs _ => ensures_bind.2 ?_
    refine (ensures_ask (hv.asked _ hcs rfl)).mono fun o w hw => ?_
    cases hw with
    | overflow hw most => exact .overflow hw most
    | failed hw leads => exact .failed hw leads
    | canceled fired ordered => exact .canceled fired ordered
    | @value answer w hw =>
      cases hv : verdict answer with
      | none =>
        simp only [hv]
        exact ih _ hw
      | some result =>
        simp only [hv]
        exact polled_verdict hv hw

/-- A node polls until it has its answer or the signal has fired. -/
theorem ensures_poll {v : Visit} (calm : t.Calm pace) :
    (r.poll v).Ensures pace (Polled pace r) t := by
  rw [poll]
  split
  · exact .failed calm rfl
  · exact ensures_request.2 fun clock cs hcs _ => ensures_pollFrom _ _ (calm.asked _ hcs rfl)

end Run

end Runbook
