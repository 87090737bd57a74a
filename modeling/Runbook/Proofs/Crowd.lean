import Mathlib.Logic.Function.Basic
import Runbook.Proofs.Performance

/-!
# Runs that share a host

Runs that work at the same time take their steps in any order, and their signals are called at any
time. Time passes only while nobody can go on.

* `Stance` — how far a program is, and `Stance.Goes` — one step of it: it begins, a request is
  answered, or a pause begins, is passed or comes to its end.
* `Crowd`, `Move` — programs that share a host, and what can happen next among them.
* `Crowd.Leads` — where some moves lead.
* `Crowd.turn` — a member goes on until it ends or has to wait. `Crowd.leads_turn`: that is a row of
  steps.
* `Move.of?` — what a move is to one member.
* `Move.timetable`, `Crowd.Leads.unique` — a crowd of one comes to one end only, if its signal is
  called when it is as far and the clock shows the same.
-/

namespace Runbook

variable {σ α ι : Type}

/-! ## One program -/

/-- How far a program is. -/
inductive Stance (α : Type) where
  /-- it begins when the clock shows so many milliseconds -/
  | fresh (start : Nat) (p : Program α)
  /-- it can go on at once -/
  | awake (p : Program α)
  /-- it waits -/
  | asleep (p : Pause) (next : Wake → Program α)

namespace Stance

variable {h h' h'' : Host σ} {s s' s'' : Stance α} {ms ms' : Nat}

/-- How the program has ended, if it has: with a value, or without one. -/
def outcome? : Stance α → Option (Option α)
  | awake (.done a) => some (some a)
  | awake .panic => some none
  | _ => none

/-- The program takes a step. -/
inductive Goes [Store σ] (h : Host σ) : Stance α → Stance α → Host σ → Prop where
  /-- it begins -/
  | begins {start : Nat} {p : Program α} (due : start ≤ h.clock) :
    Goes h (.fresh start p) (.awake p) h
  /-- a request is answered -/
  | asks {r : Request} {next : r.Answer → Program α} :
    Goes h (.awake (.ask r next)) (.awake (next (h.answer r).1)) (h.answer r).2
  /-- a pause is over when it begins, and is passed -/
  | passes {p : Pause} {next : Wake → Program α} {w : Wake}
    (ends : (p.fixedAt h.clock).ending h.clock false = some w) :
    Goes h (.awake (.pause p next)) (.awake (next w)) h
  /-- a pause begins -/
  | waits {p : Pause} {next : Wake → Program α}
    (lasts : (p.fixedAt h.clock).ending h.clock false = none) :
    Goes h (.awake (.pause p next)) (.asleep (p.fixedAt h.clock) next) h
  /-- a pause comes to its end -/
  | wakes {p : Pause} {next : Wake → Program α} {w : Wake} (wake : h.wake? p = some w) :
    Goes h (.asleep p next) (.awake (next w)) h

/-- Time may pass for the program until the clock shows so many milliseconds. -/
def Rests (h : Host σ) (ms : Nat) : Stance α → Prop
  | fresh start _ => ms ≤ start
  | awake (.done _) | awake .panic => True
  | awake _ => False
  | asleep p _ => h.wake? p = none ∧ ∀ alarm ∈ p.alarms, ms ≤ alarm

/-- A step can be taken in one way only. -/
theorem Goes.unique [Store σ] (g : s.Goes h s' h') (g' : s.Goes h s'' h'') :
    s' = s'' ∧ h' = h'' := by
  cases g with
  | begins =>
    cases g'
    exact ⟨rfl, rfl⟩
  | asks =>
    cases g'
    exact ⟨rfl, rfl⟩
  | passes ends =>
    cases g' with
    | passes ends' => exact ⟨by rw [Option.some.inj (ends.symm.trans ends')], rfl⟩
    | waits lasts => cases ends.symm.trans lasts
  | waits lasts =>
    cases g' with
    | passes ends => cases lasts.symm.trans ends
    | waits => exact ⟨rfl, rfl⟩
  | wakes wake =>
    cases g' with
    | wakes wake' => exact ⟨by rw [Option.some.inj (wake.symm.trans wake')], rfl⟩

/-- A program that has ended takes no steps. -/
theorem Goes.outcome?_eq_none [Store σ] (g : s.Goes h s' h') : s.outcome? = none := by
  cases g <;> rfl

/-- A program that waits in vain now, but not later, has an alarm until then. -/
theorem exists_alarm {p : Pause} (vain : h.wake? p = none)
    (later : ({ h with clock := ms }).wake? p ≠ none) : ∃ alarm ∈ p.alarms, alarm ≤ ms := by
  have quiet : (h.signal p.run).fired ≠ true := by
    intro fired
    simp [Host.wake?, fired] at vain
  have vain : p.ending h.clock true = none := by simpa [Host.wake?, quiet] using vain
  have later : p.ending ms true ≠ none := by
    have same : ({ h with clock := ms } : Host σ).signal p.run = h.signal p.run := rfl
    simpa [Host.wake?, same, quiet] using later
  -- not the signal has changed but what the clock reaches: the wait or the deadline
  obtain ⟨run, wait, deadline⟩ := p
  rw [Pause.ending] at vain later
  split at vain
  · cases vain
  · next unreached =>
    split at later
    · next reached =>
      cases wait with
      | «until» alarm =>
        exact ⟨alarm, by simp [Pause.alarms], by simpa [Wait.reached] using reached⟩
      | after n => exact absurd reached unreached
      | turn => exact absurd reached unreached
      | never => exact absurd reached unreached
    · split at later
      · next expired =>
        obtain ⟨alarm, hd, due⟩ := (Option.any_eq_true ..).1 expired
        dsimp only at hd
        exact ⟨alarm, by simp [Pause.alarms, hd], by simpa using due⟩
      · exact absurd rfl later

/-- A program that rests goes on as soon as it can. -/
theorem Rests.le_of_goes [Store σ] (rests : s.Rests h ms)
    (g : s.Goes { h with clock := ms' } s' h') : ms ≤ ms' := by
  cases g with
  | begins due => exact Nat.le_trans rests due
  | asks | passes | waits => exact rests.elim
  | wakes wake =>
    obtain ⟨vain, alarms⟩ := rests
    obtain ⟨alarm, listed, due⟩ := exists_alarm (h := h) vain fun never => by
      cases never.symm.trans wake
    exact Nat.le_trans (alarms alarm listed) due

end Stance

namespace Host

/-- The signal of a run is called. -/
def called (h : Host σ) (run : String) : SignalCall → Host σ
  | .cancel reason => h.cancel run reason
  | .fire => h.fire run

@[simp] theorem signal_called (h : Host σ) (run : String) (c : SignalCall) :
    (h.called run c).signal run = (h.signal run).after c := by
  cases c
  · exact h.signal_cancel run _
  · exact h.signal_fire run

theorem signal_called_of_ne (h : Host σ) {run other : String} (c : SignalCall)
    (ne : other ≠ run) : (h.called run c).signal other = h.signal other := by
  cases c
  · exact h.signal_cancel_of_ne _ ne
  · exact h.signal_fire_of_ne ne

/-- Calls take no time. -/
@[simp] theorem clock_called (h : Host σ) (run : String) (c : SignalCall) :
    (h.called run c).clock = h.clock := by
  cases c <;> rfl

/-- Answers take no time, give no IDs to runs, and hand nothing out to executors. -/
theorem fixed_answer [Store σ] (h : Host σ) (r : Request) :
    (h.answer r).2.clock = h.clock ∧ (h.answer r).2.runIds = h.runIds ∧
      (h.answer r).2.handedOut = h.handedOut := by
  have called {β : Type} (c : StoreCall) (f : σ → Reply σ β) :
      (h.call c f).2.clock = h.clock ∧ (h.call c f).2.runIds = h.runIds ∧
        (h.call c f).2.handedOut = h.handedOut := by
    rw [call]
    dsimp only
    split <;> exact ⟨rfl, rfl, rfl⟩
  cases r with
  | createVisit v => exact called ..
  | update r visits => exact called ..
  | beginQuery operation =>
    rw [answer, beginQuery]
    split <;> exact ⟨rfl, rfl, rfl⟩
  | act run a =>
    cases a with
    | cancel target reason =>
      rw [answer, perform]
      dsimp only
      split <;> exact ⟨rfl, rfl, rfl⟩
    | _ => exact ⟨rfl, rfl, rfl⟩
  | _ => exact ⟨rfl, rfl, rfl⟩

theorem clock_answer [Store σ] (h : Host σ) (r : Request) : (h.answer r).2.clock = h.clock :=
  (h.fixed_answer r).1

end Host

/-- Steps take no time. -/
theorem Stance.Goes.clock_eq [Store σ] {h h' : Host σ} {s s' : Stance α} (g : s.Goes h s' h') :
    h'.clock = h.clock := by
  cases g with
  | asks => exact h.clock_answer _
  | _ => rfl

/-! ## Crowds -/

/-- Programs that share a host. Each one is executed for a run. -/
structure Crowd (ι σ α : Type) where
  /-- the host -/
  host : Host σ
  /-- the ID of the run -/
  run : ι → String
  /-- how far it is -/
  stance : ι → Stance α

/-- What can happen next in a crowd. -/
inductive Move (ι : Type) where
  /-- a member takes a step -/
  | goes (i : ι)
  /-- the signal of its run is called -/
  | called (i : ι) (c : SignalCall)
  /-- time passes until the clock shows so many milliseconds -/
  | passes (ms : Nat)

/-- What a move is to one member; steps and calls of others are nothing to it. -/
def Move.of? [DecidableEq ι] (i : ι) : Move ι → Option (Move Unit)
  | goes j => if j = i then some (goes ()) else none
  | called j c => if j = i then some (called () c) else none
  | passes ms => some (passes ms)

namespace Crowd

/-- Runs that have not begun; each one will when the clock shows its time. -/
def start (h : Host σ) (runs : ι → Run) (starts : ι → Nat) : Crowd ι σ (Bool × Run) :=
  ⟨h, fun i => (runs i).id, fun i => .fresh (starts i) (runs i).start⟩

/-- A run that is executed alone. -/
def solo (h : Host σ) (r : Run) (clock : Nat) : Crowd Unit σ (Bool × Run) :=
  start h (fun _ => r) fun _ => clock

variable [DecidableEq ι] [Store σ]

/-- One move. Time passes only while nobody can go on, and not beyond the time at which somebody
can. -/
inductive Step (c : Crowd ι σ α) : Move ι → Crowd ι σ α → Prop where
  /-- a member takes a step -/
  | goes {i : ι} {s : Stance α} {h : Host σ} (step : (c.stance i).Goes c.host s h) :
    Step c (.goes i) { c with host := h, stance := Function.update c.stance i s }
  /-- a signal is called -/
  | called {i : ι} {call : SignalCall} :
    Step c (.called i call) { c with host := c.host.called (c.run i) call }
  /-- time passes -/
  | passes {ms : Nat} (later : c.host.clock ≤ ms) (rests : ∀ i, (c.stance i).Rests c.host ms) :
    Step c (.passes ms) { c with host := { c.host with clock := ms } }

/-- Some moves, one after another. -/
inductive Leads : Crowd ι σ α → List (Move ι) → Crowd ι σ α → Prop where
  /-- none -/
  | here {c : Crowd ι σ α} : Leads c [] c
  /-- one more -/
  | step {c c' c'' : Crowd ι σ α} {m : Move ι} {ms : List (Move ι)} (first : c.Step m c')
    (rest : Leads c' ms c'') : Leads c (m :: ms) c''

theorem Leads.trans {c c' c'' : Crowd ι σ α} {ms ms' : List (Move ι)} (h : c.Leads ms c')
    (h' : c'.Leads ms' c'') : c.Leads (ms ++ ms') c'' := by
  induction h with
  | here => exact h'
  | step first _ ih => exact .step first (ih h')

theorem Step.run_eq {c c' : Crowd ι σ α} {m : Move ι} (h : c.Step m c') : c'.run = c.run := by
  cases h <;> rfl

/-- The members stay the same. -/
theorem Leads.run_eq {c c' : Crowd ι σ α} {ms : List (Move ι)} (h : c.Leads ms c') :
    c'.run = c.run := by
  induction h with
  | here => rfl
  | step first _ ih => exact ih.trans first.run_eq

end Crowd

/-! ### Turns -/

/-- How far a program is where a host has left it. -/
def Standing.stance : Standing α → Stance α
  | .ended a => .awake (.done a)
  | .panicked => .awake .panic
  | .waiting p next => .asleep p next

namespace Crowd

variable [DecidableEq ι] [Store σ] {c : Crowd ι σ α} {i : ι}

/-- The host carries on a program for a member. -/
def carryOn (c : Crowd ι σ α) (i : ι) (p : Program α) : Crowd ι σ α :=
  { c with
    host := (c.host.advance p).2
    stance := Function.update c.stance i (c.host.advance p).1.stance }

/-- A member has its turn: it goes on until it ends or has to wait. -/
def turn (c : Crowd ι σ α) (i : ι) : Crowd ι σ α :=
  match c.stance i with
  | .fresh start p => if start ≤ c.host.clock then c.carryOn i p else c
  | .awake p => c.carryOn i p
  | .asleep p next =>
    match c.host.wake? p with
    | none => c
    | some w => c.carryOn i (next w)

/-- A program that has ended is left. -/
theorem carryOn_done {a : α} (here : c.stance i = .awake (.done a)) :
    c.carryOn i (.done a) = c := by
  rw [carryOn, Host.advance_done, Standing.stance, ← here, Function.update_eq_self]

theorem carryOn_panic (here : c.stance i = .awake .panic) : c.carryOn i .panic = c := by
  rw [carryOn, Host.advance_panic, Standing.stance, ← here, Function.update_eq_self]

/-- Carrying on a program is a row of steps. -/
theorem leads_carryOn {p : Program α} (here : c.stance i = .awake p) :
    ∃ n, c.Leads (List.replicate n (.goes i)) (c.carryOn i p) := by
  -- one step for each request and each pause that is over, up to the first one that lasts
  induction p generalizing c with
  | done a => exact ⟨0, (carryOn_done here).symm ▸ .here⟩
  | panic => exact ⟨0, (carryOn_panic here).symm ▸ .here⟩
  | ask r next ih =>
    have first : (c.stance i).Goes c.host (.awake (next (c.host.answer r).1))
        (c.host.answer r).2 := here ▸ .asks
    obtain ⟨n, rest⟩ := ih (c.host.answer r).1 (c := { c with
      host := (c.host.answer r).2
      stance := Function.update c.stance i (.awake (next (c.host.answer r).1)) })
      (Function.update_self ..)
    rw [carryOn, Function.update_idem] at rest
    exact ⟨n + 1, .step (.goes first) rest⟩
  | pause p next ih =>
    cases ends : (p.fixedAt c.host.clock).ending c.host.clock false with
    | none =>
      rw [carryOn, Host.advance_pause_of_waiting _ next ends]
      have first : (c.stance i).Goes c.host (.asleep (p.fixedAt c.host.clock) next) c.host :=
        here ▸ .waits ends
      exact ⟨1, .step (.goes first) .here⟩
    | some w =>
      rw [carryOn, Host.advance_pause_of_ending _ next ends]
      have first : (c.stance i).Goes c.host (.awake (next w)) c.host := here ▸ .passes ends
      obtain ⟨n, rest⟩ := ih w (c := { c with
        stance := Function.update c.stance i (.awake (next w)) }) (Function.update_self ..)
      rw [carryOn, Function.update_idem] at rest
      exact ⟨n + 1, .step (.goes first) rest⟩

/-- So is a turn. -/
theorem leads_turn (c : Crowd ι σ α) (i : ι) :
    ∃ n, c.Leads (List.replicate n (.goes i)) (c.turn i) := by
  have onwards {p : Program α} (first : (c.stance i).Goes c.host (.awake p) c.host) :
      ∃ n, c.Leads (List.replicate n (.goes i)) (c.carryOn i p) := by
    obtain ⟨n, rest⟩ := leads_carryOn (c := { c with
      stance := Function.update c.stance i (.awake p) }) (Function.update_self ..)
    rw [carryOn, Function.update_idem] at rest
    exact ⟨n + 1, .step (.goes first) rest⟩
  rw [turn]
  cases here : c.stance i with
  | fresh start p =>
    dsimp only
    split
    · next due => exact onwards (here ▸ .begins due)
    · exact ⟨0, .here⟩
  | awake p => exact leads_carryOn here
  | asleep p next =>
    dsimp only
    split
    · exact ⟨0, .here⟩
    · next wake => exact onwards (here ▸ .wakes wake)

end Crowd

/-! ## A crowd of one -/

/-- The calls of its signal: how many steps it had taken, and what the clock showed. -/
def Move.timetable (steps clock : Nat) : List (Move Unit) → List (Nat × Nat × SignalCall)
  | [] => []
  | goes _ :: ms => timetable (steps + 1) clock ms
  | called _ c :: ms => (steps, clock, c) :: timetable steps clock ms
  | passes clock :: ms => timetable steps clock ms

namespace Crowd

variable [Store σ] {a b c d : Crowd Unit σ α} {n : Nat} {calls : List (Nat × Nat × SignalCall)}

/-- Time passes, or nothing happens. -/
def Idles (a b : Crowd Unit σ α) : Prop := b = a ∨ ∃ ms, a.Step (.passes ms) b

theorem Idles.stance (h : a.Idles b) : b.stance = a.stance := by
  obtain rfl | ⟨ms, ⟨⟩⟩ := h <;> rfl

theorem Idles.store (h : a.Idles b) : b.host.store = a.host.store := by
  obtain rfl | ⟨ms, ⟨⟩⟩ := h <;> rfl

/-- Time can pass in one go. -/
theorem Idles.trans (h : a.Idles b) (h' : b.Idles c) : a.Idles c := by
  obtain rfl | ⟨ms, ⟨⟩⟩ := h
  · exact h'
  · next later rests =>
    obtain rfl | ⟨ms', ⟨⟩⟩ := h'
    · exact .inr ⟨ms, .passes later rests⟩
    · next later' rests' =>
      refine .inr ⟨ms', .passes (Nat.le_trans later later') fun i => ?_⟩
      have first := rests i
      have second := rests' i
      dsimp only at second
      revert first second
      cases a.stance i with
      | fresh start p => exact fun _ second => second
      | awake p => exact fun first second => by cases p <;> trivial
      | asleep p next => exact fun first second => ⟨first.1, second.2⟩

/-- The clock says how long it was. -/
theorem Idles.eq (h : a.Idles b) (h' : a.Idles c) (clock : b.host.clock = c.host.clock) :
    b = c := by
  obtain rfl | ⟨ms, ⟨⟩⟩ := h <;> obtain rfl | ⟨ms', ⟨⟩⟩ := h'
  · rfl
  · dsimp only at clock
    subst clock
    rfl
  · dsimp only at clock
    subst clock
    rfl
  · dsimp only at clock
    subst clock
    rfl

/-- It goes on as soon as it can. -/
theorem Idles.clock_le (h : a.Idles b) (h' : a.Idles c) {s : Stance α} {g : Host σ}
    (goes : (c.stance ()).Goes c.host s g) : b.host.clock ≤ c.host.clock := by
  obtain rfl | ⟨ms, ⟨⟩⟩ := h
  · obtain rfl | ⟨ms', ⟨⟩⟩ := h'
    · exact Nat.le_refl _
    · assumption
  · next later rests =>
    obtain rfl | ⟨ms', ⟨⟩⟩ := h'
    · have goes : (c.stance ()).Goes { c.host with clock := c.host.clock } s g := goes
      exact (rests ()).le_of_goes goes
    · exact (rests ()).le_of_goes goes

/-- The moves of a crowd of one that has taken `n` steps so far, with its calls. -/
inductive Plays : Nat → Crowd Unit σ α → List (Nat × Nat × SignalCall) → Crowd Unit σ α → Prop where
  /-- nothing but time that passes -/
  | rests {n : Nat} {a b : Crowd Unit σ α} (idles : a.Idles b) : Plays n a [] b
  /-- a step -/
  | goes {n : Nat} {a b d : Crowd Unit σ α} {s : Stance α} {h : Host σ}
    {calls : List (Nat × Nat × SignalCall)} (idles : a.Idles b)
    (step : (b.stance ()).Goes b.host s h)
    (rest : Plays (n + 1) { b with host := h, stance := Function.update b.stance () s } calls d) :
    Plays n a calls d
  /-- a call -/
  | called {n ms : Nat} {a b d : Crowd Unit σ α} {call : SignalCall}
    {calls : List (Nat × Nat × SignalCall)} (idles : a.Idles b) (shows : b.host.clock = ms)
    (rest : Plays n { b with host := b.host.called (b.run ()) call } calls d) :
    Plays n a ((n, ms, call) :: calls) d

theorem Plays.of_idles (h : a.Idles b) (plays : Plays n b calls d) : Plays n a calls d := by
  cases plays with
  | rests idles => exact .rests (h.trans idles)
  | goes idles step rest => exact .goes (h.trans idles) step rest
  | called idles shows rest => exact .called (h.trans idles) shows rest

theorem Leads.plays {ms : List (Move Unit)} (h : a.Leads ms b) (n : Nat) :
    Plays n a (Move.timetable n a.host.clock ms) b := by
  induction h generalizing n with
  | here => exact .rests (.inl rfl)
  | step first _ ih =>
    cases first with
    | goes step =>
      have rest := ih (n + 1)
      dsimp only at rest
      rw [step.clock_eq] at rest
      exact .goes (.inl rfl) step rest
    | @called i call =>
      have rest := ih n
      dsimp only at rest
      rw [Host.clock_called] at rest
      exact .called (.inl rfl) rfl rest
    | passes later rests => exact .of_idles (.inr ⟨_, .passes later rests⟩) (ih n)

/-- Later calls come after more steps. -/
theorem Plays.le_of_mem (h : Plays n a calls d) : ∀ e ∈ calls, n ≤ e.1 := by
  induction h with
  | rests => simp
  | goes _ _ _ ih => exact fun e he => Nat.le_trans (Nat.le_succ _) (ih e he)
  | called _ _ _ ih => exact List.forall_mem_cons.2 ⟨Nat.le_refl _, ih⟩

/-- A crowd of one comes to one end only. -/
theorem Plays.unique (h : Plays n a calls b) (h' : Plays n a calls c)
    (ended : (b.stance ()).outcome? ≠ none) (ended' : (c.stance ()).outcome? ≠ none) :
    b.stance () = c.stance () ∧ b.host.store = c.host.store := by
  -- both are followed step by step; that one of them goes further is excluded by its end
  induction h with
  | rests idles =>
    cases h' with
    | rests idles' =>
      exact ⟨by rw [idles.stance, idles'.stance], by rw [idles.store, idles'.store]⟩
    | goes idles' step _ =>
      rw [idles.stance, ← idles'.stance] at ended
      exact absurd step.outcome?_eq_none ended
  | goes idles step rest ih =>
    cases h' with
    | rests idles' =>
      rw [idles'.stance, ← idles.stance] at ended'
      exact absurd step.outcome?_eq_none ended'
    | goes idles' step' rest' =>
      -- each goes on as soon as it can, so both do at the same time
      obtain rfl := idles.eq idles' (Nat.le_antisymm (idles.clock_le idles' step')
        (idles'.clock_le idles step))
      obtain ⟨rfl, rfl⟩ := step.unique step'
      exact ih rest' ended
    | called => exact absurd (rest.le_of_mem _ List.mem_cons_self) (Nat.not_succ_le_self _)
  | called idles shows rest ih =>
    cases h' with
    | goes _ _ rest' => exact absurd (rest'.le_of_mem _ List.mem_cons_self) (Nat.not_succ_le_self _)
    | called idles' shows' rest' =>
      obtain rfl := idles.eq idles' (shows.trans shows'.symm)
      exact ih rest' ended

/-- So it comes to one end, however the time between its steps and calls is passed. -/
theorem Leads.unique {ms ms' : List (Move Unit)} (h : a.Leads ms b) (h' : a.Leads ms' c)
    (same : Move.timetable 0 a.host.clock ms = Move.timetable 0 a.host.clock ms')
    (ended : (b.stance ()).outcome? ≠ none) (ended' : (c.stance ()).outcome? ≠ none) :
    b.stance () = c.stance () ∧ b.host.store = c.host.store :=
  (h.plays 0).unique (same ▸ h'.plays 0) ended ended'

end Crowd

end Runbook
