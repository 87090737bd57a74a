import Runbook.Proofs.Behaviour

/-!
# Programs that show a state

A program may show, with all that it asks and wherever it waits, the state in which it is then. What
it does is the same without that.

* `Watched` — such programs. They may also look for something that is not there.
* `Watched.Passes`, `Watched.Returns`, `Watched.Strays` — what they show, how they end, and that
  they look for something that is not there.
* `Watched.bare` — the program without what is shown.
* `Watched.Shows` — a condition on what is shown, and a relation of the values to those of another
  program, which is the same otherwise.
-/

namespace Runbook

/-- A program that shows a state in `σ` whenever others can notice something. -/
inductive Watched (σ α : Type) where
  /-- end with a value -/
  | done (a : α)
  /-- end without one -/
  | panic
  /-- look for something that is not there -/
  | stray
  /-- ask and go on with the answer -/
  | ask (shown : σ) (r : Request) (next : r.Answer → Watched σ α)
  /-- wait and go on -/
  | pause (shown : σ) (p : Pause) (next : Wake → Watched σ α)

namespace Watched

variable {σ α β γ δ : Type}

/-- Go on with another program where this one ends with a value. -/
protected def bind : Watched σ α → (α → Watched σ β) → Watched σ β
  | done a, f => f a
  | panic, _ => panic
  | stray, _ => stray
  | ask s r next, f => ask s r fun x => (next x).bind f
  | pause s p next, f => pause s p fun w => (next w).bind f

instance : Monad (Watched σ) where
  pure := done
  bind := Watched.bind

@[simp] theorem pure_eq (a : α) : (Pure.pure a : Watched σ α) = done a := rfl

@[simp] theorem bind_eq (w : Watched σ α) (f : α → Watched σ β) : w >>= f = w.bind f := rfl

@[simp] theorem done_bind (a : α) (f : α → Watched σ β) : (done a).bind f = f a := rfl

@[simp] theorem ask_bind (s : σ) (r : Request) (next : r.Answer → Watched σ α)
    (f : α → Watched σ β) : (ask s r next).bind f = ask s r fun x => (next x).bind f := rfl

/-- Ask in a state, with the answer as value. -/
def request (s : σ) (r : Request) : Watched σ r.Answer := ask s r done

/-- A program that stays in one state. -/
def still (s : σ) : Program α → Watched σ α
  | .done a => done a
  | .panic => panic
  | .ask r next => ask s r fun x => still s (next x)
  | .pause p next => pause s p fun w => still s (next w)

/-- The program without what is shown. The values are rewritten. -/
def bare (f : α → β) : Watched σ α → Program β
  | done a => .done (f a)
  | panic | stray => .panic
  | ask _ r next => .ask r fun x => (next x).bare f
  | pause _ p next => .pause p fun w => (next w).bare f

/-! ## What can come of them -/

/-- The program can come to this state. -/
inductive Passes : Watched σ α → σ → Prop where
  /-- it asks in it -/
  | asks {s : σ} {r : Request} {next : r.Answer → Watched σ α} : Passes (ask s r next) s
  /-- it waits in it -/
  | waits {s : σ} {p : Pause} {next : Wake → Watched σ α} : Passes (pause s p next) s
  /-- it comes to it after an answer -/
  | answered {s s' : σ} {r : Request} {next : r.Answer → Watched σ α} (x : r.Answer)
    (later : Passes (next x) s') : Passes (ask s r next) s'
  /-- it comes to it after a wait -/
  | woken {s s' : σ} {p : Pause} {next : Wake → Watched σ α} (w : Wake)
    (later : Passes (next w) s') : Passes (pause s p next) s'

/-- The program can end with this value. -/
inductive Returns : Watched σ α → α → Prop where
  /-- it ends at once -/
  | done {a : α} : Returns (done a) a
  /-- it ends after an answer -/
  | answered {s : σ} {r : Request} {next : r.Answer → Watched σ α} {a : α} (x : r.Answer)
    (later : Returns (next x) a) : Returns (ask s r next) a
  /-- it ends after a wait -/
  | woken {s : σ} {p : Pause} {next : Wake → Watched σ α} {a : α} (w : Wake)
    (later : Returns (next w) a) : Returns (pause s p next) a

/-- The program can look for something that is not there. -/
inductive Strays : Watched σ α → Prop where
  /-- it does at once -/
  | stray : Strays stray
  /-- it does after an answer -/
  | answered {s : σ} {r : Request} {next : r.Answer → Watched σ α} (x : r.Answer)
    (later : Strays (next x)) : Strays (ask s r next)
  /-- it does after a wait -/
  | woken {s : σ} {p : Pause} {next : Wake → Watched σ α} (w : Wake)
    (later : Strays (next w)) : Strays (pause s p next)

/-- Where the program without what is shown ends, this one does. -/
theorem exists_returns_of_ends {f : α → β} {w : Watched σ α} {b : β} {pace : Pace} {t u : Trace}
    (ends : (w.bare f).Ends pace t (some b) u) : ∃ a, w.Returns a ∧ f a = b := by
  induction w generalizing t with
  | done a =>
    obtain ⟨same, -⟩ := Program.ends_done.1 ends
    exact ⟨a, .done, (Option.some.inj same).symm⟩
  | panic =>
    obtain ⟨never, -⟩ := Program.ends_panic.1 ends
    cases never
  | stray =>
    obtain ⟨never, -⟩ := Program.ends_panic.1 ends
    cases never
  | ask s r next ih =>
    obtain ⟨x, v, -, ends⟩ := Program.ends_ask.1 ends
    obtain ⟨a, returns, same⟩ := ih x ends
    exact ⟨a, .answered x returns, same⟩
  | pause s p next ih =>
    obtain ⟨w, v, -, ends⟩ := Program.ends_pause.1 ends
    obtain ⟨a, returns, same⟩ := ih w ends
    exact ⟨a, .woken w returns, same⟩

/-! ## Two programs side by side -/

/-- The program does what the other one does. All states that it shows have one property, and the
values are related. It never looks for something that is not there. -/
inductive Shows (P : σ → Prop) (R : α → β → Prop) : Watched σ α → Program β → Prop where
  /-- both end with values -/
  | done {a : α} {b : β} (related : R a b) : Shows P R (done a) (.done b)
  /-- both end without one -/
  | panic : Shows P R panic .panic
  /-- both ask the same -/
  | ask {s : σ} {r : Request} {next : r.Answer → Watched σ α} {next' : r.Answer → Program β}
    (here : P s) (later : ∀ x, Shows P R (next x) (next' x)) :
    Shows P R (ask s r next) (.ask r next')
  /-- both wait for the same -/
  | pause {s : σ} {p : Pause} {next : Wake → Watched σ α} {next' : Wake → Program β}
    (here : P s) (later : ∀ w, Shows P R (next w) (next' w)) :
    Shows P R (pause s p next) (.pause p next')

namespace Shows

variable {P : σ → Prop} {R : α → β → Prop} {S : γ → δ → Prop} {w : Watched σ α} {p : Program β}
  {s : σ}

theorem bind {f : α → Watched σ γ} {g : β → Program δ} (h : Shows P R w p)
    (next : ∀ a b, R a b → Shows P S (f a) (g b)) : Shows P S (w.bind f) (p.bind g) := by
  induction h with
  | done related => exact next _ _ related
  | panic => exact .panic
  | ask here _ ih => exact .ask here ih
  | pause here _ ih => exact .pause here ih

theorem mono {R' : α → β → Prop} (h : Shows P R w p) (imp : ∀ a b, R a b → R' a b) :
    Shows P R' w p := by
  induction h with
  | done related => exact .done (imp _ _ related)
  | panic => exact .panic
  | ask here _ ih => exact .ask here ih
  | pause here _ ih => exact .pause here ih

/-- Both ask the same and go on. -/
theorem asks {r : Request} {f : r.Answer → Watched σ γ} {g : r.Answer → Program δ} (here : P s)
    (next : ∀ x, Shows P S (f x) (g x)) :
    Shows P S ((Watched.request s r).bind f) ((Program.request r).bind g) :=
  .ask here next

/-- A program that stays in one state. -/
theorem still (here : P s) (p : Program α) : Shows P Eq (still s p) p := by
  induction p with
  | done a => exact .done rfl
  | panic => exact .panic
  | ask r next ih => exact .ask here ih
  | pause p next ih => exact .pause here ih

/-- Without what is shown, it is the other one. -/
theorem bare_eq {f : α → β} (h : Shows P R w p) (value : ∀ a b, R a b → f a = b) :
    w.bare f = p := by
  induction h with
  | done related => exact congrArg Program.done (value _ _ related)
  | panic => rfl
  | ask _ _ ih => exact congrArg (Program.ask _) (funext ih)
  | pause _ _ ih => exact congrArg (Program.pause _) (funext ih)

theorem of_passes (h : Shows P R w p) (passes : w.Passes s) : P s := by
  induction h with
  | done | panic => cases passes
  | ask here _ ih =>
    cases passes with
    | asks => exact here
    | answered x later => exact ih x later
  | pause here _ ih =>
    cases passes with
    | waits => exact here
    | woken w later => exact ih w later

theorem exists_of_returns {a : α} (h : Shows P R w p) (returns : w.Returns a) : ∃ b, R a b := by
  induction h with
  | done related =>
    cases returns
    exact ⟨_, related⟩
  | panic => cases returns
  | ask _ _ ih =>
    cases returns with
    | answered x later => exact ih x later
  | pause _ _ ih =>
    cases returns with
    | woken w later => exact ih w later

theorem not_strays (h : Shows P R w p) : ¬w.Strays := by
  intro strays
  induction h with
  | done | panic => cases strays
  | ask _ _ ih =>
    cases strays with
    | answered x later => exact ih x later
  | pause _ _ ih =>
    cases strays with
    | woken w later => exact ih w later

end Shows

end Watched

end Runbook
