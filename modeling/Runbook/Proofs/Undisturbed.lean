import Runbook.Proofs.Behaviour

/-!
# Programs that are left alone

When nobody calls the signal of a run, looking at it changes nothing. Two programs
that differ only in where they look are *alike*.

* `Trace.Undisturbed`, `Trace.visible` — traces without calls, and what is left of
  a trace if the looks are left out.
* `Program.EndsAlone` — the ends of a program that is left alone, with what is
  visible on the way.
* `Program.Shows`, `Program.shows_iff` — the same as a recursion on the program.
* `Program.Alike` — to show the same. What follows a program may be replaced by
  something alike wherever the program can end.
-/

namespace Runbook

/-- Whether a request says something about the surroundings but for the signal. -/
def Request.isVisible : Request → Bool
  | .signal _ | .between _ => false
  | _ => true

namespace Trace

variable {t u : Trace}

/-- Nobody has called the signal. -/
def Undisturbed (t : Trace) : Prop := ∀ c, .called c ∉ t

/-- A trace without the looks at the signal. -/
def visible (t : Trace) : Trace :=
  t.filter fun
    | .asked r _ => r.isVisible
    | _ => true

@[simp] theorem visible_nil : visible [] = [] := rfl

@[simp] theorem visible_append : visible (u ++ t) = visible u ++ visible t := List.filter_append ..

@[simp] theorem undisturbed_nil : Undisturbed [] := fun c => by simp

/-- Whether somebody has called it can be looked up. -/
theorem undisturbed_iff : t.Undisturbed ↔ t.all (fun
    | .called _ => false
    | _ => true) := by
  rw [List.all_eq_true]
  constructor
  · intro alone e inside
    cases e with
    | called c => exact absurd inside (alone c)
    | _ => rfl
  · intro others c inside
    exact Bool.false_ne_true (others _ inside)

theorem undisturbed_cons {e : Incident} :
    Undisturbed (e :: t) ↔ (∀ c, e ≠ .called c) ∧ t.Undisturbed := by
  simp only [Undisturbed, List.mem_cons, not_or, forall_and, ne_comm]

theorem Undisturbed.of_suffix (h : u.Undisturbed) (hs : t <:+ u) : t.Undisturbed :=
  fun c hc => h c (hs.subset hc)

theorem exists_visible_append (h : t <:+ u) : ∃ w, u.visible = w ++ t.visible := by
  obtain ⟨w, rfl⟩ := h
  exact ⟨visible w, visible_append⟩

/-- Calls disturb, unless there are none. -/
theorem undisturbed_calls {cs : List SignalCall} :
    Undisturbed (calls cs ++ t) ↔ cs = [] ∧ t.Undisturbed := by
  cases cs with
  | nil => simp
  | cons c cs => simpa using fun h : Undisturbed _ => h c (List.mem_cons_self ..)

/-- A signal that nobody calls is quiet. -/
theorem Undisturbed.signal_eq (h : t.Undisturbed) : t.signal = .quiet := by
  induction t with
  | nil => rfl
  | cons e t ih =>
    obtain ⟨he, ht⟩ := undisturbed_cons.1 h
    cases e with
    | called c => exact absurd rfl (he c)
    | _ => exact ih ht

end Trace

namespace Program

variable {α β : Type} {pace : Pace}

/-- That a program can end so if it is left alone, with this to be seen on the way:
all that it asks of its surroundings and what they answer, and all its waits, but
not the looks at its signal. -/
def EndsAlone (pace : Pace) (p : Program α) (o : Option α) (v : Trace) : Prop :=
  ∃ t, p.Ends pace [] o t ∧ t.Undisturbed ∧ t.visible = v

/-- The same, by recursion on the program. -/
def Shows : Program α → Option α → Trace → Prop
  | .done a, o, v => o = some a ∧ v = []
  | .panic, o, v => o = none ∧ v = []
  | .ask r next, o, v => ∃ x w, r.Allows .quiet x [] ∧ (next x).Shows o w ∧
    v = w ++ Trace.visible [.asked r x]
  | .pause p next, o, v => ∃ x w, x ≠ .signalled ∧ (x = .expired → p.deadline.isSome) ∧
    (next x).Shows o w ∧ (v = w ++ [.passed p x] ∨ v = w ++ [.woke x, .waits p])

variable {p q p' : Program α} {o : Option α} {t v : Trace}

/-- What is shown after one more visible part of a trace. -/
theorem shows_append {s : Trace}
    (ih : ∀ {t v}, t.Undisturbed →
      (q.Shows o v ↔ ∃ u, q.Ends pace t o u ∧ u.Undisturbed ∧ u.visible = v ++ t.visible))
    (hs : Trace.Undisturbed (s ++ t)) :
    (∃ w, q.Shows o w ∧ v = w ++ s.visible) ↔
      ∃ u, q.Ends pace (s ++ t) o u ∧ u.Undisturbed ∧ u.visible = v ++ t.visible := by
  constructor
  · rintro ⟨w, hw, rfl⟩
    obtain ⟨u, hu, alone, same⟩ := (ih hs).1 hw
    refine ⟨u, hu, alone, ?_⟩
    rw [same, Trace.visible_append, List.append_assoc]
  · rintro ⟨u, hu, alone, same⟩
    obtain ⟨w, hw⟩ := Trace.exists_visible_append hu.suffix
    refine ⟨w, (ih hs).2 ⟨u, hu, alone, hw⟩, ?_⟩
    rw [hw, Trace.visible_append, ← List.append_assoc] at same
    exact (List.append_cancel_right same).symm

/-- What a program shows are the ends of its undisturbed behaviours, after any
undisturbed trace. -/
theorem shows_iff (pace : Pace) (ht : t.Undisturbed) :
    p.Shows o v ↔ ∃ u, p.Ends pace t o u ∧ u.Undisturbed ∧ u.visible = v ++ t.visible := by
  induction p generalizing t v with
  | done a =>
    simp only [Shows, ends_done]
    constructor
    · rintro ⟨rfl, rfl⟩
      exact ⟨t, ⟨rfl, rfl⟩, ht, rfl⟩
    · rintro ⟨u, ⟨rfl, rfl⟩, -, hv⟩
      exact ⟨rfl, by simpa using hv⟩
  | panic =>
    simp only [Shows, ends_panic]
    constructor
    · rintro ⟨rfl, rfl⟩
      exact ⟨t, ⟨rfl, rfl⟩, ht, rfl⟩
    · rintro ⟨u, ⟨rfl, rfl⟩, -, hv⟩
      exact ⟨rfl, by simpa using hv⟩
  | ask r next ih =>
    have asked (x : r.Answer) : Trace.Undisturbed ([.asked r x] ++ t) :=
      Trace.undisturbed_cons.2 ⟨by simp, ht⟩
    simp only [ends_ask]
    constructor
    · rintro ⟨x, w, allowed, hw⟩
      obtain ⟨u, hu, alone⟩ := (shows_append (ih x) (asked x)).1 ⟨w, hw⟩
      rw [← ht.signal_eq] at allowed
      exact ⟨u, ⟨x, _, ⟨[], .inl rfl, allowed, rfl⟩, hu⟩, alone⟩
    · rintro ⟨u, ⟨x, _, ⟨cs, -, allowed, rfl⟩, hu⟩, alone⟩
      obtain ⟨rfl, -⟩ := Trace.undisturbed_calls.1 (alone.1.of_suffix hu.suffix)
      rw [ht.signal_eq] at allowed
      obtain ⟨w, hw⟩ := (shows_append (ih x) (asked x)).2 ⟨u, hu, alone⟩
      exact ⟨x, w, allowed, hw⟩
  | pause p next ih =>
    have passed (x : Wake) : Trace.Undisturbed ([.passed p x] ++ t) :=
      Trace.undisturbed_cons.2 ⟨by simp, ht⟩
    have woke (x : Wake) : Trace.Undisturbed ([.woke x, .waits p] ++ t) :=
      Trace.undisturbed_cons.2 ⟨by simp, Trace.undisturbed_cons.2 ⟨by simp, ht⟩⟩
    simp only [ends_pause]
    constructor
    · rintro ⟨x, w, ne, hd, hw, hv⟩
      rcases hv with hv | hv
      · obtain ⟨u, hu, alone⟩ := (shows_append (ih x) (passed x)).1 ⟨w, hw, hv⟩
        exact ⟨u, ⟨x, _, ⟨hd, _, [], .inl rfl, rfl, .inl ⟨ne, rfl⟩⟩, hu⟩, alone⟩
      -- it really paused, and nobody called the signal meanwhile
      · obtain ⟨u, hu, alone⟩ := (shows_append (ih x) (woke x)).1 ⟨w, hw, hv⟩
        refine ⟨u, ⟨x, _, ⟨hd, _, [], .inl rfl, rfl, .inr ⟨[], ?_, rfl⟩⟩, hu⟩, alone⟩
        simp [ne, ht.signal_eq, Signal.quiet]
    · rintro ⟨u, ⟨x, _, ⟨hd, y, cs, -, rfl, how⟩, hu⟩, alone⟩
      obtain ⟨rfl, hy⟩ := Trace.undisturbed_calls.1 (alone.1.of_suffix hu.suffix)
      rcases how with ⟨ne, rfl⟩ | ⟨cs', signalled, rfl⟩
      · obtain ⟨w, hw, hv⟩ := (shows_append (ih x) (passed x)).2 ⟨u, hu, alone⟩
        exact ⟨x, w, ne, hd, hw, .inl hv⟩
      · obtain ⟨rfl, -⟩ := Trace.undisturbed_calls.1 (Trace.undisturbed_cons.1 hy).2
        obtain ⟨w, hw, hv⟩ := (shows_append (ih x) (woke x)).2 ⟨u, hu, alone⟩
        refine ⟨x, w, fun h => ?_, hd, hw, .inr hv⟩
        simp [h, ht.signal_eq, Signal.quiet] at signalled

theorem shows_iff_endsAlone (pace : Pace) : p.Shows o v ↔ p.EndsAlone pace o v := by
  rw [EndsAlone]
  simpa using shows_iff (p := p) (o := o) (v := v) pace Trace.undisturbed_nil

/-- An answer is seen, or there is only one. -/
theorem answer_unique {r : Request} {x y : r.Answer} {v w : Trace} (hx : r.Allows .quiet x [])
    (hy : r.Allows .quiet y [])
    (h : v ++ Trace.visible [.asked r x] = w ++ Trace.visible [.asked r y]) : x = y ∧ v = w := by
  cases seen : r.isVisible with
  | true =>
    have visible (z : r.Answer) : Trace.visible [.asked r z] = [.asked r z] :=
      List.filter_cons_of_pos seen
    rw [visible, visible] at h
    obtain ⟨rfl, last⟩ := List.append_inj' h rfl
    cases last
    exact ⟨rfl, rfl⟩
  | false =>
    have visible (z : r.Answer) : Trace.visible [.asked r z] = [] :=
      List.filter_cons_of_neg (by simp [seen])
    rw [visible, visible, List.append_nil, List.append_nil] at h
    cases r with
    | signal run => exact ⟨Eq.trans hx hy.symm, h⟩
    | between run => exact ⟨rfl, h⟩
    | _ => cases seen

/-- What is visible on the way tells how a program ends. -/
theorem Shows.unique {o' : Option α} (h : p.Shows o v) (h' : p.Shows o' v) : o = o' := by
  induction p generalizing v with
  | done a => exact h.1.trans h'.1.symm
  | panic => exact h.1.trans h'.1.symm
  | ask r next ih =>
    obtain ⟨x, w, hx, hw, rfl⟩ := h
    obtain ⟨y, w', hy, hw', same⟩ := h'
    obtain ⟨rfl, rfl⟩ := answer_unique hx hy same
    exact ih x hw hw'
  | pause p next ih =>
    obtain ⟨x, w, -, -, hw, hv⟩ := h
    obtain ⟨y, w', -, -, hw', hv'⟩ := h'
    have split (x : Wake) : [.woke x, .waits p] = [Incident.woke x] ++ [.waits p] := rfl
    rcases hv with rfl | rfl
    · rcases hv' with same | same
      · obtain ⟨rfl, last⟩ := List.append_inj' same rfl
        cases last
        exact ih x hw hw'
      · rw [split, ← List.append_assoc] at same
        cases (List.append_inj' same rfl).2
    · rcases hv' with same | same
      · rw [split, ← List.append_assoc] at same
        cases (List.append_inj' same rfl).2
      · obtain ⟨rfl, last⟩ := List.append_inj' same rfl
        cases last
        exact ih x hw hw'

/-! ## Programs that show the same -/

/-- The programs show the same. -/
def Alike (p q : Program α) : Prop := ∀ o v, p.Shows o v ↔ q.Shows o v

theorem Alike.refl (p : Program α) : p.Alike p := fun _ _ => .rfl

theorem Alike.trans (h : p.Alike q) (h' : q.Alike p') : p.Alike p' :=
  fun o v => (h o v).trans (h' o v)

/-- What follows a program may be replaced wherever the program can end. -/
theorem Alike.bind {f g : α → Program β} (h : ∀ a v, p.Shows (some a) v → (f a).Alike (g a)) :
    (p.bind f).Alike (p.bind g) := by
  induction p with
  | done a => exact h a [] ⟨rfl, rfl⟩
  | panic => exact .refl _
  | ask r next ih =>
    intro o v
    refine exists_congr fun x => exists_congr fun w => and_congr_right fun allowed => ?_
    exact and_congr_left' (ih x (fun a z hz => h a _ ⟨x, z, allowed, hz, rfl⟩) o w)
  | pause p next ih =>
    intro o v
    refine exists_congr fun x => exists_congr fun w => and_congr_right fun ne =>
      and_congr_right fun hd => ?_
    exact and_congr_left' (ih x (fun a z hz => h a _ ⟨x, z, ne, hd, hz, .inl rfl⟩) o w)

/-- A look at a signal that nobody calls finds it quiet, and is not seen. -/
theorem alike_signal {run : String} (f : Signal → Program α) :
    ((request (.signal run)).bind f).Alike (f .quiet) := by
  intro o v
  constructor
  · rintro ⟨x, w, rfl, hw, rfl⟩
    rw [show Trace.visible [.asked (.signal run) _] = [] from rfl, List.append_nil]
    exact hw
  · intro h
    exact ⟨.quiet, v, rfl, h, (List.append_nil v).symm⟩

/-- Nor is it seen that a run is between two nodes. -/
theorem alike_between {run : String} (f : Unit → Program α) :
    ((request (.between run)).bind f).Alike (f ()) := by
  intro o v
  constructor
  · rintro ⟨x, w, -, hw, rfl⟩
    rw [show Trace.visible [.asked (.between run) _] = [] from rfl, List.append_nil]
    exact hw
  · intro h
    exact ⟨(), v, trivial, h, (List.append_nil v).symm⟩

end Program

end Runbook
