import Runbook.Proofs.Trace

/-!
# Orderly and calm traces

What is kept while a run goes on, as far as its signal is concerned.

* `Trace.Orderly` — the signal has been heeded.
* `Trace.Awake`, `Trace.Calm` — nothing has been interrupted, and nothing has even
  been canceled. Both can be told only if the store is prompt: else anybody may
  call the signal at any moment.
* `Trace.Idles` — the run only kept its records.
-/

namespace Runbook

namespace Trace

/-! ## Orderly traces -/

/-- A trace that heeds the signal, and in which only a signal that has fired
interrupts. -/
structure Orderly (t : Trace) : Prop where
  /-- nothing is begun too late -/
  heeds : t.Heeds
  /-- an interruption has its reason -/
  fired : t.Interrupted → t.signal.fired = true

/-- What holds at every place of a trace holds at the latest one and at the earlier ones. -/
theorem forall_cons_suffix {P : Incident → Trace → Prop} {e : Incident} {t : Trace} :
    (∀ e' u, e' :: u <:+ e :: t → P e' u) ↔ P e t ∧ ∀ e' u, e' :: u <:+ t → P e' u := by
  constructor
  · intro h
    exact ⟨h e t (List.suffix_refl _), fun e' u hu => h e' u (hu.trans (List.suffix_cons e t))⟩
  · rintro ⟨here, rest⟩ e' u hu
    rcases List.suffix_cons_iff.1 hu with heq | hu
    · obtain ⟨rfl, rfl⟩ := List.cons.inj heq
      exact here
    · exact rest e' u hu

theorem heeds_cons {e : Incident} {t : Trace} :
    Heeds (e :: t) ↔
      (e.begins → t.signal.fired = false) ∧ (e.isAct → ¬ t.Interrupted) ∧ t.Heeds :=
  forall_cons_suffix.trans and_assoc

theorem interrupted_cons {e : Incident} {t : Trace} :
    Interrupted (e :: t) ↔ e = .woke .signalled ∨ t.Interrupted := by
  rw [Interrupted, List.mem_cons, eq_comm, Interrupted]

/-- One more incident. -/
theorem Orderly.cons {e : Incident} {t : Trace} (h : t.Orderly)
    (begins : e.begins → t.signal.fired = false) (acts : e.isAct → ¬ t.Interrupted)
    (wakes : e = .woke .signalled → t.signal.fired = true) : Orderly (e :: t) := by
  refine ⟨heeds_cons.2 ⟨begins, acts, h.heeds⟩, fun hi => fired_cons e ?_⟩
  rcases interrupted_cons.1 hi with he | hi
  · exact wakes he
  · exact h.fired hi

/-- One more incident that can happen at any time. -/
theorem Orderly.free {e : Incident} {t : Trace} (h : t.Orderly) (free : e.isFree = true) :
    Orderly (e :: t) := by
  refine h.cons (fun hb => ?_) (fun ha => ?_) (fun he => by simp [he, Incident.isFree] at free)
  · cases e with
    | asked r x => cases r <;> simp_all [Incident.begins, Incident.isFree]
    | _ => simp [Incident.begins] at hb
  · cases e with
    | asked r x => cases r <;> simp_all [Incident.isAct, Incident.isFree]
    | _ => simp [Incident.isAct] at ha

/-- Before the signal fires, nothing is interrupted. -/
theorem Orderly.not_interrupted {t : Trace} (h : t.Orderly) (quiet : t.signal.fired = false) :
    ¬ t.Interrupted := fun hi => by simp [h.fired hi] at quiet

/-- Calls of the signal are always in order. -/
theorem Orderly.calls {t : Trace} (h : t.Orderly) (cs : List SignalCall) :
    Orderly (Trace.calls cs ++ t) := by
  induction cs with
  | nil => exact h
  | cons c cs ih => exact ih.free rfl

/-- Calls before anything else are in order, too. -/
theorem orderly_calls (cs : List SignalCall) : (Trace.calls cs).Orderly := by
  have : Orderly [] := ⟨fun e u h => by simpa using h.length_le, fun h => by cases h⟩
  simpa using this.calls cs

/-- Calls of the signal write nothing. -/
@[simp] theorem lastWrite?_calls (cs : List SignalCall) (t : Trace) :
    lastWrite? (calls cs ++ t) = lastWrite? t := by
  induction cs with
  | nil => rfl
  | cons c cs ih => exact ih

theorem interrupted_calls {cs : List SignalCall} {t : Trace} :
    Interrupted (calls cs ++ t) ↔ t.Interrupted := by
  induction cs with
  | nil => rfl
  | cons c cs ih => simpa [interrupted_cons] using ih

/-! ## While nothing is canceled -/

/-- Nothing has been interrupted; to be told only of prompt surroundings. -/
def Awake (pace : Pace) (t : Trace) : Prop := pace = .prompt → t.Orderly ∧ ¬ t.Interrupted

/-- Nothing has been canceled; to be told only of prompt surroundings. -/
def Calm (pace : Pace) (t : Trace) : Prop :=
  pace = .prompt → t.Orderly ∧ t.signal.fired = false

variable {pace : Pace} {t u v : Trace} {cs : List SignalCall}

/-- A request keeps the calm, unless others have their say. -/
theorem Calm.asked {r : Request} (h : t.Calm pace) (x : r.Answer)
    (hcs : cs = [] ∨ r.isOpen ∨ pace = .slow) (closed : r.isOpen = false) :
    Calm pace (calls cs ++ .asked r x :: t) := by
  intro hp
  obtain rfl : cs = [] := by simpa [closed, hp] using hcs
  obtain ⟨ordered, quiet⟩ := h hp
  refine ⟨ordered.cons (fun _ => quiet) (fun _ => ordered.not_interrupted quiet) (by simp), quiet⟩

/-- An executor that has not been interrupted goes on. -/
theorem Awake.act {run : String} {a : Act} {x : a.Answer} (h : t.Awake pace) :
    Awake pace (calls cs ++ .asked (.act run a) x :: t) := by
  intro hp
  obtain ⟨ordered, free⟩ := h hp
  refine ⟨.calls (ordered.cons (by simp [Incident.begins]) (fun _ => free) (by simp)) cs, ?_⟩
  rw [interrupted_calls, interrupted_cons]
  simpa using free

/-- It begins to work while nothing is canceled. -/
theorem Calm.atWork (h : t.Calm pace) (run : String) (scene : Scene) (cs : List SignalCall) :
    Awake pace (calls cs ++ .asked (.atWork run scene) () :: t) := by
  intro hp
  obtain ⟨ordered, quiet⟩ := h hp
  have free := ordered.not_interrupted quiet
  refine ⟨.calls (ordered.cons (fun _ => quiet) (by simp [Incident.isAct]) (by simp)) cs, ?_⟩
  rw [interrupted_calls, interrupted_cons]
  simpa using free

/-! ## Pauses -/

/-- A pause that the signal has ended leaves it fired. -/
theorem Wakes.fired {p : Pause} (h : t.Wakes pace p .signalled u) : u.signal.fired = true := by
  obtain ⟨-, v, cs, -, rfl, ⟨hw, -⟩ | ⟨cs', hw, rfl⟩⟩ := h
  · exact absurd rfl hw
  · exact fired_append _ (hw.1 rfl)

/-- In prompt surroundings the signal is called only while the run waits. -/
theorem Wakes.of_prompt {p : Pause} {w : Wake} (h : t.Wakes .prompt p w u) :
    w ≠ .signalled ∧ u = .passed p w :: t ∨
      ∃ cs, (w = .signalled ↔ (calls cs ++ .waits p :: t).signal.fired = true) ∧
        u = .woke w :: calls cs ++ .waits p :: t := by
  obtain ⟨-, v, cs, hcs, rfl, h⟩ := h
  obtain rfl : cs = [] := by simpa using hcs
  exact h

theorem Wakes.orderly {p : Pause} {w : Wake} (h : t.Wakes .prompt p w u) (ht : t.Orderly) :
    u.Orderly := by
  rcases h.of_prompt with ⟨-, rfl⟩ | ⟨cs, hw, rfl⟩
  · exact ht.free rfl
  · refine Orderly.cons (.calls (ht.free rfl) cs) (by simp [Incident.begins])
      (by simp [Incident.isAct]) fun he => hw.1 (by simpa using he)

/-- A run that was not interrupted is awake. -/
theorem Awake.wakes {p : Pause} {w : Wake} (h : t.Awake pace) (hw : t.Wakes pace p w u)
    (ne : w ≠ .signalled) : u.Awake pace := by
  rintro rfl
  obtain ⟨ordered, free⟩ := h rfl
  refine ⟨hw.orderly ordered, ?_⟩
  rcases hw.of_prompt with ⟨-, rfl⟩ | ⟨cs, -, rfl⟩
  · simpa [interrupted_cons] using free
  · rw [List.cons_append, interrupted_cons, interrupted_calls, interrupted_cons]
    simp [ne, free]

/-- If a calm run was not interrupted, nothing was canceled meanwhile. -/
theorem Calm.wakes {p : Pause} {w : Wake} (h : t.Calm pace) (hw : t.Wakes pace p w u)
    (ne : w ≠ .signalled) : u.Calm pace := by
  rintro rfl
  obtain ⟨ordered, quiet⟩ := h rfl
  refine ⟨hw.orderly ordered, ?_⟩
  rcases hw.of_prompt with ⟨-, rfl⟩ | ⟨cs, hf, rfl⟩
  · exact quiet
  · exact Bool.eq_false_iff.2 fun fired => ne (hf.2 fired)

/-! ## While the run keeps its records -/

end Trace

/-- Whether a request reads the time, looks at the signal or writes the record
of a run. -/
def Request.keepsRecords : Request → Bool
  | .now | .signal _ | .update .. => true
  | _ => false

namespace Trace

/-- From `t` to the later trace the run only kept its records. -/
inductive Idles (pace : Pace) (t : Trace) : Trace → Prop where
  /-- nothing has happened -/
  | refl : Idles pace t t
  /-- one more request -/
  | asked {u : Trace} {r : Request} (x : r.Answer) {cs : List SignalCall} (h : Idles pace t u)
      (keeps : r.keepsRecords) (hcs : cs = [] ∨ pace = .slow) :
    Idles pace t (calls cs ++ .asked r x :: u)

namespace Idles

variable {pace : Pace} {t u v : Trace}

theorem trans (h : Idles pace t u) (h' : Idles pace u v) : Idles pace t v := by
  induction h' with
  | refl => exact h
  | asked x _ keeps hcs ih => exact .asked x ih keeps hcs

theorem suffix (h : Idles pace t u) : t <:+ u := by
  induction h with
  | refl => exact List.suffix_refl _
  | asked x _ _ _ ih => exact (ih.trans (List.suffix_cons _ _)).trans (List.suffix_append _ _)

/-- A property that no record changes. -/
theorem preserves {P : Trace → Prop} (h : Idles .prompt t u)
    (step : ∀ (r : Request) (x : r.Answer) (u : Trace), r.keepsRecords → P u → P (.asked r x :: u))
    (ht : P t) : P u := by
  induction h with
  | refl => exact ht
  | asked x _ keeps hcs ih =>
    obtain rfl : _ = [] := by simpa using hcs
    exact step _ x _ keeps ih

/-- A signal that has fired stays so. -/
theorem fired (h : Idles pace t u) (ht : t.signal.fired = true) : u.signal.fired = true := by
  obtain ⟨v, rfl⟩ := h.suffix
  exact fired_append v ht

theorem signal_eq (h : Idles .prompt t u) : u.signal = t.signal :=
  h.preserves (P := fun u => u.signal = t.signal) (fun _ _ _ _ hu => hu) rfl

theorem struck_eq (h : Idles .prompt t u) : u.struck = t.struck :=
  h.preserves (P := fun u => u.struck = t.struck) (fun _ _ _ _ hu => hu) rfl

theorem not_interrupted (h : Idles .prompt t u) (ht : ¬ t.Interrupted) : ¬ u.Interrupted :=
  h.preserves (P := fun u => ¬ u.Interrupted)
    (fun _ _ _ _ hu => by simpa [interrupted_cons] using hu) ht

theorem orderly (h : Idles .prompt t u) (ht : t.Orderly) : u.Orderly := by
  refine h.preserves (P := Orderly) (fun r x u keeps hu => hu.free ?_) ht
  cases r <;> first | rfl | simp [Request.keepsRecords] at keeps

theorem calm (h : Idles pace t u) (ht : t.Calm pace) : u.Calm pace := by
  rintro rfl
  exact ⟨h.orderly (ht rfl).1, h.signal_eq ▸ (ht rfl).2⟩

end Idles

end Trace

end Runbook
