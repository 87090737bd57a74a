import Runbook.Proofs.Trace

/-!
# Behaviours of programs

* `Program.Leads` — what a program can come to after a trace, and the trace then,
  however its surroundings go on.
* `Program.Ends` — that it comes to its end: with a value, or none if it panics.
* `Program.Ensures` — that every behaviour comes to its end, and what holds then.
  This is a recursion on the program, which is how such facts are proved.
* `Program.easily` — one behaviour among them, up to the first pause.
* `Program.Only` — what the program asks and returns, whatever it is answered, and so what it adds
  to a trace (`Trace.Adds`).

The two views agree (`Program.ensures_iff`), and every behaviour can be carried
on to an end (`Program.exists_ends`): no program goes on for ever, and none gets
stuck.
-/

namespace Runbook

/-! ## Possible answers -/

/-- An answer to an act that is possible after the trace `t`. -/
def Act.easy (t : Trace) : (a : Act) → a.Answer
  | .now => .ofMicros t.length
  | .isCanceled => t.signal.fired
  | .cancel .. | .fire | .inject .. | .script .. | .note _ => ()

/-- An answer to a request that is possible after the trace `t`: writes work, operations are at
work, the clock has not moved, and IDs and times for records differ. -/
def Request.easy (t : Trace) : (r : Request) → r.Answer
  | .newVisitId => toString t.length
  | .now => .ofMicros t.length
  | .clock => (0 : Nat)
  | .signal _ => t.signal
  | .between _ | .atWork .. => ()
  | .createVisit _ | .update .. => .ok ()
  | .beginQuery _ => none
  | .query _ => .ok .running
  | .act _ a => a.easy t

/-- The calls of the signal that the request itself makes. -/
def Request.ownCalls : Request → List SignalCall
  | .act _ .fire => [.fire]
  | _ => []

/-- The easy answer is a possible one: it calls the signal of its own accord only, and that is
allowed at any pace. -/
theorem Trace.answers_easy (pace : Pace) (t : Trace) (r : Request) :
    t.Answers pace r (r.easy t) (.calls r.ownCalls ++ .asked r (r.easy t) :: t) := by
  suffices (r.ownCalls = [] ∨ r.isOpen) ∧ r.Allows t.signal (r.easy t) r.ownCalls from
    ⟨_, this.1.imp_right .inl, this.2, rfl⟩
  cases r with
  | signal run => exact ⟨.inl rfl, rfl⟩
  | act run a =>
    cases a with
    | isCanceled => exact ⟨.inl rfl, rfl⟩
    | fire => exact ⟨.inr rfl, List.mem_singleton.2 rfl⟩
    | _ => exact ⟨.inl rfl, trivial⟩
  | _ => exact ⟨.inl rfl, trivial⟩

namespace Program

variable {α β : Type}

/-- What a program can come to, and the trace then. -/
inductive Leads (pace : Pace) : Program α → Trace → Program α → Trace → Prop where
  /-- nothing has happened yet -/
  | here {p : Program α} {t : Trace} : Leads pace p t p t
  /-- a request is answered -/
  | ask {r : Request} {next : r.Answer → Program α} {x : r.Answer} {q : Program α}
      {t u v : Trace} : t.Answers pace r x u → Leads pace (next x) u q v →
      Leads pace (.ask r next) t q v
  /-- a pause comes to its end -/
  | pause {p : Pause} {next : Wake → Program α} {w : Wake} {q : Program α} {t u v : Trace} :
      t.Wakes pace p w u → Leads pace (next w) u q v → Leads pace (.pause p next) t q v

/-- The end of a program: with a value, or by a panic. -/
def result : Option α → Program α
  | some a => .done a
  | none => .panic

/-- That a program can come to its end. -/
def Ends (pace : Pace) (p : Program α) (t : Trace) (o : Option α) (u : Trace) : Prop :=
  p.Leads pace t (result o) u

/-- Every behaviour comes to its end, and there the condition holds. -/
def Ensures (pace : Pace) : Program α → (Option α → Trace → Prop) → Trace → Prop
  | .done a, Q, t => Q (some a) t
  | .panic, Q, t => Q none t
  | .ask r next, Q, t => ∀ x u, t.Answers pace r x u → (next x).Ensures pace Q u
  | .pause p next, Q, t => ∀ w u, t.Wakes pace p w u → (next w).Ensures pace Q u

variable {pace : Pace} {p q : Program α} {f : α → Program β} {o : Option α} {t u v : Trace}
  {Q R : Option α → Trace → Prop}

/-! ## Behaviours -/

/-- Behaviours can be put together. -/
theorem Leads.trans {p' : Program α} (h : p.Leads pace t q u) (h' : q.Leads pace u p' v) :
    p.Leads pace t p' v := by
  induction h with
  | here => exact h'
  | ask hx _ ih => exact .ask hx (ih h')
  | pause hw _ ih => exact .pause hw (ih h')

/-- Some answer is always possible. -/
theorem exists_answers (t : Trace) (r : Request) : ∃ x u, t.Answers pace r x u :=
  ⟨_, _, t.answers_easy pace r⟩

/-- What a program comes to with these answers, up to its first pause, and the trace then. -/
def easily : Program α → Trace → Program α × Trace
  | .ask r next, t => (next (r.easy t)).easily (.calls r.ownCalls ++ .asked r (r.easy t) :: t)
  | p, t => (p, t)

/-- So the program can come to this. -/
theorem leads_easily (pace : Pace) (p : Program α) (t : Trace) :
    p.Leads pace t (p.easily t).1 (p.easily t).2 := by
  induction p generalizing t with
  | ask r next ih => exact .ask (t.answers_easy pace r) (ih _ _)
  | _ => exact .here

/-- If there is no pause, that is an end. -/
theorem ends_easily {a : α} (pace : Pace) (ended : (p.easily t).1 = .done a) :
    p.Ends pace t (some a) (p.easily t).2 := by
  have leads := p.leads_easily pace t
  rw [ended] at leads
  exact leads

/-- A run that waits may be interrupted by a call of its signal. -/
theorem Leads.interrupted {w : Pause} {next : Wake → Program α}
    (h : p.Leads pace t (.pause w next) u) (c : SignalCall) :
    p.Leads pace t (next .signalled) (.woke .signalled :: .called c :: .waits w :: u) := by
  have wakes : u.Wakes pace w .signalled (.woke .signalled :: .called c :: .waits w :: u) :=
    ⟨nofun, _, [], .inl rfl, rfl, .inr ⟨[c], by simp, rfl⟩⟩
  exact h.trans (.pause wakes .here)

/-- Every program can be carried on to an end. -/
theorem exists_ends (pace : Pace) (p : Program α) (t : Trace) : ∃ o u, p.Ends pace t o u := by
  induction p generalizing t with
  | done a => exact ⟨some a, t, .here⟩
  | panic => exact ⟨none, t, .here⟩
  | ask r next ih =>
    obtain ⟨x, u, hx⟩ := exists_answers t r
    obtain ⟨o, v, h⟩ := ih x u
    exact ⟨o, v, .ask hx h⟩
  | pause p next ih =>
    obtain ⟨o, v, h⟩ := ih .due (.passed p .due :: t)
    exact ⟨o, v, .pause ⟨by simp, _, [], .inl rfl, rfl, .inl ⟨by simp, rfl⟩⟩ h⟩

/-- Traces grow at their front. -/
theorem Leads.suffix (h : p.Leads pace t q u) : t <:+ u := by
  induction h with
  | here => exact List.suffix_refl _
  | ask hx _ ih =>
    obtain ⟨cs, -, -, rfl⟩ := hx
    exact ((List.suffix_cons _ _).trans (List.suffix_append _ _)).trans ih
  | pause hw _ ih =>
    obtain ⟨-, v, cs, -, rfl, ⟨-, rfl⟩ | ⟨cs', -, rfl⟩⟩ := hw
    · exact ((List.suffix_cons _ _).trans (List.suffix_append _ _)).trans ih
    · refine List.IsSuffix.trans ?_ ((List.suffix_append _ _).trans ih)
      exact ((List.suffix_cons _ _).trans (List.suffix_append _ _)).trans (List.suffix_cons _ _)

/-! ### Ends -/

@[simp] theorem ends_done {a : α} : (done a).Ends pace t o u ↔ o = some a ∧ u = t := by
  constructor
  · intro h
    cases o <;> cases h
    exact ⟨rfl, rfl⟩
  · rintro ⟨rfl, rfl⟩
    exact .here

@[simp] theorem ends_panic : (panic : Program α).Ends pace t o u ↔ o = none ∧ u = t := by
  constructor
  · intro h
    cases o <;> cases h
    exact ⟨rfl, rfl⟩
  · rintro ⟨rfl, rfl⟩
    exact .here

/-- A program that asks comes to an end by way of some answer, -/
theorem ends_ask {r : Request} {next : r.Answer → Program α} :
    (ask r next).Ends pace t o u ↔ ∃ x v, t.Answers pace r x v ∧ (next x).Ends pace v o u := by
  constructor
  · intro h
    cases o <;> cases h with
    | ask hx h => exact ⟨_, _, hx, h⟩
  · rintro ⟨x, v, hx, h⟩
    exact .ask hx h

/-- and one that waits by way of some end of its wait. -/
theorem ends_pause {p : Pause} {next : Wake → Program α} :
    (pause p next).Ends pace t o u ↔ ∃ w v, t.Wakes pace p w v ∧ (next w).Ends pace v o u := by
  constructor
  · intro h
    cases o <;> cases h with
    | pause hw h => exact ⟨_, _, hw, h⟩
  · rintro ⟨w, v, hw, h⟩
    exact .pause hw h

/-! ## What behaviours ensure -/

@[simp] theorem ensures_done (a : α) : (done a).Ensures pace Q t ↔ Q (some a) t := .rfl

@[simp] theorem ensures_panic : (panic : Program α).Ensures pace Q t ↔ Q none t := .rfl

/-- A condition that behaviours ensure is still ensured on the way. -/
theorem Ensures.of_leads (h : p.Ensures pace Q t) (hl : p.Leads pace t q u) :
    q.Ensures pace Q u := by
  induction hl with
  | here => exact h
  | ask hx _ ih => exact ih (h _ _ hx)
  | pause hw _ ih => exact ih (h _ _ hw)

/-- To ensure a condition is to let it hold at every end. -/
theorem ensures_iff : p.Ensures pace Q t ↔ ∀ o u, p.Ends pace t o u → Q o u := by
  constructor
  · intro h o u he
    have := h.of_leads he
    cases o <;> exact this
  · intro h
    induction p generalizing t with
    | done a => exact h _ _ .here
    | panic => exact h none _ .here
    | ask r next ih => exact fun x u hx => ih x fun o v he => h o v (.ask hx he)
    | pause p next ih => exact fun w u hw => ih w fun o v he => h o v (.pause hw he)

/-- What follows from the condition holds at the end, too. -/
theorem Ensures.mono (h : p.Ensures pace Q t) (imp : ∀ o u, Q o u → R o u) : p.Ensures pace R t :=
  ensures_iff.2 fun o u he => imp o u (ensures_iff.1 h o u he)

/-- Two conditions that behaviours ensure hold together. -/
theorem Ensures.and (h : p.Ensures pace Q t) (h' : p.Ensures pace R t) :
    p.Ensures pace (fun o u => Q o u ∧ R o u) t :=
  ensures_iff.2 fun o u he => ⟨ensures_iff.1 h o u he, ensures_iff.1 h' o u he⟩

/-- What is ensured when others may call the signal at any time is always ensured. -/
theorem Ensures.of_slow (h : p.Ensures .slow Q t) : p.Ensures pace Q t := by
  induction p generalizing t with
  | done a => exact h
  | panic => exact h
  | ask r next ih =>
    rintro x u ⟨cs, -, allowed, rfl⟩
    exact ih x (h x _ ⟨cs, .inr (.inr rfl), allowed, rfl⟩)
  | pause p next ih =>
    rintro w u ⟨deadline, v, cs, -, rfl, how⟩
    exact ih w (h w _ ⟨deadline, v, cs, .inr rfl, rfl, how⟩)

/-- What the second of two programs has to ensure, the first one does. -/
theorem ensures_bind {Q : Option β → Trace → Prop} :
    (p.bind f).Ensures pace Q t ↔
      p.Ensures pace (fun o u => match o with
        | some a => (f a).Ensures pace Q u
        | none => Q none u) t := by
  induction p generalizing t with
  | done a => rfl
  | panic => rfl
  | ask r next ih =>
    exact forall_congr' fun x => forall_congr' fun u => imp_congr_right fun _ => ih x
  | pause p next ih =>
    exact forall_congr' fun w => forall_congr' fun u => imp_congr_right fun _ => ih w

/-- A request is answered in some way. -/
theorem ensures_asked {r : Request} {f : r.Answer → Program β} {Q : Option β → Trace → Prop} :
    ((request r).bind f).Ensures pace Q t ↔
      ∀ x u, t.Answers pace r x u → (f x).Ensures pace Q u := .rfl

/-- A request is answered, and others may have their say. -/
theorem ensures_request {r : Request} {f : r.Answer → Program β}
    {Q : Option β → Trace → Prop} :
    ((request r).bind f).Ensures pace Q t ↔
      ∀ x cs, (cs = [] ∨ r.isOpen ∨ pace = .slow) → r.Allows t.signal x cs →
        (f x).Ensures pace Q (Trace.calls cs ++ .asked r x :: t) := by
  constructor
  · intro h x cs hcs hx
    exact h x _ ⟨cs, hcs, hx, rfl⟩
  · rintro h x u ⟨cs, hcs, hx, rfl⟩
    exact h x cs hcs hx

end Program

/-! ## What programs ask -/

namespace Trace

variable {pace : Pace} {A B : Request → Prop} {t u v : Trace}

/-- All that was asked from `t` to `u` has that property. -/
def Adds (A : Request → Prop) (t u : Trace) : Prop :=
  ∃ new, u = new ++ t ∧ ∀ r x, .asked r x ∈ new → A r

/-- To add nothing is to add what has the property. -/
theorem Adds.refl : t.Adds A t := ⟨[], rfl, by simp⟩

/-- What is added in two parts has it if both parts do. -/
theorem Adds.trans (h : t.Adds A u) (h' : u.Adds A v) : t.Adds A v := by
  obtain ⟨new, rfl, asks⟩ := h
  obtain ⟨new', rfl, asks'⟩ := h'
  refine ⟨new' ++ new, by simp, fun r x inside => ?_⟩
  exact (List.mem_append.1 inside).elim (asks' r x) (asks r x)

/-- It may be weakened. -/
theorem Adds.mono (h : t.Adds A u) (imp : ∀ r, A r → B r) : t.Adds B u := by
  obtain ⟨new, rfl, asks⟩ := h
  exact ⟨new, rfl, fun r x inside => imp r (asks r x inside)⟩

/-- What was there before stays behind what is added. -/
theorem Adds.suffix (h : t.Adds A u) : t <:+ u := by
  obtain ⟨new, rfl, -⟩ := h
  exact List.suffix_append new t

/-- Whatever is no answer. -/
theorem Adds.cons {e : Incident} (other : ∀ r x, e ≠ .asked r x) : t.Adds A (e :: t) := by
  refine ⟨[e], rfl, fun r x inside => ?_⟩
  exact absurd (List.mem_singleton.1 inside).symm (other r x)

/-- Calls of the signal are not asked for. -/
theorem Adds.calls (cs : List SignalCall) : t.Adds A (Trace.calls cs ++ t) :=
  ⟨.calls cs, rfl, by simp [Trace.calls]⟩

/-- A request with the property may be added, whatever is answered. -/
theorem Adds.asked {r : Request} (x : r.Answer) (h : A r) : t.Adds A (.asked r x :: t) := by
  refine ⟨[.asked r x], rfl, fun r' x' inside => ?_⟩
  cases List.mem_singleton.1 inside
  exact h

/-- So may all that happens while it is answered, which is the request and calls of the signal. -/
theorem Answers.adds {r : Request} {x : r.Answer} (answers : t.Answers pace r x u) (h : A r) :
    t.Adds A u := by
  obtain ⟨cs, -, -, rfl⟩ := answers
  exact (Adds.asked x h).trans (.calls cs)

/-- In particular the trace grows at its front. -/
theorem Answers.suffix {r : Request} {x : r.Answer} (answers : t.Answers pace r x u) : t <:+ u :=
  (answers.adds (A := fun _ => True) trivial).suffix

/-- Nothing is asked for while a program waits. -/
theorem Wakes.adds {p : Pause} {w : Wake} (wakes : t.Wakes pace p w u) : t.Adds A u := by
  obtain ⟨-, v, cs, -, rfl, ⟨-, rfl⟩ | ⟨cs', -, rfl⟩⟩ := wakes
  · exact (Adds.cons (by simp)).trans (.calls cs)
  · have waits : t.Adds A (Trace.calls cs' ++ .waits p :: t) :=
      (Adds.cons (by simp)).trans (.calls cs')
    exact waits.trans ((Adds.cons (by simp)).trans (.calls cs))

end Trace

namespace Program

variable {α β : Type} {pace : Pace} {p : Program α} {f : α → Program β} {t : Trace}
  {A B : Request → Prop} {P Q : α → Prop} {P' : β → Prop}

/-- All that the program asks has one property, and its value has another. -/
def Only (A : Request → Prop) (P : α → Prop) : Program α → Prop
  | .done a => P a
  | .panic => True
  | .ask r next => A r ∧ ∀ x, (next x).Only A P
  | .pause _ next => ∀ w, (next w).Only A P

/-- The value of the first part may be used for the second one. -/
theorem Only.bind (hp : p.Only A P) (hf : ∀ a, P a → (f a).Only A P') :
    (p.bind f).Only A P' := by
  induction p with
  | done a => exact hf a hp
  | panic => trivial
  | ask r next ih => exact ⟨hp.1, fun x => ih x (hp.2 x)⟩
  | pause p next ih => exact fun w => ih w (hp w)

/-- Both properties may be weakened. -/
theorem Only.mono (h : p.Only A P) (asks : ∀ r, A r → B r) (imp : ∀ a, P a → Q a) :
    p.Only B Q := by
  induction p with
  | done a => exact imp a h
  | panic => trivial
  | ask r next ih => exact ⟨asks r h.1, fun x => ih x (h.2 x)⟩
  | pause p next ih => exact fun w => ih w (h w)

/-- What is known of the requests from two sides holds at the same time. -/
theorem Only.and (h : p.Only A P) (h' : p.Only B Q) :
    p.Only (fun r => A r ∧ B r) fun a => P a ∧ Q a := by
  induction p with
  | done a => exact ⟨h, h'⟩
  | panic => trivial
  | ask r next ih => exact ⟨⟨h.1, h'.1⟩, fun x => ih x (h.2 x) (h'.2 x)⟩
  | pause p next ih => exact fun w => ih w (h w) (h' w)

/-- So it is with all that is asked while the program is carried out. -/
theorem Only.ensures (h : p.Only A P) :
    p.Ensures pace (fun o u => t.Adds A u ∧ ∀ a ∈ o, P a) t := by
  induction p generalizing t with
  | done a =>
    refine ⟨.refl, ?_⟩
    rintro _ ⟨⟩
    exact h
  | panic => exact ⟨.refl, by simp⟩
  | ask r next ih =>
    intro x u hx
    exact (ih x (h.2 x)).mono fun o v hv => ⟨(hx.adds h.1).trans hv.1, hv.2⟩
  | pause p next ih =>
    intro w u hw
    exact (ih w (h w)).mono fun o v hv => ⟨hw.adds.trans hv.1, hv.2⟩

end Program

end Runbook
