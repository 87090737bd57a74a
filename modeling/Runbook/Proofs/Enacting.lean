import Runbook.Proofs.Polling
import Runbook.Proofs.Reachability

/-!
# Runs whose nodes end as chosen

For each node it can be chosen whether its executor succeeds or fails. A run that is left alone, and
whose writes all work, then goes along the chosen events. So it can come to a node exactly if a path
of events does.

* `Trace.Executes`, `Run.path_of_executes` — which executors have worked, and that in every run they
  are those of nodes to which paths lead.
* `Definition.enact` — the procedure with executors that end as chosen.
* `Run.ensures_step_enact` — what one such node comes to.
* `Run.carries_steered` — what the run has executed, and what is still ahead of it.
* `Program.exists_ends_smooth` — a program that does not cancel itself can be left alone.
* `Definition.warns_exactly` — warnings, paths and runs.
-/

namespace Runbook

open Program Relation

/-! ## Which executors work -/

/-- The node whose executor begins to work. -/
def Request.starts? : Request → Option String
  | atWork _ scene => some scene.visit.name
  | _ => none

/-- If an executor begins to work, its node has that property. -/
def Request.Starts (P : String → Prop) (r : Request) : Prop := ∀ a, r.starts? = some a → P a

theorem Request.starts_of_enters {P : String → Prop} {r : Request} (h : r.enters = false) :
    r.Starts P := by
  cases r with
  | atWork => cases h
  | _ =>
    intro a own
    cases own

/-- The executor of the node of that name has worked. -/
def Trace.Executes (t : Trace) (name : String) : Prop :=
  ∃ r x, .asked r x ∈ t ∧ r.starts? = some name

theorem Trace.Executes.of_suffix {t u : Trace} {name : String} (h : t.Executes name)
    (later : t <:+ u) : u.Executes name := by
  obtain ⟨r, x, inside, own⟩ := h
  exact ⟨r, x, later.subset inside, own⟩

theorem Program.Only.starts {α : Type} {P : α → Prop} {Q : String → Prop} {p : Program α}
    (h : p.Stays P) : p.Only (·.Starts Q) fun _ => True :=
  h.mono (fun _ => Request.starts_of_enters) fun _ _ => trivial

namespace Run

variable {r : Run} {n : NodeSpec} {v : Visit} {d : Definition} {ok : Bool} {pace : Pace}
  {t u : Trace} {name : String} {target : Option String}

theorem only_execute_starts (own : v.name = n.name) :
    (r.execute n v).Only (·.Starts (· = n.name)) fun _ => True := by
  have other {q : Request} (h : q.enters = false) : q.Starts (· = n.name) :=
    Request.starts_of_enters h
  refine ⟨other rfl, fun signal => ?_⟩
  dsimp only [done_bind]
  split
  · trivial
  · refine ⟨other rfl, fun clock => ⟨?_, fun _ => ?_⟩⟩
    · rintro _ ⟨⟩
      exact own
    · exact (Execution.stays_program _).starts.bind fun _ _ => ⟨other rfl, fun _ => trivial⟩

/-- At a node no other executor works. -/
theorem only_step_starts : (r.step n).Only (·.Starts (· = n.name)) fun _ => True := by
  have none {q : Request} (h : q.starts? = .none) : q.Starts (· = n.name) := by
    intro a own
    rw [h] at own
    cases own
  refine ⟨none rfl, fun id => ⟨none rfl, fun now => ⟨none rfl, fun created => ?_⟩⟩⟩
  dsimp only [done_bind]
  split
  · exact records_afterFailure.stays.starts
  · refine records_save.stays.starts.bind ?_
    rintro ⟨saved, r'⟩ -
    dsimp only
    split
    · exact records_failWith.stays.starts
    · refine (only_execute_starts rfl).bind ?_
      rintro ⟨v, _ | f, r'⟩ -
      · exact stays_settleVisit.starts
      · exact records_failWith.stays.starts

/-- The executors that work along a walk are those of nodes to which paths lead. -/
theorem only_walk_starts {nodes : List NodeSpec} (inside : ∀ n ∈ nodes, n ∈ d.nodes)
    (path : ∀ a ∈ target, ReflTransGen (Leads d.nodes) startName a) :
    (walk nodes target ok r).Only (·.Starts (ReflTransGen (Leads d.nodes) startName))
      fun _ => True := by
  -- on the nodes that are left; a path leads to the one that is next
  induction nodes generalizing target ok r with
  | nil => exact records_arrive.stays.starts
  | cons n nodes ih =>
    obtain ⟨here, behind⟩ := List.forall_mem_cons.1 inside
    cases target with
    | none => exact records_arrive.stays.starts
    | some name =>
      rw [walk]
      split
      · next own =>
        subst own
        have come := path n.name rfl
        have further (e : Event) : ∀ a ∈ n.target e, ReflTransGen (Leads d.nodes) startName a :=
          fun a target => come.tail ⟨n, here, rfl, NodeSpec.mem_successors.2 ⟨e, target⟩⟩
        refine ⟨Request.starts_of_enters rfl, fun _ =>
          ⟨Request.starts_of_enters rfl, fun signal => ?_⟩⟩
        dsimp only [done_bind]
        split
        · exact records_stopCanceled.stays.starts
        · have step : (r.step n).Only (·.Starts (ReflTransGen (Leads d.nodes) startName))
              fun _ => True :=
            only_step_starts.mono (fun q h a own => h a own ▸ come) fun _ h => h
          refine step.bind ?_
          rintro ⟨course, r'⟩ -
          cases course with
          | advance => exact ih behind (further .success)
          | recover => exact ih behind (further .fail)
          | stop => trivial
      · exact ih behind path

/-- In every run, whatever happens around it, only executors of such nodes work. -/
theorem path_of_executes {before : List SignalCall} {o : Option (Bool × Run)}
    (ends : r.start.Ends pace (.calls before) o u) (executes : u.Executes name) :
    ReflTransGen (Leads r.definition.nodes) startName name := by
  have begins : ∀ a ∈ some startName, ReflTransGen (Leads r.definition.nodes) startName a := by
    rintro _ ⟨⟩
    exact .refl
  have only : r.start.Only (·.Starts (ReflTransGen (Leads r.definition.nodes) startName))
      fun _ => True :=
    (only_walk_starts (fun _ h => h) begins).bind fun _ _ => records_close.stays.starts
  obtain ⟨⟨new, rfl, asks⟩, -⟩ := ensures_iff.1 only.ensures _ u ends
  obtain ⟨q, x, inside, own⟩ := executes
  rcases List.mem_append.1 inside with asked | called
  · exact asks q x asked name own
  · simp [Trace.calls] at called

end Run

/-! ## Executors that end as chosen -/

/-- The executor that ends so at once. If it succeeds, its visit has ended well, and there is
nothing to wait for. -/
def Event.executor : Event → Executor
  | .success => fun scene =>
    .finish { scene with visit := { scene.visit with status := .finished } } .done
  | .fail => fun scene => .finish scene (.error "")

/-- Why its node fails, if it does. -/
def Event.failure? : Event → Option Failure
  | .success => none
  | .fail => some (.executor "")

/-- How a run goes on after a node that ended with the event. -/
def Event.course : Event → Run.Course
  | .success => .advance
  | .fail => .recover

/-- The node with an executor that ends as chosen. -/
def NodeSpec.enact (outcomes : String → Event) (n : NodeSpec) : NodeSpec :=
  { n with executor := (outcomes n.name).executor }

theorem Forward.map {nodes : List NodeSpec} {f : NodeSpec → NodeSpec} (h : Forward nodes)
    (name : ∀ n, (f n).name = n.name) (successors : ∀ n, (f n).successors = n.successors) :
    Forward (nodes.map f) := by
  induction nodes with
  | nil => trivial
  | cons n rest ih =>
    have names : (rest.map f).map NodeSpec.name = rest.map NodeSpec.name := by
      simp [Function.comp_def, name]
    exact ⟨by rw [successors, names]; exact h.1, ih h.2⟩

namespace Definition

variable {d : Definition} {n : NodeSpec} {a : String} (outcomes : String → Event)

theorem names_enact (nodes : List NodeSpec) :
    (nodes.map (NodeSpec.enact outcomes)).map NodeSpec.name = nodes.map NodeSpec.name := by
  simp [NodeSpec.enact, Function.comp_def]

/-- The procedure with executors that end as chosen. -/
def enact (d : Definition) (outcomes : String → Event) : Definition where
  name := d.name
  nodes := d.nodes.map (NodeSpec.enact outcomes)
  named := d.named
  nodesNamed := by
    intro m hm
    obtain ⟨n, hn, rfl⟩ := List.mem_map.1 hm
    exact d.nodesNamed n hn
  distinct := by
    rw [names_enact]
    exact d.distinct
  hasStart := by
    rw [names_enact]
    exact d.hasStart
  forward := d.forward.map (fun _ => rfl) fun _ => rfl

/-- Its events lead where they did. -/
theorem leads_enact (d : Definition) : Leads (d.enact outcomes).nodes = Leads d.nodes := by
  funext a b
  refine propext ⟨?_, ?_⟩
  · rintro ⟨_, inside, own⟩
    obtain ⟨n, hn, rfl⟩ := List.mem_map.1 inside
    exact ⟨n, hn, own⟩
  · rintro ⟨n, hn, own⟩
    exact ⟨_, List.mem_map_of_mem hn, own⟩

variable {outcomes}

theorem node?_enact : (d.enact outcomes).node? a = (d.node? a).map (NodeSpec.enact outcomes) := by
  simp only [node?, enact, List.find?_map]
  rfl

end Definition

/-! ## One node -/

/-- What holds of all later traces holds in the end. -/
theorem Program.ensures_of_suffix {α : Type} {pace : Pace} {p : Program α} {t : Trace}
    {Q : Option α → Trace → Prop} (h : ∀ o u, t <:+ u → Q o u) : p.Ensures pace Q t :=
  ensures_iff.2 fun o u ends => h o u ends.suffix

namespace Trace

variable {t u : Trace}

/-- Nobody has called the signal, and every write has worked. -/
structure Smooth (t : Trace) : Prop where
  /-- nobody has called the signal -/
  undisturbed : t.Undisturbed
  /-- every write has worked -/
  clean : t.Clean

theorem Smooth.of_suffix (h : u.Smooth) (later : t <:+ u) : t.Smooth :=
  ⟨h.undisturbed.of_suffix later, fun e he => h.clean e (later.subset he)⟩

/-- Then the signal is quiet. -/
theorem Smooth.not_fired (h : u.Smooth) (later : t <:+ u) : t.signal.fired ≠ true := by
  rw [(h.undisturbed.of_suffix later).signal_eq]
  decide

/-- No write has failed. -/
theorem Smooth.not_failed (h : u.Smooth) (later : t <:+ u) {e : Incident} (inside : e ∈ t) :
    e.isFailedWrite ≠ true := by
  rw [h.clean e (later.subset inside)]
  decide

end Trace

namespace Run

variable {r : Run} {n : NodeSpec} {v : Visit} {pace : Pace} {t : Trace} {e : Event}

/-- Its work, left alone. -/
theorem ensures_execute_enact (own : n.executor = e.executor) (named : v.name = n.name) :
    (r.execute n v).Ensures pace (fun o u => u.Smooth → u.Executes n.name ∧
      ∃ w r', o = some (w, e.failure?, r') ∧ (e = .success → w.status = .finished)) t := by
  refine ensures_signal fun cs _ => ?_
  split
  · next fired =>
    refine ensures_of_suffix fun o u later smooth => ?_
    exact absurd fired (smooth.not_fired (((List.suffix_cons _ _).trans
      (List.suffix_append _ _)).trans later))
  · refine ensures_asked.2 fun clock t₁ _ => ensures_asked.2 fun _ t₂ h₂ => ?_
    have begun : t₂.Executes n.name := by
      obtain ⟨cs, -, -, rfl⟩ := h₂
      exact ⟨_, _, List.mem_append_right _ List.mem_cons_self, congrArg some named⟩
    -- the run looks at its signal once more when the executor is through
    have ended (u : Trace) (cs : List SignalCall) (smooth : u.Smooth)
        (looked : u = Trace.calls cs ++ .asked (.signal r.id) t₂.signal :: t₂) :
        u.Executes n.name ∧ t₂.signal.fired ≠ true := by
      have later : t₂ <:+ u := looked ▸ (List.suffix_cons _ _).trans (List.suffix_append _ _)
      exact ⟨begun.of_suffix later, smooth.not_fired later⟩
    rw [own]
    cases e with
    | success =>
      refine ensures_signal fun cs _ smooth => ?_
      obtain ⟨executed, quiet⟩ := ended _ cs smooth rfl
      have judged : failure? t₂.signal n.limit (.finished .done) = none := if_neg quiet
      exact ⟨executed, _, _, by rw [judged]; rfl, fun _ => rfl⟩
    | fail =>
      refine ensures_signal fun cs _ smooth => ?_
      obtain ⟨executed, quiet⟩ := ended _ cs smooth rfl
      have judged : failure? t₂.signal n.limit (.finished (.error "")) = some (.executor "") :=
        if_neg quiet
      exact ⟨executed, _, _, by rw [judged]; rfl, fun absent => by cases absent⟩

/-- A node whose executor ends so, left alone: its executor has worked, and the run goes on where
the event leads. -/
def Enacts (n : NodeSpec) (e : Event) (o : Option (Course × Run)) (u : Trace) : Prop :=
  u.Smooth → u.Executes n.name ∧ ∃ r', o = some (e.course, r')

theorem ensures_step_enact (own : n.executor = e.executor) :
    (r.step n).Ensures pace (Enacts n e) t := by
  refine ensures_asked.2 fun id t₁ _ => ensures_asked.2 fun now t₂ _ =>
    ensures_asked.2 fun created t₃ h₃ => ?_
  obtain ⟨cs, -, -, rfl⟩ := h₃
  -- a write that fails would not be smooth, and so nothing is claimed of it
  cases created with
  | error e =>
    refine ensures_of_suffix fun o u later smooth => ?_
    exact absurd rfl (smooth.not_failed later (List.mem_append_right _ List.mem_cons_self))
  | ok =>
    refine ensures_bind.2 (ensures_save fun now saved u _ last => ?_)
    have written := List.mem_of_find?_eq_some last
    cases saved with
    | error e =>
      refine ensures_of_suffix fun o u later smooth => ?_
      exact absurd rfl (smooth.not_failed later written)
    | ok =>
      refine ensures_bind.2 ((ensures_execute_enact own rfl).mono fun o u worked => ?_)
      by_cases smooth : u.Smooth
      · obtain ⟨executed, v, r', rfl, finished⟩ := worked smooth
        -- the executor ends as it was told, and then the node does
        cases e with
        | success =>
          change (r'.settleVisit n v).Ensures pace (Enacts n .success) u
          rw [settleVisit]
          split
          · refine ensures_asked.2 fun now u' answers _ => ?_
            exact ⟨executed.of_suffix answers.suffix, _, rfl⟩
          · rw [if_pos (finished rfl)]
            exact fun _ => ⟨executed, _, rfl⟩
        | fail =>
          change (r'.failWith (.executor "")).Ensures pace (Enacts n .fail) u
          refine ensures_asked.2 fun now u' answers _ => ?_
          exact ⟨executed.of_suffix answers.suffix, _, rfl⟩
      · cases o with
        | none => exact fun smooth' => absurd smooth' smooth
        | some x =>
          refine ensures_of_suffix fun o u' later smooth' => ?_
          exact absurd (smooth'.of_suffix later) smooth

end Run

/-! ## The whole run -/

namespace Run

variable {r : Run} {d : Definition} {n : NodeSpec} {outcomes : String → Event} {pace : Pace}
  {t u : Trace} {target : Option String} {a b : String}

/-- The nodes to which the chosen events lead from the start have been executed, or the walk is
still on the way to them. -/
def Bound (d : Definition) (outcomes : String → Event) (target : Option String) (t : Trace) :
    Prop :=
  t.Smooth → ∀ b, ReflTransGen (d.Steers outcomes) startName b →
    t.Executes b ∨ ∃ a ∈ target, ReflTransGen (d.Steers outcomes) a b

theorem Bound.of_suffix (h : Bound d outcomes target t) (later : t <:+ u) :
    Bound d outcomes target u := by
  intro smooth b path
  exact (h (smooth.of_suffix later) b path).imp_left (·.of_suffix later)

/-- A node that was executed is behind the walk, which goes on to where its event leads. -/
theorem Bound.enacts (h : Bound d outcomes (some n.name) t) (found : d.node? n.name = some n)
    (later : t <:+ u) (executed : u.Executes n.name) :
    Bound d outcomes (n.target (outcomes n.name)) u := by
  intro smooth b path
  rcases h (smooth.of_suffix later) b path with before | ⟨_, ⟨⟩, ahead⟩
  · exact .inl (before.of_suffix later)
  · rcases ahead.cases_head with rfl | ⟨c, ⟨m, same, target⟩, further⟩
    · exact .inl executed
    · obtain rfl := Option.some.inj (found.symm.trans same)
      exact .inr ⟨c, target, further⟩

/-- Where a run has ended, nothing is ahead of it any more. -/
theorem carries_steered (d : Definition) (outcomes : String → Event) (pace : Pace) :
    Carries pace (d.enact outcomes) (fun target _ _ t => Bound d outcomes target t)
      fun _ u => Bound d outcomes none u where
  arrives bound := ensures_of_suffix fun _ _ later => bound.of_suffix later
  cancels := by
    intro target ok r t u bound looks fired
    refine ensures_of_suffix fun o v later smooth => ?_
    exact absurd fired (smooth.not_fired later)
  steps := by
    intro n ok r t u bound found looks _
    rw [Definition.node?_enact] at found
    obtain ⟨m, here, rfl⟩ := Option.map_eq_some_iff.1 found
    have come : Bound d outcomes (some m.name) u := bound.of_suffix
      (looks.adds (A := fun _ => True) (fun _ => trivial) fun _ => trivial).suffix
    have enacted : (r.step (m.enact outcomes)).Ensures pace
        (Enacts (m.enact outcomes) (outcomes m.name)) u := ensures_step_enact rfl
    -- the node is enacted, and the trace has grown
    refine (enacted.and (ensures_of_suffix fun _ _ later => later)).mono ?_
    rintro o v ⟨enacted, later⟩
    by_cases smooth : v.Smooth
    · obtain ⟨executed, r', rfl⟩ := enacted smooth
      have on : Bound d outcomes (m.target (outcomes m.name)) v := come.enacts here later executed
      cases chosen : outcomes m.name with
      | success | fail =>
        rw [chosen] at on
        exact on
    -- nothing is claimed of a run that was disturbed
    · have vacuous (target : Option String) : Bound d outcomes target v :=
        fun smooth' => absurd smooth' smooth
      rcases o with _ | ⟨_ | _ | _, r'⟩ <;> exact vacuous _

/-- A run whose nodes end as chosen, left alone, executes all nodes to which the chosen events
lead. -/
theorem executes_of_steered {o : Option (Bool × Run)} (own : r.definition = d.enact outcomes)
    (ends : r.start.Ends pace [] o u) (smooth : u.Smooth)
    (path : ReflTransGen (d.Steers outcomes) startName b) : u.Executes b := by
  have begins : Bound d outcomes (some startName) [] := fun _ b path => .inr ⟨startName, rfl, path⟩
  have whole : r.start.Ensures pace (fun _ u => Bound d outcomes none u) [] := by
    refine ensures_bind.2 (Ensures.mono ((carries_steered d outcomes pace).ensures_walk
      (own ▸ List.suffix_refl _) ?_ begins) ?_)
    · rintro _ ⟨⟩
      exact r.definition.hasStart
    · rintro (_ | ⟨ok, r'⟩) v bound
      · exact bound
      · exact ensures_of_suffix fun _ _ later => bound.of_suffix later
  rcases ensures_iff.1 whole o u ends smooth b path with executed | ⟨_, nothing, -⟩
  · exact executed
  · cases nothing

end Run

/-! ## Leaving a run alone -/

namespace Program

variable {α : Type} {pace : Pace} {P : α → Prop} {p : Program α} {t : Trace}

/-- Every request but that of an executor to fire the signal can be answered so that nobody calls
the signal, and so that writes work. -/
theorem exists_answer_smooth (r : Request) (idle : ∀ run, r ≠ .act run .fire) :
    ∃ x, r.Allows .quiet x [] ∧ (Incident.asked r x).isFailedWrite = false := by
  cases r with
  | newVisitId => exact ⟨"", trivial, rfl⟩
  | now => exact ⟨.ofMicros 0, trivial, rfl⟩
  | clock => exact ⟨(0 : Nat), trivial, rfl⟩
  | signal run => exact ⟨.quiet, rfl, rfl⟩
  | between run => exact ⟨(), trivial, rfl⟩
  | atWork run scene => exact ⟨(), trivial, rfl⟩
  | createVisit v => exact ⟨.ok (), trivial, rfl⟩
  | update r visits => exact ⟨.ok (), trivial, rfl⟩
  | beginQuery operation => exact ⟨none, trivial, rfl⟩
  | query operation => exact ⟨.ok .running, trivial, rfl⟩
  | act run a =>
    cases a with
    | now => exact ⟨.ofMicros 0, trivial, rfl⟩
    | isCanceled => exact ⟨false, rfl, rfl⟩
    | fire => exact absurd rfl (idle run)
    | _ => exact ⟨(), trivial, rfl⟩

/-- A program that does not fire its own signal can be left alone, with all its writes working. -/
theorem exists_ends_smooth (only : p.Only (fun r => ∀ run, r ≠ .act run .fire) P)
    (smooth : t.Smooth) : ∃ o u, p.Ends pace t o u ∧ u.Smooth := by
  induction p generalizing t with
  | done a => exact ⟨some a, t, .here, smooth⟩
  | panic => exact ⟨none, t, .here, smooth⟩
  | ask r next ih =>
    obtain ⟨x, allowed, works⟩ := exists_answer_smooth r only.1
    have answered : Trace.Smooth (.asked r x :: t) :=
      ⟨Trace.undisturbed_cons.2 ⟨by simp, smooth.undisturbed⟩,
        Trace.clean_cons.2 ⟨works, smooth.clean⟩⟩
    rw [← smooth.undisturbed.signal_eq] at allowed
    obtain ⟨o, u, ends, smooth'⟩ := ih x (only.2 x) answered
    exact ⟨o, u, .ask ⟨[], .inl rfl, allowed, rfl⟩ ends, smooth'⟩
  | pause p next ih =>
    have passed : Trace.Smooth (.passed p .due :: t) :=
      ⟨Trace.undisturbed_cons.2 ⟨by simp, smooth.undisturbed⟩,
        Trace.clean_cons.2 ⟨rfl, smooth.clean⟩⟩
    obtain ⟨o, u, ends, smooth'⟩ := ih .due (only .due) passed
    exact ⟨o, u, .pause ⟨by simp, _, [], .inl rfl, rfl, .inl ⟨by simp, rfl⟩⟩ ends, smooth'⟩

end Program

/-- What executors may do that do not fire the signal of their run. -/
def Conduct.patient : Conduct := ⟨(· ≠ .fire), fun _ => True⟩

namespace Run

variable {r : Run} {d : Definition} {outcomes : String → Event} {pace : Pace}

/-- A run of the procedure before it begins, with executors that end as chosen. -/
structure Plays (r : Run) (d : Definition) (outcomes : String → Event) : Prop where
  /-- its procedure -/
  definition : r.definition = d.enact outcomes
  /-- it has not entered a node -/
  fresh : r.trail = []

/-- What may have happened when the run has ended, if nobody calls its signal and all its writes
work. -/
def LeftAlone (r : Run) (pace : Pace) (u : Trace) : Prop :=
  ∃ o, r.start.Ends pace [] o u ∧ u.Smooth

/-- A run whose nodes end as chosen can be left alone. -/
theorem Plays.exists_leftAlone (h : r.Plays d outcomes) : ∃ u, r.LeftAlone pace u := by
  have patient : ∀ n ∈ r.definition.nodes, n.Within .patient := by
    rw [h.definition]
    intro n hn scene allows
    obtain ⟨m, -, rfl⟩ := List.mem_map.1 hn
    change ((outcomes m.name).executor scene).Within .patient scene.visit.id
    cases outcomes m.name with
    | success | fail => exact ⟨rfl, allows⟩
  have idle (q : Request) (within : q.Within .patient) : ∀ run, q ≠ .act run .fire := by
    rintro run rfl
    exact within rfl
  have alone : ∃ o u, r.start.Ends pace [] o u ∧ u.Smooth :=
    exists_ends_smooth ((proper_start h.fresh patient).only.mono idle fun _ _ => trivial)
      ⟨Trace.undisturbed_nil, fun e he => by cases he⟩
  obtain ⟨o, u, ends, smooth⟩ := alone
  exact ⟨u, o, ends, smooth⟩

end Run

/-! ## Warnings -/

namespace Definition

variable {d : Definition} {outcomes : String → Event} {pace : Pace} {name a : String}
  {nodes : List NodeSpec} {n : NodeSpec}

theorem exists_plays (d : Definition) (outcomes : String → Event) :
    ∃ r : Run, r.Plays d outcomes :=
  ⟨.create (.create "" "" "" "" "" (.ofMicros 0)) (d.enact outcomes)
    ⟨.ofMillis 3000, 1200, .bestEffort, "", by decide⟩ default, rfl, rfl⟩

/-- With these ends, some run that is left alone executes the node of that name. -/
def MayExecute (d : Definition) (outcomes : String → Event) (pace : Pace) (name : String) : Prop :=
  ∃ (r : Run) (u : Trace), r.Plays d outcomes ∧ r.LeftAlone pace u ∧ u.Executes name

/-- With these ends, every run that is left alone executes it. -/
def MustExecute (d : Definition) (outcomes : String → Event) (pace : Pace) (name : String) :
    Prop :=
  ∀ (r : Run) (u : Trace), r.Plays d outcomes → r.LeftAlone pace u → u.Executes name

/-- There are such runs. -/
theorem MustExecute.mayExecute (h : d.MustExecute outcomes pace a) :
    d.MayExecute outcomes pace a := by
  obtain ⟨r, plays⟩ := d.exists_plays outcomes
  obtain ⟨u, alone⟩ := plays.exists_leftAlone
  exact ⟨r, u, plays, alone, h r u plays alone⟩

/-- A path of events leads to each node that is executed. -/
theorem MayExecute.path (h : d.MayExecute outcomes pace a) :
    ReflTransGen (Leads d.nodes) startName a := by
  obtain ⟨r, u, plays, ⟨o, ends, -⟩, executes⟩ := h
  have ends : r.start.Ends pace (.calls []) o u := ends
  have path := Run.path_of_executes ends executes
  rwa [plays.definition, leads_enact] at path

/-- A node to which a path leads is executed if the nodes on the path end with its events. -/
theorem exists_mustExecute_of_path (pace : Pace)
    (path : ReflTransGen (Leads d.nodes) startName a) :
    ∃ outcomes, d.MustExecute outcomes pace a := by
  obtain ⟨outcomes, path⟩ := exists_steers_of_path path
  refine ⟨outcomes, ?_⟩
  rintro r u plays ⟨o, ends, smooth⟩
  exact Run.executes_of_steered plays.definition ends smooth path

/-- Of a procedure that is built, exactly those nodes are warned about to which no path of events
leads from the start. These are the nodes that no run executes that is left alone, however it is
chosen which nodes succeed and which fail. For any other node it can even be chosen so that all
these runs execute it. What is warned about, no run of the procedure executes, whatever happens. -/
theorem warns_exactly (built : build name nodes = .ok d) (inside : n ∈ nodes) (pace : Pace) :
    (d.warning n ∈ d.warnings ↔ ¬ ReflTransGen (Leads nodes) startName n.name) ∧
    (d.warning n ∈ d.warnings ↔ ¬ ∃ outcomes, d.MayExecute outcomes pace n.name) ∧
    (d.warning n ∈ d.warnings ↔ ¬ ∃ outcomes, d.MustExecute outcomes pace n.name) ∧
    (d.warning n ∈ d.warnings → ∀ (r : Run) before o u, r.definition = d →
      r.start.Ends pace (.calls before) o u → ¬ u.Executes n.name) := by
  obtain ⟨-, perm⟩ := perm_of_build built
  rw [← leads_congr perm]
  have warned := warning_mem_warnings_iff (perm.mem_iff.2 inside)
  have may : ReflTransGen (Leads d.nodes) startName n.name ↔
      ∃ outcomes, d.MayExecute outcomes pace n.name :=
    ⟨fun path => (exists_mustExecute_of_path pace path).imp fun _ h => h.mayExecute,
      fun ⟨_, h⟩ => h.path⟩
  have must : ReflTransGen (Leads d.nodes) startName n.name ↔
      ∃ outcomes, d.MustExecute outcomes pace n.name :=
    ⟨exists_mustExecute_of_path pace, fun ⟨_, h⟩ => h.mayExecute.path⟩
  refine ⟨warned, warned.trans (not_congr may), warned.trans (not_congr must), ?_⟩
  rintro told r before o u rfl ends executes
  exact warned.1 told (Run.path_of_executes ends executes)

/-- A node to which two events lead. -/
def report : NodeSpec := ⟨"report", .immediate, Event.success.executor, none, none, none⟩

/-- A node to which none does. -/
def island : NodeSpec := ⟨"island", .immediate, Event.success.executor, some "report", none, none⟩

/-- The way from the start to the report is a failure and then a success. -/
def detour : List NodeSpec :=
  [⟨startName, .immediate, Event.success.executor, none, some "repair", none⟩,
    ⟨"repair", .immediate, Event.success.executor, some "report", none, none⟩, report, island]

/-- Only the island is warned about, and never executed. The report is made if the start fails. -/
theorem detour_warns : ∃ d, build "detour" detour = .ok d ∧
    (d.warning island ∈ d.warnings ∧ ¬ ∃ outcomes, d.MayExecute outcomes .slow "island") ∧
    (d.warning report ∉ d.warnings ∧ ∃ outcomes, d.MustExecute outcomes .slow "report") := by
  have accepted : (build "detour" detour).isOk = true := by decide +kernel
  have alone : ¬ ReflTransGen (Leads detour) startName "island" := by
    intro path
    rcases path.cases_tail with same | ⟨a, -, leads⟩
    · exact absurd same (by decide)
    · simp [Leads, detour, report, island, NodeSpec.successors] at leads
  have path : ReflTransGen (Leads detour) startName "report" := by
    have failure : Leads detour startName "repair" := by simp [Leads, detour, NodeSpec.successors]
    have success : Leads detour "repair" "report" := by simp [Leads, detour, NodeSpec.successors]
    exact .tail (.single failure) success
  cases built : build "detour" detour with
  | error f => simp [built, Except.isOk, Except.toBool] at accepted
  | ok d =>
    obtain ⟨apart, never, -⟩ := warns_exactly built (n := island) (by simp [detour]) .slow
    obtain ⟨led, -, always, -⟩ := warns_exactly built (n := report) (by simp [detour]) .slow
    have warned := apart.2 alone
    have passed : d.warning report ∉ d.warnings := fun warned => led.1 warned path
    exact ⟨d, rfl, ⟨warned, never.1 warned⟩, passed, not_not.1 (mt always.2 passed)⟩

end Definition

end Runbook
