import Runbook.Proofs.Records
import Runbook.Proofs.Serving
import Runbook.Proofs.Snapshot

/-!
# What is reported of the context

The record of a run has a snapshot of its context. It is taken when the run comes to a node, before
the executor works, and not again when that is through.

* `Execution.Leaves` — the scenes that an executor hands over.
* `Trace.found?` — what the executor of the latest visit has begun with.
* `Program.Stays` — programs that begin nothing.
* `Run.Worked`, `Run.ensures_execute_worked` — what a run is when its executor is through.
* `Run.Informed`, `Run.ensures_step_informed` — what one node reports. It does not depend on what
  was reported before.
* `Run.Reported`, `Run.reported_of_start` — so a run that has ended reports the context with which
  its last executor has begun, and not what that has left.
-/

namespace Runbook

open Program

/-! ## What executors leave -/

/-- The execution can hand over that scene. -/
inductive Execution.Leaves : Execution → Scene → Prop where
  /-- where it ends -/
  | finish {scene : Scene} {outcome : Outcome} : Leaves (.finish scene outcome) scene
  /-- after an answer -/
  | ask {a : Act} {next : a.Answer → Execution} {scene : Scene} (x : a.Answer)
    (h : Leaves (next x) scene) : Leaves (.ask a next) scene
  /-- where it waits -/
  | here {scene : Scene} {wait : Wait} {next : Execution} : Leaves (.pause scene wait next) scene
  /-- after that -/
  | later {scene scene' : Scene} {wait : Wait} {next : Execution} (h : Leaves next scene') :
    Leaves (.pause scene wait next) scene'

namespace Request

/-- Whether a visit begins, or the work of its executor. -/
def enters : Request → Bool
  | createVisit _ | atWork .. => true
  | _ => false

theorem enters_of_isMark {r : Request} (h : r.isMark = false) : r.enters = false := by
  cases r with
  | createVisit | atWork => cases h
  | _ => rfl

theorem enters_of_isClerical {r : Request} (h : r.isClerical = true) : r.enters = false := by
  cases r with
  | createVisit | atWork => cases h
  | _ => rfl

end Request

namespace Trace

variable {t u : Trace}

/-- The scene with which the executor of the latest visit has begun, if it has. -/
def found? : Trace → Option Scene
  | [] => none
  | .asked (.atWork _ scene) _ :: _ => some scene
  | .asked (.createVisit _) _ :: _ => none
  | _ :: t => found? t

theorem found?_append {new : Trace} (h : ∀ r x, .asked r x ∈ new → r.enters = false) :
    (new ++ t).found? = t.found? := by
  induction new with
  | nil => rfl
  | cons e new ih =>
    have rest := ih fun r x inside => h r x (List.mem_cons_of_mem _ inside)
    cases e with
    | asked r x =>
      have here := h r x List.mem_cons_self
      cases r with
      | createVisit | atWork => cases here
      | _ => exact rest
    | _ => exact rest

/-- From `t` to `u`, nothing was begun. -/
structure Rests (t u : Trace) : Prop where
  /-- the latest visit and its executor are the same -/
  found : u.found? = t.found?
  /-- more may have happened -/
  later : t <:+ u

theorem Adds.rests (h : t.Adds (·.enters = false) u) : t.Rests u := by
  obtain ⟨new, rfl, asks⟩ := h
  exact ⟨found?_append asks, List.suffix_append new t⟩

theorem Answers.rests {pace : Pace} {r : Request} {x : r.Answer} (h : t.Answers pace r x u)
    (stays : r.enters = false) : t.Rests u :=
  (h.adds stays).rests

theorem rests_calls (cs : List SignalCall) : t.Rests (calls cs ++ t) := (Adds.calls cs).rests

end Trace

namespace Program

variable {α : Type} {pace : Pace} {P : α → Prop} {p : Program α} {t : Trace} {work : Bool}

/-- The program begins nothing, and its value has a property. -/
abbrev Stays (P : α → Prop) (p : Program α) : Prop := p.Only (·.enters = false) P

theorem ensures_stays (h : p.Stays P) :
    p.Ensures pace (fun o u => t.Rests u ∧ ∀ a ∈ o, P a) t :=
  h.ensures.mono fun _ _ hu => ⟨hu.1.rests, hu.2⟩

/-- Keeping records begins nothing. -/
theorem Only.stays (h : p.Records P) : p.Stays P :=
  h.mono (fun _ => Request.enters_of_isClerical) fun _ h => h

/-- A program that leaves no marks begins nothing. -/
theorem Plain.stays (h : p.Plain work) : p.Stays fun _ => True := by
  induction p with
  | done | panic => trivial
  | ask r next ih => exact ⟨Request.enters_of_isMark h.1.1, fun x => ih x (h.2 x)⟩
  | pause p next ih => exact fun w => ih w (h.2 w)

end Program

/-- The work of an executor is to act, and ends with a scene that it hands over. -/
theorem Execution.only_program {run : String} {deadline : Option Nat} (e : Execution) :
    (e.program run deadline).Only (fun r => ∃ act, r = .act run act) fun a => e.Leaves a.1 := by
  induction e with
  | finish scene outcome => exact .finish
  | ask act next ih =>
    refine ⟨⟨act, rfl⟩, fun x => ?_⟩
    exact (ih x).mono (fun _ h => h) fun a h => .ask x h
  | pause scene wait next ih =>
    intro w
    cases w with
    | due => exact ih.mono (fun _ h => h) fun a h => .later h
    | signalled | expired => exact .here

theorem Execution.stays_program {run : String} {deadline : Option Nat} (e : Execution) :
    (e.program run deadline).Stays fun a => e.Leaves a.1 := by
  refine e.only_program.mono ?_ fun _ h => h
  rintro _ ⟨act, rfl⟩
  rfl

namespace Run

variable {r r' : Run} {n : NodeSpec} {v : Visit} {ok : Bool} {pace : Pace}
  {t u : Trace} {d : Definition}

/-- The run when an executor has handed over that scene. -/
def handed (r : Run) (left : Scene) : Run :=
  { r.edit fun _ => left.visit with context := left.context }

/-- What a run is when the executor of a node is through with a visit, and what that has begun
with. -/
inductive Worked (r : Run) (n : NodeSpec) (v : Visit) :
    Visit × Option Failure × Run → Option Scene → Prop where
  /-- the run was canceled before -/
  | idle {f : Failure} : Worked r n v (v, some f, r) none
  /-- the executor has left a scene -/
  | begun {f : Option Failure} {left : Scene} (leaves : (n.executor ⟨v, r.context⟩).Leaves left) :
    Worked r n v (left.visit, f, r.handed left) (some ⟨v, r.context⟩)

theorem ensures_execute_worked (idle : t.found? = none) :
    (r.execute n v).Ensures pace (fun o u => ∀ a ∈ o, Worked r n v a u.found?) t := by
  refine ensures_asked.2 fun signal t₁ h₁ => ?_
  have looked := h₁.rests rfl
  split
  · rintro _ ⟨⟩
    rw [looked.found, idle]
    exact .idle
  · refine ensures_asked.2 fun clock t₂ _ => ensures_asked.2 fun _ t₃ h₃ => ?_
    obtain ⟨cs, -, -, rfl⟩ := h₃
    refine ensures_bind.2 ((ensures_stays (Execution.stays_program _)).mono ?_)
    rintro (_ | ⟨left, closing⟩) t₄ ⟨worked, leaves⟩
    · rintro _ ⟨⟩
    · refine ensures_asked.2 fun signal t₅ h₅ => ?_
      rintro _ ⟨⟩
      rw [(h₅.rests rfl).found, worked.found, (Trace.rests_calls cs).found]
      exact .begun (leaves _ rfl)

/-- Polling is no matter of the context. -/
theorem stays_settleVisit : (r.settleVisit n v).Stays fun a => Noted r a.2 := by
  rw [settleVisit]
  split
  · exact records_succeedWith.stays
  · split
    · exact .refl
    · refine plain_poll.stays.bind fun result _ => ?_
      cases result with
      | ok payload => exact records_succeedWith.stays
      | error f => exact records_failWith.stays

/-! ## What one node reports -/

/-- How the record of a run and its context go together. -/
structure Informed (d : Definition) (r : Run) (t : Trace) : Prop where
  /-- if the executor of the latest visit has begun, it is reported with what; the context is what
  that has left -/
  behind {scene : Scene} (begun : t.found? = some scene) :
    r.record.context = scene.context.snapshot ∧ ∃ n, d.node? scene.visit.name = some n ∧
      ∃ left, (n.executor scene).Leaves left ∧ r.context = left.context
  /-- if it has not, and writes work, the context is reported as it is -/
  current (idle : t.found? = none) (clean : t.Clean) : r.record.context = r.context.snapshot

theorem Informed.rests (h : Informed d r t) (rests : t.Rests u) (same : Noted r r') :
    Informed d r' u where
  behind begun := by
    rw [same.record, same.context]
    exact h.behind (rests.found ▸ begun)
  current idle clean := by
    rw [same.record, same.context]
    refine h.current (rests.found ▸ idle) fun e he => clean e (rests.later.subset he)

/-- Whatever begins nothing leaves it so. -/
theorem Informed.ensures {p : Program (Course × Run)} (h : Informed d r t)
    (stays : p.Stays fun a => Noted r a.2) :
    p.Ensures pace (Behind (Informed d) fun _ => True) t :=
  ensures_behind stays (fun _ _ adds => h.rests adds.rests) fun _ _ => trivial

/-- An executor finds the context that was reported last. -/
theorem Worked.informed {a : Visit × Option Failure × Run} (worked : Worked r n v a u.found?)
    (reported : r.record.context = r.context.snapshot) (here : d.node? v.name = some n) :
    Informed d a.2.2 u := by
  generalize begun : u.found? = found at worked
  cases worked with
  -- an executor that has not begun leaves the context as it was reported
  | idle =>
    refine ⟨fun {scene} begun' => ?_, fun _ _ => reported⟩
    rw [begun] at begun'
    cases begun'
  | @begun f left leaves =>
    constructor
    · intro scene begun'
      obtain rfl := Option.some.inj (begun.symm.trans begun')
      exact ⟨reported, n, here, left, leaves, rfl⟩
    · intro idle
      rw [begun] at idle
      cases idle

/-- What one node reports, whatever was reported before. -/
theorem ensures_step_informed (here : d.node? n.name = some n) :
    (r.step n).Ensures pace (Behind (Informed d) fun _ => True) t := by
  refine ensures_asked.2 fun id t₁ _ => ensures_asked.2 fun now t₂ _ =>
    ensures_asked.2 fun created t₃ h₃ => ?_
  obtain ⟨cs, -, -, rfl⟩ := h₃
  have idle : Trace.found? (Trace.calls cs ++ .asked (.createVisit _) created :: t₂) = none :=
    (Trace.rests_calls cs).found
  split
  -- the run ends without a snapshot of this visit, but then a write has failed
  · next f hf =>
    obtain ⟨⟨e, rfl⟩, -⟩ := writeFailure_eq_some hf
    refine Informed.ensures ⟨fun begun => ?_, fun _ clean => ?_⟩ records_afterFailure.stays
    · rw [idle] at begun
      cases begun
    · cases clean _ (List.mem_append_right _ List.mem_cons_self)
  · refine ensures_bind.2 ((ensures_stays records_save.stays).mono ?_)
    rintro (_ | ⟨saved, r'⟩) u ⟨saves, same⟩
    · trivial
    · have same := same _ rfl
      have reported : r'.record.context = r'.context.snapshot := by
        rw [same.record, same.context]
        rfl
      have idle := saves.found.trans idle
      dsimp only
      split
      · refine Informed.ensures ⟨fun begun => ?_, fun _ _ => reported⟩ records_failWith.stays
        rw [idle] at begun
        cases begun
      · refine ensures_bind.2 ((ensures_execute_worked idle).mono ?_)
        rintro (_ | ⟨v, _ | f, r⟩) x worked
        · trivial
        · exact ((worked _ rfl).informed reported here).ensures stays_settleVisit
        · exact ((worked _ rfl).informed reported here).ensures records_failWith.stays

/-! ## The whole run -/

/-- Between two nodes nothing changes, and what one node has reported does not matter to the
next. -/
theorem endures_informed (pace : Pace) (d : Definition) :
    Endures pace d (Informed d) fun _ => True where
  kept informed adds same :=
    informed.rests (adds.mono fun _ => Request.enters_of_isClerical).rests same
  more _ := trivial
  steps _ here := ensures_step_informed here

/-- What a run that has ended reports of its context. -/
structure Reported (d : Definition) (r : Run) (t : Trace) : Prop extends Informed d r t where
  /-- the record is the one that was written last -/
  saved : r.LastSaved t
  /-- so if writes work, the context is reported exactly if the executor of the latest visit has
  left it as it was, or has not begun -/
  exactly (clean : t.Clean) : r.record.context = r.context.snapshot ↔
    ∀ scene, t.found? = some scene → r.context.snapshot = scene.context.snapshot
  /-- what is rebuilt from the record is not what that executor has left, but what it has found -/
  rebuilt {scene : Scene} (begun : t.found? = some scene) (plain : scene.context.Plain)
    (flat : scene.context.toJson.depth < 128) :
    Context.ofSnapshot r.record.context = .ok scene.context

theorem Informed.reported (h : Informed d r t) (saved : r.LastSaved t) : Reported d r t where
  toInformed := h
  saved := saved
  exactly clean := by
    constructor
    · intro same scene begun
      exact same.symm.trans (h.behind begun).1
    · intro unchanged
      cases begun : t.found? with
      | none => exact h.current begun clean
      | some scene => rw [(h.behind begun).1, unchanged scene begun]
  rebuilt begun plain flat := by
    rw [(h.behind begun).1, plain.ofSnapshot, if_pos flat]

/-- A run that has ended has been written last as it is. -/
theorem ensures_start_lastSaved : r.start.Ensures pace (fun o u => ∀ a ∈ o, LastSaved a.2 u) t := by
  refine ensures_bind.2 (ensures_iff.2 ?_)
  rintro (_ | ⟨ok, r'⟩) u -
  · rintro _ ⟨⟩
  · refine ensures_close (fun now v _ saved _ => ?_) fun reason r'' v _ _ _ _ saved => ?_
    · rintro _ ⟨⟩
      exact saved
    · rintro _ ⟨⟩
      exact saved

/-- A run that is started with its context reported has, when it returns, reported the context with
which the executor of its last visit began. -/
theorem reported_of_start (pace : Pace) (before : List SignalCall)
    (reported : r.record.context = r.context.snapshot) :
    ∀ ok r' u, r.start.Ends pace (.calls before) (some (ok, r')) u →
      r'.Reported r.definition u := by
  intro ok r' u ends
  have nothing : (Trace.calls before).found? = none := by
    rw [← List.append_nil (Trace.calls before), (Trace.rests_calls before).found]
    rfl
  have informed : Informed r.definition (r.withStatus .processing) (.calls before) := by
    refine ⟨fun begun => ?_, fun _ _ => reported⟩
    rw [nothing] at begun
    cases begun
  have whole := (endures_informed pace r.definition).ensures_start informed
  exact Informed.reported (ensures_iff.1 whole _ u ends)
    (ensures_iff.1 ensures_start_lastSaved _ u ends _ rfl)

end Run

/-- A procedure with one node, whose executor sets a value of the context. -/
def Definition.scribe : Definition where
  name := "scribe"
  nodes := [⟨startName, .immediate,
    fun scene => .finish { scene with context := scene.context.set "k" (.int 1) } .done,
    none, none, none⟩]
  named := by decide
  nodesNamed := by simp [startName]
  distinct := by simp
  hasStart := by simp
  forward := ⟨by simp [NodeSpec.successors], trivial⟩

/-- A run of it that has not begun. -/
def Run.scribe : Run :=
  .create (.create "1" "scribe" "" "" "" (.ofMicros 0)) .scribe vigil.settings default

/-- All writes work, and what the only executor has set is not reported. -/
theorem Run.scribe_reported : ∃ r' u scene,
    scribe.start.Ends .prompt (.calls []) (some (true, r')) u ∧ r'.Reported .scribe u ∧ u.Clean ∧
    r'.context.snapshot = "\x7b\"k\":1\x7d" ∧ u.found? = some scene ∧
    r'.record.context = scene.context.snapshot ∧ r'.record.context = "\x7b\x7d" := by
  obtain ⟨r', ended, written, left⟩ : ∃ r', (Host.execute scribe []).1 = .ended (true, r') ∧
      r'.record.context = "\x7b\x7d" ∧ r'.context.snapshot = "\x7b\"k\":1\x7d" :=
    ⟨_, rfl, by decide +kernel, by decide +kernel⟩
  obtain ⟨u, ends, -, writes⟩ := Host.ends_execute ended
  have reported := reported_of_start .prompt [] (by decide +kernel) true r' u ends
  have clean : u.Clean := by
    rw [← Trace.clean_writes, writes]
    decide +kernel
  have differ : r'.record.context ≠ r'.context.snapshot := by
    rw [written, left]
    decide
  cases begun : u.found? with
  | none => exact absurd (reported.current begun clean) differ
  | some scene =>
    exact ⟨r', u, scene, ends, reported, clean, left, begun, (reported.behind begun).1, written⟩

end Runbook
