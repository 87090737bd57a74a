import Runbook.Proofs.Serving

/-!
# Writing ahead

If writes have to work, then a node begins only when it is on record, and a write about it that
fails ends the run there.

* `Incident.isCheckpoint` — the two writes that go before an executor: its visit is created, and
  the run is written with the visit at work.
* `Trace.WriteAhead`, `Trace.Checked` — every executor began right behind its two checkpoints, and
  all checkpoints worked.
* `Trace.Refused` — a checkpoint that did not work. There are two, and a run comes to the same end
  behind both of them (`Run.Guarded`).
* `Run.halted_of_start` — the first checkpoint that is refused is the last one.
-/

namespace Runbook

open Program

/-- Whether it is a write that goes before an executor. The other updates are of runs that have
come to their end. -/
def Incident.isCheckpoint : Incident → Bool
  | asked (.createVisit _) _ => true
  | asked (.update record _) _ => record.status = .processing
  | _ => false

namespace Trace

variable {t ms earlier : Trace} {e : Incident}

/-- An executor begins with its visit, right behind its two checkpoints, and both have worked. -/
def Announced (e : Incident) (earlier : Trace) : Prop :=
  ∃ run c context record vs rest, e = .asked (.atWork run ⟨c.processing, context⟩) () ∧
    record.status = .processing ∧
    earlier = .asked (.update record (vs ++ [c.processing])) (.ok ()) ::
      .asked (.createVisit c) (.ok ()) :: rest

/-- Every executor was announced. -/
def WriteAhead (ms : Trace) : Prop :=
  ∀ (e : Incident) (earlier : Trace), e :: earlier <:+ ms → e.isStart → Announced e earlier

/-- Every executor was announced, and every checkpoint worked. -/
def Checked (ms : Trace) : Prop :=
  ∀ (e : Incident) (earlier : Trace), e :: earlier <:+ ms →
    (e.isCheckpoint → e.isFailedWrite = false) ∧ (e.isStart → Announced e earlier)

/-- The checkpoint of the visit, which was created as `c`, was refused with the error. -/
inductive Refused (c : Visit) (x : EngineError) : Incident → Trace → Prop where
  /-- it could not be created -/
  | lost {earlier : Trace} : Refused c x (.asked (.createVisit c) (.error x)) earlier
  /-- it was created, but the run could not be written with it at work -/
  | stuck {record : RunRecord} {vs : List Visit} {rest : Trace}
      (atWork : record.status = .processing) :
    Refused c x (.asked (.update record (vs ++ [c.processing])) (.error x))
      (.asked (.createVisit c) (.ok ()) :: rest)

theorem writeAhead_cons :
    WriteAhead (e :: ms) ↔ (e.isStart → Announced e ms) ∧ ms.WriteAhead := forall_cons_suffix

theorem checked_cons : Checked (e :: ms) ↔
    ((e.isCheckpoint → e.isFailedWrite = false) ∧ (e.isStart → Announced e ms)) ∧ ms.Checked :=
  forall_cons_suffix

theorem checked_nil : Checked [] := fun e earlier h => by simpa using h.length_le

theorem Checked.writeAhead (h : ms.Checked) : ms.WriteAhead :=
  fun e earlier hs => (h e earlier hs).2

/-- What is neither a checkpoint nor a start may follow. -/
theorem Checked.cons (h : ms.Checked) (write : e.isCheckpoint = false) (start : e.isStart = false) :
    Checked (e :: ms) :=
  checked_cons.2 ⟨⟨by simp [write], by simp [start]⟩, h⟩

/-- So may a checkpoint that worked. -/
theorem Checked.write (h : ms.Checked) (worked : e.isFailedWrite = false)
    (start : e.isStart = false) : Checked (e :: ms) :=
  checked_cons.2 ⟨⟨fun _ => worked, by simp [start]⟩, h⟩

theorem Refused.isStart {c : Visit} {x : EngineError} (h : Refused c x e earlier) :
    e.isStart = false := by
  cases h with
  | lost | stuck => rfl

/-- No checkpoint among them was refused. -/
theorem Checked.not_refused (h : ms.Checked) (hs : e :: earlier <:+ ms)
    (checkpoint : e.isCheckpoint = true) : ¬ e.isFailedWrite = true := by
  simp [(h e earlier hs).1 checkpoint]

end Trace

namespace Run

variable {pace : Pace} {t u x : Trace} {r r' : Run} {n : NodeSpec} {d : Definition} {ok : Bool}
  {c : Visit} {e : Incident} {earlier : Trace} {error : EngineError}

/-! ## One node -/

/-- The run has ended at a checkpoint that was refused: the visit has failed for that, as the
latest one. -/
structure Halts (c : Visit) (error : EngineError) (e : Incident) (earlier : Trace) (r : Run)
    (t : Trace) : Prop where
  /-- the checkpoint is the latest mark -/
  marks : t.marks = e :: earlier
  /-- it was refused -/
  refused : Trace.Refused c error e earlier
  /-- the ones before it worked -/
  checked : earlier.Checked
  /-- the visit has failed -/
  trail : ∃ now trail, r.trail = c.fail (.persistence error.message) now :: trail
  /-- so has the run -/
  status : r.record.status = .error

/-- What one node comes to if writes have to work: its checkpoints have worked, or the run ends
at the first one that did not. -/
def Guarded (o : Option (Course × Run)) (u : Trace) : Prop :=
  u.marks.Checked ∨ ∃ r' c error e earlier, o = some (.stop, r') ∧ r'.Halts c error e earlier u

/-- A failure to write ends the run and its visit. -/
theorem ensures_afterFailure_halts {v : Visit} {trail : List Visit}
    (refused : Trace.Refused c error e earlier) (checked : earlier.Checked)
    (marks : t.marks = e :: earlier) (visits : r.trail = v :: trail)
    (failed : ∀ later, ∃ now, v.ended (.persistence error.message) later =
      c.fail (.persistence error.message) now) :
    (r.afterFailure (.persistence error.message)).Ensures .slow Guarded t := by
  refine ensures_bind.2 (plain_endWith.ensures_idle (ensures_endWith fun later u _ marked => ?_))
  obtain ⟨now, same⟩ := failed later
  refine .inr ⟨_, c, error, e, earlier, rfl, marked.marks.trans marks, refused, checked, ?_, rfl⟩
  exact ⟨now, trail, by rw [ended_trail _ _ _ _ visits, same]⟩

/-- What follows the checkpoints of a node are no checkpoints. -/
theorem Settled.checked {run : String} {trail : List Visit} {o : Option (Course × Run)}
    (h : Settled n run trail c t o u) (checked : t.marks.Checked) : u.marks.Checked := by
  cases h with
  | plain _ marked | panicked marked =>
    rw [marked.marks]
    exact checked
  | canceled _ status marked =>
    rw [marked.marks]
    exact checked.cons (decide_eq_false (by simp [status])) rfl

/-- Writes that have to work end the run if they do not. -/
theorem writeFailure_error (strict : r.settings.policy = .strict) (x : EngineError) :
    r.writeFailure (.error x) = some (.persistence x.message) := by
  rw [writeFailure, strict]

/-- Both checkpoints of a node work, or the run ends at the first one that does not. -/
theorem ensures_guarded (status : r.record.status = .processing)
    (strict : r.settings.policy = .strict) (checked : t.marks.Checked) :
    (r.step n).Ensures .slow Guarded t := by
  refine ensures_asked.2 fun id t₁ h₁ => ensures_asked.2 fun now t₂ h₂ =>
    ensures_asked.2 fun created t₃ h₃ => ?_
  have creates := ((h₁.idle rfl rfl).trans (h₂.idle rfl rfl)).trans (h₃.marked rfl)
  have active : (Visit.create id r.record n.name n.kind now).isActive = true := rfl
  generalize Visit.create id r.record n.name n.kind now = c at creates active ⊢
  have marks : t₃.marks = .asked (.createVisit c) created :: t.marks := creates.marks
  -- a refused first write leaves the visit unstored, and the walk ends there
  cases created with
  | error x =>
    rw [writeFailure_error strict]
    exact ensures_afterFailure_halts .lost checked marks rfl
      fun later => ⟨later, Visit.ended_of_isActive active⟩
  | ok =>
    refine ensures_bind.2 (ensures_save_marked fun now' saved t₄ h₄ => ?_)
    have visits : (((r.enter c.processing).takeSnapshot).stamped now').visits =
        r.visits ++ [c.processing] := r.visits_enter c.processing
    have strict' : (((r.enter c.processing).takeSnapshot).stamped now').settings.policy = .strict :=
      strict
    have created := checked.write (e := .asked (.createVisit c) (.ok ())) rfl rfl
    obtain ⟨record, written, atWork⟩ : ∃ record : RunRecord,
        (((r.enter c.processing).takeSnapshot).stamped now').record = record ∧
          record.status = .processing := ⟨_, rfl, status⟩
    have marks' : t₄.marks = .asked (.update record (r.visits ++ [c.processing])) saved ::
        .asked (.createVisit c) (.ok ()) :: t.marks := by
      rw [h₄.marks, marks, visits, written]
      rfl
    -- a refused checkpoint ends it as well, with the visit failed in memory
    cases saved with
    | error x =>
      dsimp only
      rw [writeFailure_error strict']
      refine ensures_bind.2 (plain_fail.ensures_idle (ensures_fail fun later u _ marked => ?_))
      exact ensures_afterFailure_halts (.stuck atWork) created (marked.marks.trans marks') rfl
        fun _ => ⟨later, Visit.ended_of_error rfl⟩
    | ok =>
      have updated := created.write
        (e := .asked (.update record (r.visits ++ [c.processing])) (.ok ())) rfl rfl
      have entered : Bears n r.id r.trail c c.processing
          (((r.enter c.processing).takeSnapshot).stamped now') := ⟨rfl, fun _ => rfl, rfl⟩
      refine (ensures_worked (fun _ _ _ => rfl) (fun _ _ => rfl) entered).mono ?_
      rintro o u (⟨x, idle, settled, -⟩ | ⟨x, begun, settled⟩)
      · refine .inl (settled.checked ?_)
        rw [idle.marks, marks']
        exact updated
      · refine .inl (settled.checked ?_)
        rw [begun.marks, marks']
        refine Trace.checked_cons.2 ⟨⟨by simp [Incident.isCheckpoint], fun _ => ?_⟩, updated⟩
        exact ⟨_, c, _, record, r.visits, t.marks, rfl, atWork, rfl⟩

/-! ## The walk -/

/-- Where the walk is over, the checkpoints have worked, or the last mark is the first one that
did not. -/
def WalkedAhead (o : Option (Bool × Run)) (u : Trace) : Prop :=
  u.marks.Checked ∨ ∃ r' c error e earlier, o = some (false, r') ∧ r'.Halts c error e earlier u

theorem carries_checked (d : Definition) :
    Carries .slow d (fun _ _ r t => r.record.status = .processing ∧ r.settings.policy = .strict ∧
      t.marks.Checked) WalkedAhead where
  arrives := by
    rintro ok r t ⟨status, -, checked⟩
    refine ensures_look fun signal u looks _ _ => ?_
    have here : u.marks.Checked := by
      rw [(marked_of_looks looks).marks]
      exact checked
    split
    · refine ensures_bind.2 (plain_markCanceled.ensures_idle (ensures_markCanceled ?_))
      intro now x _ marked
      refine .inl ?_
      rw [marked.marks]
      exact here
    · rw [if_neg (by simp [status])]
      exact .inl here
  cancels := by
    rintro target ok r t u ⟨-, -, checked⟩ looks _
    refine ensures_bind.2 (plain_markCanceled.ensures_idle (ensures_markCanceled ?_))
    refine fun now x _ marked => ensures_bind.2 ?_
    refine ensures_saveAnyway_marked fun now' w y hy => .inl ?_
    rw [hy.marks, marked.marks, (marked_of_looks looks).marks]
    exact checked.cons rfl rfl
  steps := by
    rintro n ok r t u ⟨status, strict, checked⟩ _ looks _
    have here : u.marks.Checked := by
      rw [(marked_of_looks looks).marks]
      exact checked
    have calm : u.Calm .slow := fun hp => by cases hp
    refine ((ensures_guarded status strict here).and (ensures_step calm)).mono ?_
    rintro o x ⟨checked | ⟨r', c, error, e, earlier, rfl, halts⟩, stepped⟩
    · cases stepped with
      | advanced working | recovered working =>
        exact ⟨working.status.trans status,
          (congrArg Settings.policy working.settings).trans strict, checked⟩
      | canceled | aborted | panicked => exact .inl checked
    · exact .inr ⟨r', c, error, e, earlier, rfl, halts⟩

/-! ## The end of the run -/

/-- A run that has failed stays so, unless its signal has fired; its visits do not change if the
latest one has failed, too. -/
theorem ensures_close_failed {v : Visit} {trail : List Visit} (status : r.record.status = .error)
    (visits : r.trail = v :: trail) (failed : v.status = .error) :
    (r.close false).Ensures pace (fun o u => ∃ r', o = some (false, r') ∧ r'.trail = r.trail ∧
      r'.record.status = (if t.signal.fired then .canceled else .error) ∧
      t <:+ u ∧ (pace = .prompt → u.signal = t.signal)) t := by
  have signal {u : Trace} (idles : t.Idles pace u) (hp : pace = .prompt) : u.signal = t.signal := by
    subst hp
    exact idles.signal_eq
  refine ensures_close (fun now u idles _ quiet => ?_) ?_
  · refine ⟨_, rfl, complete_trail, ?_, idles.suffix, signal idles⟩
    have quiet : t.signal.fired = false := by
      cases fired : t.signal.fired with
      | false => rfl
      | true => exact absurd (quiet fired) (by simp [status])
    rw [complete_of_not_canceled (by simp [status]), quiet]
    rfl
  · intro reason r' u idles fired _ canceled _
    obtain ⟨now, same⟩ := canceled.trail
    refine ⟨r', rfl, ?_, by rw [if_pos fired, canceled.status], idles.suffix, signal idles⟩
    rw [same, edit_eq_self]
    simpa [visits] using Visit.ended_of_error failed

/-! ## The whole run -/

/-- How a run has ended if a checkpoint was refused. -/
structure Halted (pace : Pace) (e : Incident) (earlier : Trace) (r : Run) (u : Trace) : Prop where
  /-- the checkpoints before it worked -/
  first : earlier.Checked
  /-- nothing followed but the write that closed the run -/
  marks : ∃ w, u.marks = .asked (.update r.record r.visits) w :: e :: earlier
  /-- the visit is the last one, and has failed with the error of the store -/
  visits : ∃ c error front v, Trace.Refused c error e earlier ∧ r.visits = front ++ [v] ∧
    c.Same v ∧ v.status = .error ∧ v.result = "persistence failed: " ++ error.message
  /-- the run has failed, or is canceled if its signal had fired when the walk was over -/
  status : ∃ t : Trace, t <:+ u ∧ t.marks = e :: earlier ∧
    r.record.status = (if t.signal.fired then .canceled else .error) ∧
    (pace = .prompt → u.signal = t.signal)

/-- What is said of all checkpoints that were refused, where the run ends. -/
def EndsAhead (pace : Pace) (o : Option (Bool × Run)) (u : Trace) : Prop :=
  u.marks.WriteAhead ∧ ∀ e earlier, e :: earlier <:+ u.marks → e.isCheckpoint = true →
    e.isFailedWrite = true → ∃ r', o = some (false, r') ∧ r'.Halted pace e earlier u

theorem endsAhead_of_checked {o : Option (Bool × Run)} (checked : u.marks.Checked) :
    EndsAhead pace o u :=
  ⟨checked.writeAhead, fun _ _ hs checkpoint failed =>
    absurd failed (checked.not_refused hs checkpoint)⟩

/-- The write that closes a run is no checkpoint. -/
theorem isCheckpoint_of_isTerminal {record : RunRecord} {visits : List Visit} {w : Written}
    (terminal : record.status.isTerminal = true) :
    Incident.isCheckpoint (.asked (.update record visits) w) = false := by
  refine decide_eq_false fun atWork => ?_
  rw [atWork] at terminal
  cases terminal

/-- If the one before the last mark is the first checkpoint that was refused, there is no other
one. -/
theorem eq_of_refused {e' : Incident} {earlier' : Trace} {record : RunRecord}
    {visits : List Visit} {w : Written} (checked : earlier.Checked)
    (terminal : record.status.isTerminal = true)
    (hs : e' :: earlier' <:+ .asked (.update record visits) w :: e :: earlier)
    (checkpoint : e'.isCheckpoint = true) (failed : e'.isFailedWrite = true) :
    e' = e ∧ earlier' = earlier := by
  rcases List.suffix_cons_iff.1 hs with same | hs
  · rw [(List.cons.inj same).1, isCheckpoint_of_isTerminal terminal] at checkpoint
    cases checkpoint
  · refine List.cons.inj ((List.suffix_cons_iff.1 hs).resolve_right fun hs => ?_)
    exact checked.not_refused hs checkpoint failed

/-- Behind a checkpoint that was refused the run is closed. -/
theorem Halts.ensures_close (h : Halts c error e earlier r t) :
    (r.close false).Ensures pace (EndsAhead pace) t := by
  obtain ⟨now, trail, visits⟩ := h.trail
  refine ((ensures_close_failed h.status visits rfl).and ensures_close_marked.of_slow).mono ?_
  rintro o u ⟨⟨r', rfl, same, status, later, signal⟩, r'', w, eq, completed, marked⟩
  obtain ⟨-, rfl⟩ := Prod.mk.inj (Option.some.inj eq)
  have marks : u.marks = .asked (.update r'.record r'.visits) w :: e :: earlier := by
    rw [marked.marks, h.marks]
    rfl
  have last : r'.visits = trail.reverse ++ [c.fail (.persistence error.message) now] := by
    rw [Run.visits, same, visits, List.reverse_cons]
  have halted : r'.Halted pace e earlier u :=
    ⟨h.checked, ⟨w, marks⟩, ⟨c, error, _, _, h.refused, last, rfl, rfl, rfl⟩,
      t, later, h.marks, status, signal⟩
  constructor
  · rw [marks]
    refine Trace.writeAhead_cons.2 ⟨by simp [Incident.isStart], Trace.writeAhead_cons.2 ⟨?_, ?_⟩⟩
    · simp [h.refused.isStart]
    · exact h.checked.writeAhead
  · intro e' earlier' hs checkpoint failed
    rw [marks] at hs
    obtain ⟨rfl, rfl⟩ := eq_of_refused h.checked completed.terminal hs checkpoint failed
    exact ⟨r', rfl, halted⟩

theorem ensures_endsAhead (pace : Pace) (before : List SignalCall)
    (strict : r.settings.policy = .strict) :
    r.start.Ensures pace (EndsAhead pace) (.calls before) := by
  refine ensures_bind.2 (Ensures.mono (Ensures.of_slow
    ((carries_checked r.definition).ensures_walk (List.suffix_refl _) ?_ ?_)) ?_)
  · rintro _ ⟨⟩
    exact r.definition.hasStart
  · refine ⟨rfl, strict, ?_⟩
    rw [Trace.marks_calls]
    exact Trace.checked_nil
  · rintro (_ | ⟨ok, r'⟩) t (checked | ⟨_, c, error, e, earlier, eq, halts⟩)
    · exact endsAhead_of_checked checked
    · cases eq
    · refine ensures_close_marked.of_slow.mono ?_
      rintro _ u ⟨r'', w, rfl, completed, marked⟩
      refine endsAhead_of_checked ?_
      rw [marked.marks]
      exact checked.cons (isCheckpoint_of_isTerminal completed.terminal) rfl
    · cases eq
      exact halts.ensures_close

/-- If writes have to work, every executor began right behind two writes of its visit that
worked, and the run was at its work only then. If one of these writes is refused, the run ends
there. -/
theorem halted_of_start (pace : Pace) (before : List SignalCall) (fresh : r.trail = [])
    (strict : r.settings.policy = .strict) :
    ∀ o u, r.start.Ends pace (.calls before) o u → u.Undivided ∧ u.marks.WriteAhead ∧
      ∀ e earlier, e :: earlier <:+ u.marks → e.isCheckpoint = true → e.isFailedWrite = true →
        ∃ r', o = some (false, r') ∧ r'.Halted pace e earlier u := by
  intro o u ends
  refine ⟨?_, ensures_iff.1 (ensures_endsAhead pace before strict) o u ends⟩
  have closed := ensures_iff.1 (ensures_closed pace before fresh) o u ends
  rcases o with _ | ⟨ok, r'⟩
  · exact closed.1.undivided
  · exact closed.undivided

/-- The second visit cannot be created. -/
theorem pair_halted : ∃ r' u c x earlier,
    (pair .strict).start.Ends .prompt (.calls []) (some (false, r')) u ∧
    r'.Halted .prompt (.asked (.createVisit c) (.error x)) earlier u := by
  obtain ⟨ok, r', c, x, ended, refused⟩ : ∃ ok r' c x,
      (Host.execute (pair .strict) [(.createVisit, ⟨1, none⟩)]).1 = .ended (ok, r') ∧
      (Host.execute (pair .strict) [(.createVisit, ⟨1, none⟩)]).2.noted[1]? =
        some (.asked (.createVisit c) (.error x)) := ⟨_, _, _, _, rfl, rfl⟩
  obtain ⟨u, ends, -, writes⟩ := Host.ends_execute ended
  have written : .asked (.createVisit c) (.error x) ∈ u.marks := by
    have noted := List.mem_of_getElem? refused
    rw [← writes] at noted
    exact List.mem_filter.2 ⟨(List.mem_filter.1 noted).1, rfl⟩
  obtain ⟨later, earlier, marks⟩ := List.append_of_mem written
  obtain ⟨_, eq, halted⟩ := (halted_of_start .prompt [] rfl rfl _ u ends).2.2 _ earlier
    ⟨later, marks.symm⟩ rfl rfl
  cases eq
  exact ⟨r', u, c, x, earlier, ends, halted⟩

end Run

end Runbook
