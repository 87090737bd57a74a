import Runbook.Proofs.Marks
import Runbook.Proofs.Step

/-!
# What is written about one node

* `Visit.Same`, `NodeSpec.Tame` — what never changes about a visit, and executors
  that leave it alone.
* `Trace.Episode` — the marks of one node: it is created, the run is written with it
  at work, and its executor begins.
* `Run.Settled` — what may follow: nothing more, or a write that the run is canceled.
* `Run.ensures_worked` — whether the executor leaves its mark, and what follows.
* `Run.Recorded`, `Run.ensures_recorded` — so it is at every node.

Nothing here depends on when the signal is called, so the pace is always the slow one.
-/

namespace Runbook

open Program

variable {t u : Trace}

/-! ## Visits at different times -/

/-- `w` is the visit `v`, now or later: they differ at most in what a run changes while
it is at work. -/
def Visit.Same (v w : Visit) : Prop :=
  w = { v with
    status := w.status, result := w.result, operationId := w.operationId, endTime := w.endTime }

namespace Visit

variable {u v w : Visit}

theorem Same.refl (v : Visit) : v.Same v := rfl

theorem Same.trans (h : u.Same v) (h' : v.Same w) : u.Same w := by
  rw [Same, h] at h'
  exact h'

theorem Same.id_eq (h : v.Same w) : w.id = v.id := by
  rw [h]

theorem same_ended (v : Visit) (f : Failure) (now : Instant) : v.Same (v.ended f now) := by
  rw [ended]
  split
  · rfl
  · exact .refl v

end Visit

/-- What holds of every scene implies what follows from it. -/
theorem Execution.Everywhere.mono {P Q : Scene → Prop} {e : Execution} (h : e.Everywhere P)
    (imp : ∀ scene, P scene → Q scene) : e.Everywhere Q := by
  induction e with
  | finish scene outcome => exact imp scene h
  | ask act next ih => exact fun x => ih x (h x)
  | pause scene wait next ih => exact ⟨imp scene h.1, ih h.2⟩

namespace NodeSpec

variable {n : NodeSpec}

/-- The executor of the node leaves its visit the same. It may also end it. -/
def Tame (n : NodeSpec) : Prop :=
  ∀ scene, (n.executor scene).Everywhere fun s => scene.visit.Same s.visit

/-- Executors that change even less are tame. -/
theorem Modest.tame (h : n.Modest) : n.Tame := by
  intro scene
  refine (h scene).mono fun s hs => ?_
  rw [Visit.Revises] at hs
  rw [Visit.Same, hs]

end NodeSpec

/-! ## The marks of one node -/

/-- The marks of a node of the run, after the visits `earlier`; its own one was created
as `c`. -/
inductive Trace.Episode (policy : WritePolicy) (run : String) (earlier : List Visit) (c : Visit) :
    Trace → Prop where
  /-- it could not be created, and had to be -/
  | lost {e : EngineError} (strict : policy = .strict) :
    Episode policy run earlier c [.asked (.createVisit c) (.error e)]
  /-- its executor did not begin -/
  | idle {record : RunRecord} {w w' : Written} (own : record.id = run)
    (status : record.status = .processing) :
    Episode policy run earlier c
      [.asked (.update record (earlier ++ [c.processing])) w', .asked (.createVisit c) w]
  /-- its executor began, with the context that was written -/
  | begun {record : RunRecord} {context : Context} {w w' : Written} (own : record.id = run)
    (status : record.status = .processing) (snapshot : record.context = context.snapshot) :
    Episode policy run earlier c
      [.asked (.atWork run ⟨c.processing, context⟩) (),
        .asked (.update record (earlier ++ [c.processing])) w', .asked (.createVisit c) w]

namespace Run

variable {r r' : Run} {n : NodeSpec} {f : Failure} {run : String} {trail : List Visit}
  {c v : Visit}

/-! ## Runs at a node -/

/-- The run is at the node: its latest visit is `v` now and was created as `c`. -/
structure Bears (n : NodeSpec) (run : String) (trail : List Visit) (c v : Visit) (r : Run) :
    Prop where
  /-- the visit is the latest one -/
  trail : r.trail = v :: trail
  /-- it is the one that was created -/
  same : n.Tame → c.Same v
  /-- the run is the same -/
  id : r.id = run

theorem Bears.edit (h : Bears n run trail c v r) {g : Visit → Visit}
    (hg : n.Tame → v.Same (g v)) : Bears n run trail c (g v) (r.edit g) :=
  ⟨r.edit_trail g h.trail, fun tame => (h.same tame).trans (hg tame), h.id⟩

theorem Bears.ended (h : Bears n run trail c v r) (s : Status) (now : Instant) :
    Bears n run trail c (v.ended f now) (r.ended f s now) :=
  ⟨r.ended_trail f s now h.trail, fun tame => (h.same tame).trans (v.same_ended f now), h.id⟩

theorem Bears.stamped (h : Bears n run trail c v r) (now : Instant) :
    Bears n run trail c v (r.stamped now) := ⟨h.trail, h.same, h.id⟩

/-- What follows the marks of a node. -/
inductive Settled (n : NodeSpec) (run : String) (trail : List Visit) (c : Visit) (t : Trace) :
    Option (Course × Run) → Trace → Prop where
  /-- no more marks -/
  | plain {course : Course} {r : Run} {v : Visit} {u : Trace} (bears : Bears n run trail c v r)
    (marked : t.Marked [] u) : Settled n run trail c t (some (course, r)) u
  /-- a write that the run is canceled -/
  | canceled {r : Run} {v : Visit} {w : Written} {u : Trace} (bears : Bears n run trail c v r)
    (status : r.record.status = .canceled)
    (marked : t.Marked [.asked (.update r.record r.visits) w] u) :
    Settled n run trail c t (some (.stop, r)) u
  /-- nothing: the node was polled too often -/
  | panicked {u : Trace} (marked : t.Marked [] u) : Settled n run trail c t none u

theorem Settled.of_marked {t' : Trace} {o : Option (Course × Run)} (ht : t.Marked [] t')
    (h : Settled n run trail c t' o u) : Settled n run trail c t o u := by
  cases h with
  | plain bears marked => exact .plain bears (ht.trans marked)
  | canceled bears status marked => exact .canceled bears status (ht.trans marked)
  | panicked marked => exact .panicked (ht.trans marked)

/-! ### Ending a node -/

/-- Saving a run leaves the write as a mark. -/
theorem ensures_save_marked {Q : Option (Written × Run) → Trace → Prop}
    (h : ∀ now w u, t.Marked [.asked (.update (r.stamped now).record (r.stamped now).visits) w] u →
      Q (some (w, r.stamped now)) u) : r.save.Ensures .slow Q t := by
  refine ensures_asked.2 fun now t₁ h₁ => ensures_asked.2 fun w u hu => ?_
  exact h now w u ((h₁.idle rfl rfl).trans (hu.marked rfl))

theorem ensures_saveAnyway_marked {Q : Option Run → Trace → Prop}
    (h : ∀ now w u, t.Marked [.asked (.update (r.stamped now).record (r.stamped now).visits) w] u →
      Q (some (r.stamped now)) u) : r.saveAnyway.Ensures .slow Q t :=
  ensures_bind.2 (ensures_save_marked h)

theorem ensures_afterFailure_settled (hr : Bears n run trail c v r) :
    (r.afterFailure f).Ensures .slow (Settled n run trail c t) t := by
  cases f with
  | canceled reason =>
    refine ensures_bind.2 (plain_markCanceled.ensures_idle ?_)
    refine ensures_markCanceled fun now u _ marked => ensures_bind.2 ?_
    refine ensures_saveAnyway_marked fun now' w x hx => ?_
    exact .canceled ((hr.ended _ now).stamped now') rfl (marked.trans hx)
  | persistence detail =>
    refine ensures_bind.2 (plain_endWith.ensures_idle ?_)
    exact ensures_endWith fun now u _ marked => .plain (hr.ended _ now) marked
  | _ => exact .plain hr .refl

theorem ensures_failWith_settled (hr : Bears n run trail c v r) :
    (r.failWith f).Ensures .slow (Settled n run trail c t) t := by
  refine ensures_bind.2 (plain_fail.ensures_idle ?_)
  refine ensures_fail fun now u _ marked => ?_
  have failed := hr.edit (g := fun v => v.fail f now) fun _ => rfl
  exact (ensures_afterFailure_settled failed).mono fun o x => .of_marked marked

theorem ensures_succeedWith_settled {payload : Option String} (hr : Bears n run trail c v r) :
    (r.succeedWith payload).Ensures .slow (Settled n run trail c t) t := by
  refine ensures_asked.2 fun now u hu => ?_
  exact .plain (hr.edit (g := fun v => v.succeed payload now) fun _ => rfl)
    (hu.idle rfl rfl)

/-- Nothing is written while a node is polled. -/
theorem ensures_settleVisit_settled (hr : Bears n run trail c v r) (begun : t.occupied = true) :
    (r.settleVisit n v).Ensures .slow (Settled n run trail c t) t := by
  rw [settleVisit]
  split
  · exact ensures_succeedWith_settled hr
  · split
    · exact .plain hr .refl
    · refine ensures_bind.2 ((plain_poll.ensures_marked fun _ => begun).mono fun o u marked => ?_)
      rcases o with _ | result | payload
      · exact .panicked marked
      · exact (ensures_failWith_settled hr).mono fun o x => .of_marked marked
      · exact (ensures_succeedWith_settled hr).mono fun o x => .of_marked marked

/-! ### The work of a node -/

/-- An executor begins at most once, unless the run is canceled before, and nothing is
written until it has come to its end. -/
theorem ensures_execute_marked (hr : Bears n run trail c v r) :
    (r.execute n v).Ensures .slow (fun o u => ∃ w f r', o = some (w, f, r') ∧
      Bears n run trail c w r' ∧
      (t.Marked [] u ∧ (∃ reason, f = some (.canceled reason)) ∨
        t.Marked [.asked (.atWork run ⟨v, r.context⟩) ()] u)) t := by
  refine ensures_asked.2 fun signal t₁ h₁ => ?_
  have looked := h₁.idle rfl rfl
  split
  · exact ⟨v, _, r, rfl, hr, .inl ⟨looked, signal.reason, rfl⟩⟩
  · refine ensures_asked.2 fun clock t₂ h₂ => ensures_asked.2 fun _ t₃ h₃ => ?_
    have started := (looked.trans (h₂.idle rfl rfl)).trans
      (h₃.marked rfl)
    have begun : t₃.occupied = true := by rw [Trace.occupied, started.marks]; rfl
    refine ensures_bind.2 ((Execution.plain_program _).ensures (fun _ => begun) ?_)
    refine Execution.ensures_program (P := fun s => n.Tame → v.Same s.visit)
      (Execution.everywhere_of_imp fun tame => tame ⟨v, r.context⟩) (by simp [Trace.Awake]) ?_
    intro scene closing u hs _ worked
    refine ensures_asked.2 fun signal x hx => ?_
    have ended := (started.trans worked).trans (hx.idle rfl rfl)
    rw [hr.id] at ended
    have bears := hr.edit (g := fun _ => scene.visit) hs
    exact ⟨_, _, _, rfl, ⟨bears.trail, bears.same, bears.id⟩, .inr ended⟩

/-! ### Failures that end the run -/

/-- The run stops, and its marks are settled. -/
def Stopped (n : NodeSpec) (run : String) (trail : List Visit) (c : Visit) (t : Trace)
    (o : Option (Course × Run)) (u : Trace) : Prop :=
  Settled n run trail c t o u ∧ ∃ r', o = some (.stop, r')

theorem ensures_afterFailure_stopped (hr : Bears n run trail c v r) (hf : f.leadsOn = false) :
    (r.afterFailure f).Ensures .slow (Stopped n run trail c t) t := by
  refine (ensures_afterFailure_settled hr).and ?_
  cases f with
  | canceled reason =>
    refine ensures_bind.2 (ensures_markCanceled fun _ _ _ => ensures_bind.2 ?_)
    exact ensures_saveAnyway fun _ _ _ _ => ⟨_, rfl⟩
  | persistence detail => exact ensures_bind.2 (ensures_endWith fun _ _ _ => ⟨_, rfl⟩)
  | _ => cases hf

theorem ensures_failWith_stopped (hr : Bears n run trail c v r) (hf : f.leadsOn = false) :
    (r.failWith f).Ensures .slow (Stopped n run trail c t) t := by
  refine ensures_bind.2 (plain_fail.ensures_idle (ensures_fail fun now u _ marked => ?_))
  have failed := hr.edit (g := fun v => v.fail f now) fun _ => rfl
  exact (ensures_afterFailure_stopped failed hf).mono fun o x h => ⟨h.1.of_marked marked, h.2⟩

/-! ### The work and what follows -/

/-- Either the run stops before the executor of the node has begun, or that leaves its mark. -/
theorem ensures_worked {next : Visit × Option Failure × Run → Program (Course × Run)}
    (failed : ∀ v f r, next (v, some f, r) = r.failWith f)
    (worked : ∀ v r, next (v, none, r) = r.settleVisit n v) (hr : Bears n run trail c v r) :
    ((r.execute n v).bind next).Ensures .slow (fun o u =>
      (∃ x, t.Marked [] x ∧ Stopped n run trail c x o u) ∨
        ∃ x, t.Marked [.asked (.atWork run ⟨v, r.context⟩) ()] x ∧
          Settled n run trail c x o u) t := by
  refine ensures_bind.2 ((ensures_execute_marked hr).mono ?_)
  rintro _ x ⟨w, failure, r', rfl, bears, ⟨idle, reason, rfl⟩ | begun⟩
  · refine Ensures.mono ?_ fun o u stopped => .inl ⟨x, idle, stopped⟩
    rw [failed]
    exact ensures_failWith_stopped bears rfl
  · refine Ensures.mono ?_ fun o u settled => .inr ⟨x, begun, settled⟩
    cases failure with
    | some f =>
      rw [failed]
      exact ensures_failWith_settled bears
    | none =>
      have occupied : x.occupied = true := by rw [Trace.occupied, begun.marks]; rfl
      rw [worked]
      exact ensures_settleVisit_settled bears occupied

/-! ## One node -/

/-- What is recorded of one node of the run `r` after the trace `t`. -/
structure Recorded (n : NodeSpec) (r : Run) (t : Trace) (c : Visit) (ms : Trace)
    (o : Option (Course × Run)) (u : Trace) : Prop where
  /-- the visit was created for the node -/
  created : ∃ id now, c = Visit.create id r.record n.name n.kind now
  /-- its marks -/
  episode : Trace.Episode r.settings.policy r.id r.visits c ms
  /-- what followed them -/
  settled : ∃ x, t.Marked ms x ∧ Settled n r.id r.trail c x o u
  /-- if writes have to work, they did, or the run ends here -/
  firm : r.settings.policy = .strict → ms.Clean ∨ ∃ r', o = some (.stop, r')

/-- Writes that have to work did so if the run does not take them for a failure. -/
theorem ok_of_writeFailure {w : Written} (h : r.writeFailure w = none)
    (strict : r.settings.policy = .strict) : w = .ok () := by
  cases w with
  | ok => rfl
  | error e => simp [writeFailure, strict] at h

/-- What is recorded of one node, whatever happens. -/
theorem ensures_recorded (status : r.record.status = .processing) :
    (r.step n).Ensures .slow (fun o u => ∃ c ms, Recorded n r t c ms o u) t := by
  refine ensures_asked.2 fun id t₁ h₁ => ensures_asked.2 fun now t₂ h₂ =>
    ensures_asked.2 fun created t₃ h₃ => ?_
  have creates := ((h₁.idle rfl rfl).trans (h₂.idle rfl rfl)).trans (h₃.marked rfl)
  have createdFor : ∃ id' now', Visit.create id r.record n.name n.kind now =
      Visit.create id' r.record n.name n.kind now' := ⟨id, now, rfl⟩
  -- how the visit was created does not matter from here on
  generalize Visit.create id r.record n.name n.kind now = c at creates createdFor ⊢
  split
  · next f hf =>
    obtain ⟨⟨e, rfl⟩, strict, detail, rfl⟩ := writeFailure_eq_some hf
    have entered : Bears n r.id r.trail c c (r.enter c) := ⟨rfl, fun _ => .refl c, rfl⟩
    refine (ensures_afterFailure_stopped entered rfl).mono ?_
    rintro o u ⟨settled, stop⟩
    exact ⟨c, _, createdFor, .lost strict, ⟨t₃, creates, settled⟩, fun _ => .inr stop⟩
  · next unfailed =>
    refine ensures_bind.2 (ensures_save_marked fun now' w t₄ h₄ => ?_)
    have visits : (((r.enter c.processing).takeSnapshot).stamped now').visits =
        r.visits ++ [c.processing] := r.visits_enter c.processing
    -- nor does more of the record that is written
    obtain ⟨record, written, own, atWork, snapshot⟩ : ∃ record : RunRecord,
        (((r.enter c.processing).takeSnapshot).stamped now').record = record ∧
          record.id = r.id ∧ record.status = .processing ∧ record.context = r.context.snapshot :=
      ⟨_, rfl, rfl, status, rfl⟩
    have saves := creates.trans h₄
    rw [visits, written] at saves
    have entered : Bears n r.id r.trail c c.processing
        (((r.enter c.processing).takeSnapshot).stamped now') := ⟨rfl, fun _ => rfl, rfl⟩
    dsimp only
    split
    · next f hf =>
      obtain ⟨⟨e, rfl⟩, -, detail, rfl⟩ := writeFailure_eq_some hf
      refine (ensures_failWith_stopped entered rfl).mono ?_
      rintro o u ⟨settled, stop⟩
      exact ⟨c, _, createdFor, .idle own atWork, ⟨t₄, saves, settled⟩, fun _ => .inr stop⟩
    · next unfailed' =>
      refine (ensures_worked (fun _ _ _ => rfl) (fun _ _ => rfl) entered).mono ?_
      rintro o u (⟨x, idle, settled, stop⟩ | ⟨x, begun, settled⟩)
      · exact ⟨c, _, createdFor, .idle own atWork, ⟨x, saves.trans idle, settled⟩,
          fun _ => .inr stop⟩
      · refine ⟨c, _, createdFor, .begun own atWork snapshot, ⟨x, saves.trans begun, settled⟩,
          fun strict => .inl ?_⟩
        rw [ok_of_writeFailure unfailed strict, ok_of_writeFailure unfailed' strict]
        simp [Trace.Clean, Incident.isFailedWrite]

end Run

end Runbook
