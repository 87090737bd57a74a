import Runbook.Api
import Runbook.Proofs.Live

/-!
# Waiting for a run hides it

Whoever waits for a live run takes it over: the engine keeps track of it no longer, although the run
is still executed. It is not listed then, and nobody can cancel it by its ID, even when nobody
waits for it any more.

* `Tally.Stirs`, `Tally.Reaches` — what can happen at an engine if runs are waited for, too, and
  where it leads.
* `Tally.Hides` — the engine keeps no track of a run that was started. `Tally.Hides.reaches`: so it
  stays.
* `Tally.Concealed` — what that means to those who ask for the run, or want to cancel it.
* `Tally.concealed_of_takeOver` — every run that is waited for is concealed.
-/

namespace Runbook

variable {σ : Type}

namespace Engine

variable {e : Engine σ} {id : String} {n : Nat}

/-- Who is taken over was kept track of. -/
theorem get?_of_takeOver (taken : (e.takeOver id).1 = .ok n) : e.live.get? id = some n := by
  rw [takeOver] at taken
  split at taken
  · cases taken
  · next m found =>
    cases taken
    exact found

/-- Nobody keeps track of it then; everything else is as before. -/
theorem takeOver_snd (e : Engine σ) (id : String) :
    (e.takeOver id).2 = { e with live := e.live.erase id } := by
  rw [takeOver]
  split
  · next other => rw [Catalog.erase_eq_self other]
  · rfl

end Engine

namespace Tally

variable {t t' : Tally σ} {id : String} {n : Nat}

/-- Somebody takes a run over, in order to wait for its task. -/
def takeOver (t : Tally σ) (id : String) : Tally σ :=
  { t with engine := (t.engine.takeOver id).2 }

theorem takeOver_eq (t : Tally σ) (id : String) :
    t.takeOver id = { t with engine := { t.engine with live := t.engine.live.erase id } } := by
  rw [takeOver, Engine.takeOver_snd]

/-- To wait for a run is nothing to the tasks. -/
theorem Tended.takeOver {doom : Nat → Option String} (tended : t.Tended doom) (id : String) :
    (t.takeOver id).Tended doom := by
  rw [takeOver_eq]
  exact tended.of_eq rfl rfl

/-- Nor is anybody kept track of because of it. -/
theorem Known.takeOver (known : t.Known) (id : String) : (t.takeOver id).Known := by
  rw [takeOver_eq]
  apply known.of_live
  intro id' n found
  rw [Catalog.get?_erase] at found
  split at found
  · cases found
  · exact found

/-- The engine keeps no track of a run that was started. -/
structure Hides (t : Tally σ) (id : String) : Prop where
  /-- it was started -/
  started : id ∈ t.started.map Run.id
  /-- it is not among those who are kept track of -/
  unlisted : t.engine.live.get? id = none

/-- The run is concealed from those who ask for it. -/
structure Concealed [Store σ] (t : Tally σ) (id : String) : Prop where
  /-- it is not listed -/
  unlisted : id ∉ t.engine.running.1
  /-- it cannot be canceled, and whoever tries changes nothing about any run -/
  refused (reason : String) : (t.engine.cancel id reason).1 = false ∧
    ∃ live, (t.engine.cancel id reason).2 = { t.engine with live := live }
  /-- the service says that there is no such run -/
  notFound {q : Api.Request} {rawId : String} {c : Api.CancelRequest} (method : q.method = .post)
    (route : Api.Route.ofTarget? q.target = some (.cancel rawId))
    (named : Api.segmentText? rawId = some id) (read : Api.readCancel q = .ok c) :
    (Api.respond t.engine q).1 = .refusal 404

/-- So it is concealed. -/
theorem Hides.concealed [Store σ] (hides : t.Hides id) : t.Concealed id := by
  have other : t.engine.prune.live.contains id = false := by
    rw [Catalog.contains, Engine.get?_prune_eq_none hides.unlisted]
    rfl
  have refused (reason : String) : (t.engine.cancel id reason).1 = false := by
    rw [Engine.cancel_fst, other]
  constructor
  case unlisted =>
    intro listed
    rw [Engine.running, Catalog.mem_names, other] at listed
    cases listed
  case refused =>
    intro reason
    exact ⟨refused reason, _, Engine.cancel_of_not_contains other⟩
  case notFound =>
    intro q rawId c method route named read
    simp only [Api.respond, route, method, Api.cancelRun, named, read]
    rcases answer : t.engine.cancel id c.effectiveReason with ⟨found, e⟩
    obtain rfl : found = false := by rw [← refused c.effectiveReason, answer]
    rfl

/-- Whoever is taken over is hidden. -/
theorem hides_takeOver (started : id ∈ t.started.map Run.id) : (t.takeOver id).Hides id := by
  rw [takeOver_eq]
  exact ⟨started, Catalog.get?_erase_self ..⟩

namespace Hides

/-- No move brings it back. -/
theorem tracks (hides : t.Hides id) (tracks : t.Tracks t') : t'.Hides id := by
  cases tracks with
  | @starts e r runner live new =>
    have ne : id ≠ r.id := by
      rintro rfl
      exact new hides.started
    have unlisted : e.live.get? id = none := live ▸ hides.unlisted
    refine ⟨?_, (live_start_of_ne (t := ⟨e, t.started⟩) ne).trans ?_⟩
    · rw [List.map_append]
      exact List.mem_append_left _ hides.started
    · exact Engine.get?_prune_eq_none unlisted
  | others live ended =>
    refine ⟨hides.started, ?_⟩
    rcases live with same | pruned
    · rw [same, hides.unlisted]
    · rw [pruned, Engine.get?_prune_eq_none hides.unlisted]

/-- Nor is it brought back when somebody waits for a run. -/
theorem takeOver (hides : t.Hides id) (other : String) : (t.takeOver other).Hides id := by
  rw [takeOver_eq]
  refine ⟨hides.started, ?_⟩
  rw [Catalog.get?_erase, hides.unlisted, ite_self]

end Hides

variable [Store σ] {doom : Nat → Option String}

/-- What can happen next if runs are waited for, too. -/
inductive Stirs : Tally σ → Tally σ → Prop where
  /-- something else -/
  | moves {t t' : Tally σ} (moves : t.Moves t') : Stirs t t'
  /-- somebody waits for a run -/
  | waits {t : Tally σ} (id : String) : Stirs t (t.takeOver id)

/-- Where some of that leads. -/
abbrev Reaches : Tally σ → Tally σ → Prop := Relation.ReflTransGen Stirs

theorem Tended.reaches (tended : t.Tended doom) (reaches : t.Reaches t') : t'.Tended doom := by
  induction reaches with
  | refl => exact tended
  | tail _ next ih =>
    cases next with
    | moves moves => exact ih.moves moves
    | waits id => exact ih.takeOver id

theorem Known.reaches (known : t.Known) (tended : t.Tended doom) (reaches : t.Reaches t') :
    t'.Known := by
  induction reaches with
  | refl => exact known
  | tail before next ih =>
    have tended' := tended.reaches before
    cases next with
    | moves moves => exact ih.tracks tended'.length (moves.tracks tended')
    | waits id => exact ih.takeOver id

theorem Hides.reaches (hides : t.Hides id) (tended : t.Tended doom) (reaches : t.Reaches t') :
    t'.Hides id := by
  induction reaches with
  | refl => exact hides
  | tail before next ih =>
    cases next with
    | moves moves => exact ih.tracks (moves.tracks (tended.reaches before))
    | waits other => exact ih.takeOver other

/-- Whoever waits for a run takes it over. It was listed, and could be canceled, if it had not
ended; it is executed as before; but from now on it is concealed, whatever happens, and whether or
not anybody still waits. -/
theorem concealed_of_takeOver {settings : Settings} {store : σ}
    (reached : (idle settings store).Reaches t) (taken : (t.engine.takeOver id).1 = .ok n) :
    (∃ r, t.started[n]? = some r ∧ r.id = id) ∧
      (t.engine.runner.hasEnded n = false →
        id ∈ t.engine.running.1 ∧ ∀ reason, (t.engine.cancel id reason).1 = true) ∧
      ((t.takeOver id).engine.runner = t.engine.runner ∧
        (t.takeOver id).engine.host = t.engine.host) ∧
      ∀ t', (t.takeOver id).Reaches t' → t'.Concealed id := by
  have tended := (tended_idle settings store).reaches reached
  have known := (known_idle settings store).reaches (tended_idle settings store) reached
  have found := Engine.get?_of_takeOver taken
  obtain ⟨r, here, same⟩ := known.known found
  refine ⟨⟨r, here, same⟩, ?_, ?_, ?_⟩
  · intro on
    have listed := Engine.contains_prune.2 ⟨n, found, on⟩
    refine ⟨(Catalog.mem_names _).2 listed, ?_⟩
    intro reason
    rw [Engine.cancel_fst, listed]
  · rw [takeOver_eq]
    exact ⟨rfl, rfl⟩
  · intro t' later
    have started : id ∈ t.started.map Run.id :=
      same ▸ List.mem_map_of_mem (List.mem_of_getElem? here)
    have hides := hides_takeOver started
    exact (hides.reaches (tended.takeOver id) later).concealed

/-- A run that waits until it is interrupted, when somebody waits for it: it has not ended, and can
no longer be canceled. -/
theorem vigil_concealed : vigil.engine.runner.hasEnded 0 = false ∧
    Host.runId 1 ∈ vigil.engine.running.1 ∧
      (vigil.takeOver (Host.runId 1)).Concealed (Host.runId 1) := by
  have reached : (idle Run.vigil.settings Memory.empty).Reaches vigil :=
    Relation.ReflTransGen.mono (fun _ _ => Stirs.moves) _ _ comes_vigil
  have kept : vigil.engine.live.get? (Host.runId 1) = some 0 := by decide +kernel
  have taken : (vigil.engine.takeOver (Host.runId 1)).1 = .ok 0 := by
    rw [Engine.takeOver, kept]
  have on : vigil.engine.runner.hasEnded 0 = false := by decide +kernel
  obtain ⟨-, listed, -, concealed⟩ := concealed_of_takeOver reached taken
  exact ⟨on, (listed on).1, concealed _ .refl⟩

end Tally

end Runbook
