import Runbook.Proofs.Coupling
import Runbook.Proofs.Tasks

/-!
# Concurrent runs

Runs that share a host do not interfere, if they touch nothing in common.

* `Crowd.Apart` — runs with different IDs that keep to themselves, and have no operations in common.
* `Crowd.Housed` — their host has brought all of them as far as they are. A move of one of them
  spares the other ones (`Crowd.Step.spares`).
* `Crowd.Shadows` — a run that is executed alone is as far as one of them.
  `Crowd.Shadows.of_leads`: it is led along by what their moves are to that one.
* `Crowd.Matches` — what has come of one of them is what has come of the run alone.
  `Crowd.matches_of_leads`: so it is in every crowd, and
  `Runner.exists_solo_workFor`: so it is in the background of an engine.
-/

namespace Runbook

namespace Crowd

variable {ι : Type} {z : Veil} {runs : ι → Run} {operations : ι → String → Prop} {starts : ι → Nat}
  {i j : ι} {r' : Run} {h h₀ g g₀ : Host Memory} {c c' : Crowd ι Memory (Bool × Run)}
  {a a' : Crowd Unit Memory (Bool × Run)} {m : Move ι} {ms : List (Move ι)}

/-- The runs have nothing in common that they touch. -/
structure Apart (runs : ι → Run) (operations : ι → String → Prop) : Prop where
  /-- they have different IDs -/
  ids : ∀ i j, (runs i).id = (runs j).id → i = j
  /-- each one keeps to itself -/
  discreet : ∀ i, (runs i).Discreet (operations i)
  /-- and has its own operations -/
  operations : ∀ i j, i ≠ j → ∀ operation, operations i operation → ¬ operations j operation

/-- Runs that are apart have different IDs. -/
theorem Apart.ne (apart : Apart runs operations) (ne : j ≠ i) : (runs i).id ≠ (runs j).id :=
  fun same => ne (apart.ids i j same).symm

/-- The host has brought all the runs as far as they are. -/
structure Housed (runs : ι → Run) (c : Crowd ι Memory (Bool × Run)) : Prop where
  /-- the members are these runs -/
  run : ∀ i, c.run i = (runs i).id
  /-- they are so far -/
  hosted : ∀ i, ∃ u, (runs i).Hosted c.host (c.stance i) u

/-- What has come of the run in the crowd is what has come of the run alone: how it has ended, and
what is stored. -/
structure Matches (z : Veil) (c : Crowd ι Memory (Bool × Run)) (i : ι)
    (a : Crowd Unit Memory (Bool × Run)) : Prop where
  /-- how it has ended, if it has -/
  outcome : Option.Rel (Option.Rel (Run.Alike z)) (c.stance i).outcome? (a.stance ()).outcome?
  /-- what is stored -/
  detail : (c.host.store.detail (c.run i)).map z.detail =
    (a.host.store.detail (a.run ())).map z.detail

/-- The run that is executed alone is as far as the run in the crowd, which began at `h₀`. -/
structure Shadows (z : Veil) (runs : ι → Run) (operations : ι → String → Prop) (i : ι) (r' : Run)
    (h₀ g₀ : Host Memory) (c : Crowd ι Memory (Bool × Run)) (a : Crowd Unit Memory (Bool × Run)) :
    Prop extends Housed runs c where
  /-- it is this run -/
  alone : a.run () = r'.id
  /-- it is equally far, and all that has happened looks the same -/
  coupled : ∃ u u', Run.Coupled z (operations i) (runs i) r' h₀ g₀ c.host a.host (c.stance i)
    (a.stance ()) u u'

variable [DecidableEq ι]

/-! ## Moves of others -/

/-- A move that is none of the run is one of another run, and spares it. Both keep to themselves,
and what they keep to is apart. -/
theorem Step.spares (step : c.Step m c') (housed : Housed runs c) (apart : Apart runs operations)
    (other : Move.of? i m = none) :
    ∃ j, j ≠ i ∧ c.host.Spares (runs j).id (operations j) c'.host ∧ c'.stance i = c.stance i := by
  cases step with
  | @goes j s h step =>
    have ne : j ≠ i := by simpa [Move.of?] using other
    obtain ⟨u, hosted⟩ := housed.hosted j
    exact ⟨j, ne, hosted.spares (apart.discreet j) step, Function.update_of_ne ne.symm ..⟩
  | @called j call =>
    have ne : j ≠ i := by simpa [Move.of?] using other
    exact ⟨j, ne, housed.run j ▸ c.host.spares_called _ call, rfl⟩
  | passes => cases other

/-- Whatever happens next, the host has brought all the runs so far then: one of them takes its
step, and the others are spared. -/
theorem Housed.step (housed : Housed runs c) (apart : Apart runs operations)
    (step : c.Step m c') : Housed runs c' := by
  refine ⟨fun i => step.run_eq ▸ housed.run i, fun i => ?_⟩
  obtain ⟨u, hosted⟩ := housed.hosted i
  cases own : Move.of? i m with
  | none =>
    obtain ⟨j, ne, spares, same⟩ := step.spares housed apart own
    exact ⟨u, same ▸ hosted.of_signal_eq (spares.signal _ (apart.ne ne))⟩
  | some m' =>
    cases step with
    | @goes j s h step =>
      obtain ⟨rfl, -⟩ : j = i ∧ .goes () = m' := by simpa [Move.of?] using own
      obtain ⟨u', hosted'⟩ := hosted.exists_goes step
      exact ⟨u', by simpa using hosted'⟩
    | @called j call =>
      obtain ⟨rfl, -⟩ : j = i ∧ .called () call = m' := by simpa [Move.of?] using own
      exact ⟨_, housed.run j ▸ hosted.called call⟩
    | passes => exact ⟨u, hosted.of_signal_eq rfl⟩

/-! ## The run alone -/

namespace Shadows

/-- The run alone makes the move, if it is one of the run. If it is one of another run, nothing is
done alone, and the run is where it was in both. Time passes for both. -/
theorem step (shadows : Shadows z runs operations i r' h₀ g₀ c a) (apart : Apart runs operations)
    (hides : z.HidesGiven) (resembles : (runs i).Resembles z (operations i) h₀ r' g₀)
    (step : c.Step m c') :
    ∃ a', a.Leads (Move.of? i m).toList a' ∧
      Shadows z runs operations i r' h₀ g₀ c' a' := by
  have housed := shadows.toHoused.step apart step
  obtain ⟨u, u', coupled⟩ := shadows.coupled
  -- a move of another run spares this one; its own moves are made alone as well
  cases own : Move.of? i m with
  | none =>
    obtain ⟨j, ne, spares, same⟩ := step.spares shadows.toHoused apart own
    exact ⟨a, .here, housed, shadows.alone, u, u',
      same ▸ coupled.of_spares spares (apart.ne ne) (apart.operations i j ne.symm)⟩
  | some m' =>
    cases step with
    | @goes j s h step =>
      obtain ⟨rfl, rfl⟩ : j = i ∧ .goes () = m' := by simpa [Move.of?] using own
      obtain ⟨s', g', v, v', step', coupled'⟩ :=
        coupled.exists_goes resembles (apart.discreet j) hides step
      exact ⟨_, .step (.goes step') .here, housed, shadows.alone, v, v', by simpa using coupled'⟩
    | @called j call =>
      obtain ⟨rfl, rfl⟩ : j = i ∧ .called () call = m' := by simpa [Move.of?] using own
      have coupled' := coupled.called call
      rw [← shadows.run j, ← shadows.alone] at coupled'
      exact ⟨_, .step .called .here, housed, shadows.alone, _, _, coupled'⟩
    | @passes ms later rests =>
      obtain rfl : .passes ms = m' := Option.some.inj own
      refine ⟨_, .step (.passes (coupled.couples.clock ▸ later) fun _ => coupled.rests (rests i))
        .here, housed, shadows.alone, u, u', coupled.passes ms⟩

/-- It is led along, one move after the other, by the moves that are its own. -/
theorem of_leads (shadows : Shadows z runs operations i r' h₀ g₀ c a)
    (apart : Apart runs operations) (hides : z.HidesGiven)
    (resembles : (runs i).Resembles z (operations i) h₀ r' g₀) (leads : c.Leads ms c') :
    ∃ a', a.Leads (ms.filterMap (Move.of? i)) a' ∧
      Shadows z runs operations i r' h₀ g₀ c' a' := by
  induction leads generalizing a with
  | here => exact ⟨a, .here, shadows⟩
  | @step c c₁ c' m ms first _ ih =>
    obtain ⟨a₁, here, shadows⟩ := shadows.step apart hides resembles first
    obtain ⟨a', rest, shadows⟩ := ih shadows
    refine ⟨a', ?_, shadows⟩
    have all := here.trans rest
    cases own : Move.of? i m with
    | none => simpa [own] using all
    | some m' => simpa [own] using all

end Shadows

omit [DecidableEq ι] in
/-- So the same has come of it. -/
theorem Shadows.matches_alone (shadows : Shadows z runs operations i r' h₀ g₀ c a)
    (tidy : (runs i).Tidy) (resembles : (runs i).Resembles z (operations i) h₀ r' g₀) :
    Matches z c i a := by
  obtain ⟨u, u', coupled⟩ := shadows.coupled
  refine ⟨coupled.peers.outcome, ?_⟩
  rw [shadows.run i, shadows.alone]
  exact coupled.detail resembles tidy

omit [DecidableEq ι] in
/-- Nothing has begun. -/
theorem shadows_start (quiet : ∀ j, h.signal (runs j).id = .quiet)
    (respects : ∀ n ∈ (runs i).definition.nodes, n.Respects z)
    (resembles : (runs i).Resembles z (operations i) h r' g) :
    Shadows z runs operations i r' h g (start h runs starts) (solo g r' (starts i)) where
  run _ := rfl
  hosted j := ⟨[], .fresh (starts j) [], quiet j⟩
  alone := rfl
  coupled := ⟨[], [], resembles.coupled respects (quiet i) (starts i)⟩

/-- Runs that share a host and touch nothing in common do not interfere. In whatever order they take
their steps, and whenever their signals are called, each one comes to what it comes to when it is
executed alone and its own signal is called as in the crowd: it may take the same steps, and
whenever it has ended, in whatever steps time has passed for it, it has ended in the same way. The
veil hides IDs and times. -/
theorem matches_of_leads (apart : Apart runs operations) (hides : z.HidesGiven)
    (quiet : ∀ j, h.signal (runs j).id = .quiet)
    (respects : ∀ n ∈ (runs i).definition.nodes, n.Respects z)
    (resembles : (runs i).Resembles z (operations i) h r' g)
    (leads : (start h runs starts).Leads ms c) :
    (∃ a, (solo g r' (starts i)).Leads (ms.filterMap (Move.of? i)) a ∧ Matches z c i a) ∧
      ∀ ms' a, (solo g r' (starts i)).Leads ms' a →
        Move.timetable 0 g.clock ms' = Move.timetable 0 g.clock (ms.filterMap (Move.of? i)) →
        (c.stance i).outcome? ≠ none → (a.stance ()).outcome? ≠ none → Matches z c i a := by
  obtain ⟨a, alone, shadows⟩ :=
    (shadows_start quiet respects resembles).of_leads apart hides resembles leads
  have same := shadows.matches_alone (apart.discreet i).toTidy resembles
  refine ⟨⟨a, alone, same⟩, fun ms' a' alone' calls ended ended' => ?_⟩
  -- the run that is led along has ended, too, and the one alone comes to one end only
  have led : (a.stance ()).outcome? ≠ none := by
    intro never
    have both := same.outcome
    rw [never] at both
    generalize (c.stance i).outcome? = o at both ended
    cases both
    exact ended rfl
  obtain ⟨stance, store⟩ := alone.unique alone' calls.symm led ended'
  have run : a'.run = a.run := alone'.run_eq.trans alone.run_eq.symm
  exact ⟨stance ▸ same.outcome, store ▸ run ▸ same.detail⟩

end Crowd

open Crowd in
/-- So it is with runs in the background, whatever their runner waits for. -/
theorem Runner.exists_solo_workFor {runs : List Run} {operations : Fin runs.length → String → Prop}
    {i : Fin runs.length} {z : Veil} {r' : Run} {h g : Host Memory}
    (apart : Apart runs.get operations) (hides : z.HidesGiven)
    (quiet : ∀ j, h.signal (runs.get j).id = .quiet)
    (respects : ∀ n ∈ (runs.get i).definition.nodes, n.Respects z)
    (resembles : (runs.get i).Resembles z (operations i) h r' g) (a : Await) (fuel : Nat) :
    ∃ ms c, (solo g r' 0).Leads ms c ∧
      (∀ r, (workFor a fuel (launched runs) h).2.1.ending i = some (.value r) →
        ∃ ok q, (c.stance ()).outcome? = some (some (ok, q)) ∧ z.run r = z.run q) ∧
      ((workFor a fuel (launched runs) h).2.2.store.detail (runs.get i).id).map z.detail =
        (c.host.store.detail r'.id).map z.detail := by
  obtain ⟨ms, c, leads, host, tends, -⟩ := (reached_launched h runs).workFor a fuel
  have begun : Shadows z runs.get operations i r' h g
      (start h _ fun _ => 0) (solo g r' 0) := shadows_start quiet respects resembles
  obtain ⟨c', alone, shadows⟩ := begun.of_leads apart hides resembles leads
  obtain ⟨outcome, detail⟩ := shadows.matches_alone (apart.discreet i).toTidy resembles
  rw [shadows.run, shadows.alone, host] at detail
  refine ⟨_, c', alone, fun r ended => ?_, detail⟩
  obtain ⟨a, here, rfl⟩ := tends.outcome ended
  rw [here] at outcome
  generalize (c'.stance ()).outcome? = o at outcome
  cases outcome with
  | some outcome =>
    cases outcome with
    | @some a b alike => exact ⟨b.1, b.2, rfl, alike.2⟩

namespace Crowd

/-! ## Two runs -/

/-- A run that waits, and one of two nodes. -/
def mates : Bool → Run
  | true => .vigil
  | false => .create (.create "2" "pair" "" "" "" (.ofMicros 0)) .pair Run.vigil.settings default

/-- A host for both of them. -/
def lodge : Host Memory :=
  .start ((Memory.empty.createRun (mates true).record).2.createRun (mates false).record).2

/-- Another run that waits. -/
def hermit : Run :=
  .create (.create "3" "vigil" "" "" "" (.ofMicros 1)) .vigil Run.vigil.settings default

/-- They ask for no operations. -/
theorem mates_apart : Apart mates fun _ _ => False where
  ids i j same := by
    cases i <;> cases j <;> first | rfl | exact absurd same (by decide)
  discreet i := by
    -- no executor changes anything
    have idle : ∀ n ∈ (mates i).definition.nodes, n.KeepsId ∧ n.Within (.own fun _ => False) := by
      intro n hn
      cases i with
      | true =>
        obtain rfl := List.mem_singleton.1 hn
        exact ⟨fun _ => ⟨rfl, rfl⟩, fun _ allows => ⟨⟨rfl, allows⟩, rfl, allows⟩⟩
      | false =>
        rcases List.mem_cons.1 hn with rfl | hn
        · exact ⟨fun _ => rfl, fun _ allows => ⟨rfl, allows⟩⟩
        · obtain rfl := List.mem_singleton.1 hn
          exact ⟨fun _ => rfl, fun _ allows => ⟨rfl, allows⟩⟩
    have fresh : (mates i).trail = [] := by cases i <;> rfl
    exact ⟨⟨fresh, fun n hn => (idle n hn).1⟩,
      Run.keepsTo_of_executors fresh fun n hn => (idle n hn).2⟩
  operations _ _ _ _ never := never.elim

/-- The one run ends while the other one waits, which is canceled then. That ends as it does
alone. -/
theorem mates_match : ∃ ms c, (start lodge mates fun _ => 0).Leads ms c ∧
    (c.stance false).outcome?.map (Option.map (·.1)) = some (some true) ∧
    (c.stance true).outcome?.map (Option.map (·.2.lastError)) =
      some (some (some "task canceled: stop")) ∧
    ∃ a, (solo (.holding hermit []) hermit 0).Leads (ms.filterMap (Move.of? true)) a ∧
      Matches ⟨fun _ => "", fun _ => .ofMicros 0⟩ c true a := by
  have respects : ∀ n ∈ (mates true).definition.nodes,
      n.Respects ⟨fun _ => "", fun _ => .ofMicros 0⟩ := by
    intro n hn s s' same
    obtain rfl := List.mem_singleton.1 hn
    exact .pause same (.finish same)
  have resembles : (mates true).Resembles ⟨fun _ => "", fun _ => .ofMicros 0⟩ (fun _ => False)
      lodge hermit (.holding hermit []) :=
    ⟨rfl, ⟨rfl, rfl, fun _ never => never.elim, fun _ never => never.elim, rfl⟩, ⟨rfl, rfl⟩,
      ⟨rfl, rfl⟩, _, _, rfl, rfl, rfl⟩
  have quiet : ∀ i, lodge.signal (mates i).id = .quiet := by
    intro i
    cases i <;> rfl
  let both := start lodge mates fun _ => 0
  let worked := (both.turn true).turn false
  obtain ⟨n₁, first⟩ := leads_turn both true
  obtain ⟨n₂, second⟩ := leads_turn (both.turn true) false
  obtain ⟨n₃, third⟩ := leads_turn
    { worked with host := worked.host.called (worked.run true) (.cancel "stop") } true
  have leads := first.trans (second.trans (.step .called third))
  exact ⟨_, _, leads, by decide +kernel, by decide +kernel, (matches_of_leads mates_apart
    ⟨fun _ _ => rfl, fun _ _ => rfl⟩ quiet respects resembles leads).1⟩

end Crowd

end Runbook
