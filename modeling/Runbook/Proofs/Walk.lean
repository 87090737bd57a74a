import Runbook.Proofs.Graph
import Runbook.Proofs.Step
import Runbook.Run.Walk

/-!
# Conditions along a walk

* `Trace.Looks` — what happens when a run between two nodes looks at its signal.
* `Run.Canceled` — a run that was ended as canceled.
* `Run.Keeps` — a condition that every node keeps, and what follows from it where
  the walk ends. It speaks of single nodes only.
* `Run.Keeps.ensures_walk` — such a condition holds along the whole walk. The
  induction is on the list of nodes: because events lead forward, a walk that has
  passed a node never has to come back for it.
* `Run.ensures_close` — what closes a run after its walk.
-/

namespace Runbook

open Program

variable {pace : Pace} {t u : Trace}

/-! ## Between two nodes -/

namespace Trace

/-- From `t` to the later trace a run looked at its signal between two nodes. -/
def Looks (pace : Pace) (t u : Trace) : Prop :=
  ∃ run s cs cs', (cs' = [] ∨ pace = .slow) ∧
    u = calls cs' ++ .asked (.signal run) s :: (calls cs ++ .asked (.between run) () :: t)

theorem Looks.adds {A : Request → Prop} (h : t.Looks pace u) (between : ∀ run, A (.between run))
    (signal : ∀ run, A (.signal run)) : t.Adds A u := by
  obtain ⟨run, s, cs, cs', -, rfl⟩ := h
  refine ((Adds.asked () (between run)).trans (.calls cs)).trans ?_
  exact (Adds.asked s (signal run)).trans (.calls cs')

theorem Looks.orderly (h : t.Looks .prompt u) (ht : t.Orderly) : u.Orderly := by
  obtain ⟨run, s, cs, cs', -, rfl⟩ := h
  have before : Orderly (.asked (.between run) () :: t) := ht.free rfl
  have looked : Orderly (.asked (.signal run) s :: (calls cs ++ .asked (.between run) () :: t)) :=
    (before.calls cs).free rfl
  exact looked.calls cs'

theorem Looks.not_interrupted (h : t.Looks pace u) (ht : ¬ t.Interrupted) : ¬ u.Interrupted := by
  obtain ⟨run, s, cs, cs', -, rfl⟩ := h
  rw [interrupted_calls, interrupted_cons, interrupted_calls, interrupted_cons]
  simpa using ht

end Trace

namespace Run

variable {r r' : Run} {ok : Bool} {reason : String}

/-- What a run finds that looks at its signal between two nodes. -/
theorem ensures_look {α : Type} {f : Signal → Program α} {Q : Option α → Trace → Prop}
    (h : ∀ s u, t.Looks pace u → (s.fired = true → u.signal.fired = true) →
      (pace = .prompt → u.signal = s) → (f s).Ensures pace Q u) :
    (r.look.bind f).Ensures pace Q t := by
  refine ensures_request.2 fun _ cs _ _ => ensures_signal fun cs' hcs' => ?_
  refine h _ _ ⟨r.id, _, cs, cs', hcs', rfl⟩ (fun fired => ?_) fun hp => ?_
  · exact Trace.fired_append _ fired
  · obtain rfl : cs' = [] := by simpa [hp] using hcs'
    rfl

/-! ## Ends of a walk -/

/-- `r'` is the run `r` when it has ended as canceled. -/
structure Canceled (r : Run) (reason : String) (r' : Run) : Prop where
  /-- a visit that has not ended takes the failure over -/
  trail : ∃ now, r'.trail = (r.edit fun v => v.ended (.canceled reason) now).trail
  /-- the run is canceled -/
  status : r'.record.status = .canceled
  /-- for this reason -/
  lastError : r'.lastError = some (Failure.canceled reason).message

theorem canceled_ended (now : Instant) :
    r.Canceled reason (r.ended (.canceled reason) .canceled now) :=
  ⟨⟨now, rfl⟩, rfl, rfl⟩

theorem Canceled.stamped (h : r.Canceled reason r') (now : Instant) :
    r.Canceled reason (r'.stamped now) :=
  ⟨h.trail, h.status, h.lastError⟩

/-- What has to be known of a condition `I` on the target, the value so far, the
run and the trace, for it to hold whenever a walk through `d` comes to a target,
and for `Q` to hold where the walk ends. -/
structure Keeps (pace : Pace) (d : Definition) (I : Option String → Bool → Run → Trace → Prop)
    (Q : Option (Bool × Run) → Trace → Prop) : Prop where
  /-- the walk ends behind the last node -/
  arrives {ok : Bool} {r : Run} {t u : Trace} : I none ok r t → t.Looks pace u → u.Calm pace →
    Q (some (ok, r.withStatus .finished)) u
  /-- it ends between two nodes because the run is canceled -/
  cancels {target : Option String} {ok : Bool} {r r' : Run} {t u v : Trace} : I target ok r t →
    t.Looks pace u → u.signal.fired = true → r.Canceled u.signal.reason r' → u.Idles pace v →
    (pace = .prompt → v.Orderly) → Q (some (false, r')) v
  /-- it comes to a node -/
  steps {n : NodeSpec} {ok : Bool} {r : Run} {t u v : Trace} {o : Option (Course × Run)} :
    I (some n.name) ok r t → d.node? n.name = some n → t.Looks pace u → u.Calm pace →
    Stepped pace n r o v → match o with
      | none => Q none v
      | some (.advance, r') => I n.onSuccess ok r' v
      | some (.recover, r') => I n.onFail false r'.keepError v
      | some (.stop, r') => Q (some (false, r')) v

/-- The same for conditions of any kind: what the program of each place in the walk
has to ensure. -/
structure Carries (pace : Pace) (d : Definition)
    (I : Option String → Bool → Run → Trace → Prop) (Q : Option (Bool × Run) → Trace → Prop) :
    Prop where
  /-- the walk comes to its end -/
  arrives {ok : Bool} {r : Run} {t : Trace} : I none ok r t → (r.arrive ok).Ensures pace Q t
  /-- it is canceled between two nodes -/
  cancels {target : Option String} {ok : Bool} {r : Run} {t u : Trace} : I target ok r t →
    t.Looks pace u → u.signal.fired = true → r.stopCanceled.Ensures pace Q u
  /-- it comes to a node -/
  steps {n : NodeSpec} {ok : Bool} {r : Run} {t u : Trace} : I (some n.name) ok r t →
    d.node? n.name = some n → t.Looks pace u → (pace = .prompt → u.signal.fired = false) →
    (r.step n).Ensures pace (fun o v => match o with
      | none => Q none v
      | some (.advance, r') => I n.onSuccess ok r' v
      | some (.recover, r') => I n.onFail false r'.keepError v
      | some (.stop, r') => Q (some (false, r')) v) u

section

variable {d : Definition} {I : Option String → Bool → Run → Trace → Prop}
  {Q : Option (Bool × Run) → Trace → Prop} {target : Option String}

/-- A condition that is carried through every place of the walk holds along the whole
walk. -/
theorem Carries.ensures_walk (h : Carries pace d I Q) {nodes : List NodeSpec}
    (rest : nodes <:+ d.nodes)
    (inRest : ∀ name, target = some name → name ∈ nodes.map NodeSpec.name)
    (hi : I target ok r t) : (walk nodes target ok r).Ensures pace Q t := by
  induction nodes generalizing target ok r t with
  | nil =>
    cases target with
    | none => exact h.arrives hi
    | some name => exact absurd (inRest name rfl) (by simp)
  | cons n nodes ih =>
    have rest' := (List.suffix_cons n nodes).trans rest
    have inside : n ∈ d.nodes := rest.subset (List.mem_cons_self ..)
    obtain ⟨before, whole⟩ := rest
    -- events lead to nodes further on, so the rest of the list is enough to go on
    have behind (e : Event) (name : String) (he : n.target e = some name) :
        name ∈ nodes.map NodeSpec.name := Definition.mem_of_target whole.symm he
    cases target with
    | none => exact h.arrives hi
    | some name =>
      rw [walk]
      split
      · next here =>
        subst here
        refine ensures_look fun s u looks hs signal => ?_
        split
        · next fired => exact h.cancels hi looks (hs fired)
        · next quiet =>
          have found := Definition.node?_eq_some.2 ⟨inside, rfl⟩
          refine ensures_bind.2 (Ensures.mono (h.steps hi found looks fun hp => ?_) ?_)
          · rw [signal hp]
            simpa using quiet
          · rintro (_ | ⟨course, r'⟩) v kept
            · exact kept
            · cases course with
              | advance => exact ih rest' (behind .success) kept
              | recover => exact ih rest' (behind .fail) kept
              | stop => exact kept
      · next elsewhere =>
        refine ih rest' (fun name' hname => ?_) hi
        obtain rfl := Option.some.inj hname
        exact List.mem_of_ne_of_mem (Ne.symm elsewhere) (inRest _ rfl)

end

namespace Keeps

variable {d : Definition} {I : Option String → Bool → Run → Trace → Prop}
  {Q : Option (Bool × Run) → Trace → Prop} {target : Option String}

theorem ensures_stopCanceled (h : Keeps pace d I Q) (hi : I target ok r t)
    (looks : t.Looks pace u) (fired : u.signal.fired = true)
    (ordered : pace = .prompt → u.Orderly) : r.stopCanceled.Ensures pace Q u := by
  refine ensures_bind.2 (ensures_markCanceled fun now x hx => ensures_bind.2 ?_)
  refine ensures_saveAnyway fun now' y hy _ => ?_
  refine h.cancels hi looks fired ((canceled_ended now).stamped now') (hx.trans hy) fun hp => ?_
  subst hp
  exact (hx.trans hy).orderly (ordered rfl)

theorem ensures_arrive (h : Keeps pace d I Q) (hi : I none ok r t)
    (status : r.record.status = .processing) (ordered : pace = .prompt → t.Orderly) :
    (r.arrive ok).Ensures pace Q t := by
  refine ensures_look fun s u looks hs signal => ?_
  have ordered' (hp : pace = .prompt) : u.Orderly := by
    subst hp
    exact looks.orderly (ordered rfl)
  split
  · next fired =>
    refine ensures_bind.2 (ensures_markCanceled fun now x hx => ?_)
    refine h.cancels hi looks (hs fired) (canceled_ended now) hx fun hp => ?_
    subst hp
    exact hx.orderly (ordered' rfl)
  · next quiet =>
    rw [if_neg (by simp [status])]
    exact h.arrives hi looks fun hp => ⟨ordered' hp, by rw [signal hp]; simpa using quiet⟩

/-- A condition that every node keeps is carried through the walk, together with the
status of the run and the order of the trace. -/
theorem carries (h : Keeps pace d I Q) :
    Carries pace d (fun target ok r t => I target ok r t ∧ r.record.status = .processing ∧
      (pace = .prompt → t.Orderly)) Q where
  arrives := by
    rintro ok r t ⟨hi, status, ordered⟩
    exact h.ensures_arrive hi status ordered
  cancels := by
    rintro target ok r t u ⟨hi, -, ordered⟩ looks fired
    refine h.ensures_stopCanceled hi looks fired fun hp => ?_
    subst hp
    exact looks.orderly (ordered rfl)
  steps := by
    rintro n ok r t u ⟨hi, status, ordered⟩ found looks quiet
    have calm : u.Calm pace := fun hp => ⟨by subst hp; exact looks.orderly (ordered rfl), quiet hp⟩
    refine (ensures_step calm).mono fun o v stepped => ?_
    have kept := h.steps hi found looks calm stepped
    cases stepped with
    | advanced working _ calm =>
      exact ⟨kept, working.status.trans status, fun hp => (calm hp).1⟩
    | recovered working _ _ ordered =>
      exact ⟨kept, working.status.trans status, fun hp => (ordered hp).1⟩
    | canceled | aborted | panicked => exact kept

/-- A condition that every node keeps holds along the whole walk. -/
theorem ensures_walk (h : Keeps pace d I Q) {nodes : List NodeSpec} (rest : nodes <:+ d.nodes)
    (inRest : ∀ name, target = some name → name ∈ nodes.map NodeSpec.name)
    (hi : I target ok r t) (status : r.record.status = .processing)
    (ordered : pace = .prompt → t.Orderly) : (walk nodes target ok r).Ensures pace Q t :=
  h.carries.ensures_walk rest inRest ⟨hi, status, ordered⟩

end Keeps

/-! ## After the walk -/

/-- A canceled run stays so. -/
theorem complete_of_canceled (h : r.record.status = .canceled) : r.complete ok = r := if_pos h

/-- Any other one has the status that its value says. -/
theorem complete_of_not_canceled (h : r.record.status ≠ .canceled) :
    r.complete ok = r.withStatus (if ok then .finished else .error) := if_neg h

@[simp] theorem complete_trail : (r.complete ok).trail = r.trail := by
  rw [complete]
  split <;> rfl

/-- What closes a run: it gets its final status and is written; if the signal has
fired meanwhile, it is canceled before. -/
theorem ensures_close {Q : Option (Bool × Run) → Trace → Prop}
    (complete : ∀ now u, t.Idles pace u → ((r.complete ok).stamped now).LastSaved u →
      (t.signal.fired = true → r.record.status = .canceled) →
      Q (some (ok, (r.complete ok).stamped now)) u)
    (cancel : ∀ reason r' u, t.Idles pace u → t.signal.fired = true →
      r.record.status ≠ .canceled → r.Canceled reason r' → r'.LastSaved u → Q (some (ok, r')) u) :
    (r.close ok).Ensures pace Q t := by
  refine ensures_signal fun cs hcs => ?_
  have looked : t.Idles pace _ := .asked (r := .signal r.id) t.signal .refl rfl hcs
  dsimp only
  split
  · next late =>
    obtain ⟨fired, status⟩ : t.signal.fired = true ∧ r.record.status ≠ .canceled := by
      simpa using late
    refine ensures_bind.2 (ensures_markCanceled fun now u hu => ensures_bind.2 ?_)
    refine ensures_saveAnyway fun now' v hv last => ?_
    rw [complete_of_canceled (ended_status ..)] at last ⊢
    exact cancel _ _ v (looked.trans (hu.trans hv)) fired status
      ((canceled_ended now).stamped now') last
  · next settled =>
    refine (ensures_bind (p := (r.complete ok).saveAnyway)).2 (ensures_saveAnyway ?_)
    intro now v hv last
    refine complete now v (looked.trans hv) last fun fired => ?_
    simpa [fired] using settled

/-- The whole run: a condition that every node keeps, and what closing the run
makes of it. -/
theorem ensures_start {I : Option String → Bool → Run → Trace → Prop}
    {Q₀ Q : Option (Bool × Run) → Trace → Prop} (h : Keeps pace r.definition I Q₀)
    (hi : I (some startName) true (r.withStatus .processing) t)
    (ordered : pace = .prompt → t.Orderly)
    (closes : ∀ ok r' u, Q₀ (some (ok, r')) u → (r'.close ok).Ensures pace Q u)
    (panics : ∀ u, Q₀ none u → Q none u) : r.start.Ensures pace Q t := by
  refine ensures_bind.2 (Ensures.mono (h.ensures_walk (List.suffix_refl _) ?_ hi rfl ordered) ?_)
  · rintro _ ⟨⟩
    exact r.definition.hasStart
  · rintro (_ | ⟨ok, r'⟩) u hu
    · exact panics u hu
    · exact closes ok r' u hu

end Run

/-! ## A run that waits -/

/-- A procedure with one node, whose executor waits until it is interrupted. -/
def Definition.vigil : Definition where
  name := "vigil"
  nodes := [⟨startName, .immediate, fun scene => .pause scene .never (.finish scene .done),
    none, none, none⟩]
  named := by decide
  nodesNamed := by simp [startName]
  distinct := by simp
  hasStart := by simp
  forward := ⟨by simp [NodeSpec.successors], trivial⟩

/-- A run of it that has not begun. -/
def Run.vigil : Run :=
  .create (.create "1" "vigil" "" "" "" (.ofMicros 0)) .vigil
    ⟨.ofMillis 3000, 1200, .bestEffort, "", by decide⟩ default

theorem Definition.vigil_modest : ∀ n ∈ Definition.vigil.nodes, n.Modest := by
  intro n hn scene
  obtain rfl := List.mem_singleton.1 hn
  exact ⟨rfl, rfl⟩

/-! ## A run that takes a bypass -/

/-- A procedure whose first node fails, from where a bypass leads around the second one. -/
def Definition.bypass : Definition where
  name := "bypass"
  nodes := [⟨startName, .immediate, fun scene => .finish scene (.error "blocked"), some "road",
      some "lane", none⟩,
    ⟨"road", .immediate, fun scene => .finish scene .done, none, none, none⟩,
    ⟨"lane", .immediate, fun scene => .finish scene .done, none, none, none⟩]
  named := by decide
  nodesNamed := by simp [startName]
  distinct := by simp [startName]
  hasStart := by simp
  forward := ⟨by simp [NodeSpec.successors], by simp [NodeSpec.successors],
    by simp [NodeSpec.successors], trivial⟩

/-- A run of it that has not begun. -/
def Run.bypass : Run :=
  .create (.create "1" "bypass" "" "" "" (.ofMicros 0)) .bypass vigil.settings default

theorem Definition.bypass_modest : ∀ n ∈ Definition.bypass.nodes, n.Modest := by
  intro n hn scene
  simp only [Definition.bypass, List.mem_cons, List.not_mem_nil, or_false] at hn
  rcases hn with rfl | rfl | rfl <;> rfl

/-- It can end behind the bypass, as one that has failed. -/
theorem Run.exists_easily_bypass : ∃ r', (bypass.start.easily []).1 = .done (false, r') ∧
    r'.visits.map (fun v => (v.name, v.status)) = [(startName, .error), ("lane", .finished)] :=
  ⟨_, rfl, by decide +kernel⟩

end Runbook
