import Runbook.Proofs.History
import Runbook.Proofs.Writes

/-!
# The protocol of writes

What a run writes, from its beginning to its end, in order.

* `Visit.Becomes`, `Extends` — lists of visits only grow, and entries that have ended
  stay as they are.
* `Definition.Chronicle` — the marks of one node after the other.
* `Run.Closing` — the writes behind the last node.
* `Run.Protocol`, `Run.protocol_of_start` — every run writes like that.
-/

namespace Runbook

open Program

/-! ## Lists of visits that grow -/

/-- The entry `v` may have become `w`: it is the same visit, and has not changed if it
had ended. -/
def Visit.Becomes (v w : Visit) : Prop := v.Same w ∧ (v.isActive = false → w = v)

/-- The later list has an entry for each one of the earlier list, in its place, and may
have more of them. -/
def Extends (earlier later : List Visit) : Prop :=
  ∃ front back, later = front ++ back ∧ List.Forall₂ Visit.Becomes earlier front

theorem Visit.Becomes.refl (v : Visit) : v.Becomes v := ⟨.refl v, fun _ => rfl⟩

theorem Extends.refl (vs : List Visit) : Extends vs vs :=
  ⟨vs, [], (List.append_nil vs).symm, List.forall₂_same.2 fun v _ => .refl v⟩

theorem Extends.append {earlier later : List Visit} (h : Extends earlier later)
    (more : List Visit) : Extends earlier (later ++ more) := by
  obtain ⟨front, back, rfl, entries⟩ := h
  exact ⟨front, back ++ more, List.append_assoc .., entries⟩

/-- The last entry may change. -/
theorem Extends.concat {vs : List Visit} {v w : Visit} (h : v.Becomes w) :
    Extends (vs ++ [v]) (vs ++ [w]) := by
  refine ⟨vs ++ [w], [], (List.append_nil _).symm, ?_⟩
  exact List.rel_append (List.forall₂_same.2 fun v _ => .refl v) (.cons h .nil)

namespace Trace

/-- The lists of visits that were written, the latest first. -/
def written (t : Trace) : List (List Visit) :=
  t.filterMap fun
    | .asked (.update _ visits) _ => some visits
    | _ => none

@[simp] theorem written_nil : written [] = [] := rfl

@[simp] theorem written_append {t u : Trace} : written (u ++ t) = written u ++ written t :=
  List.filterMap_append

/-- Lists are written only where there are marks. -/
theorem written_marks (t : Trace) : t.marks.written = t.written := by
  induction t with
  | nil => rfl
  | cons e t ih =>
    cases e with
    | asked r x =>
      cases r with
      | update r visits => exact congrArg (visits :: ·) ih
      | _ => exact ih
    | _ => exact ih

end Trace

/-! ## Nodes one after the other

A chronicle has the visits as they are now, but the marks have them as they were written. So
each visit stands here twice: as it was created, and as it has ended. -/

/-- The visit is a new one of the node, by the run of that ID. -/
def NodeSpec.Creates (n : NodeSpec) (run : String) (c : Visit) : Prop :=
  ∃ id record now, record.id = run ∧ c = Visit.create id record n.name n.kind now

theorem NodeSpec.Creates.parentId {n : NodeSpec} {run : String} {c : Visit}
    (h : n.Creates run c) : c.parentId = run := by
  obtain ⟨id, record, now, rfl, rfl⟩ := h
  rfl

/-- The marks of the nodes that a run has visited, and their visits, the latest first:
each node has its marks, and its visit has ended. -/
inductive Definition.Chronicle (d : Definition) (policy : WritePolicy) (run : String) :
    List Visit → Trace → Prop where
  /-- no node was visited -/
  | start : Chronicle d policy run [] []
  /-- one more node -/
  | node {trail : List Visit} {ms ns : Trace} {n : NodeSpec} {c v : Visit}
      (earlier : Chronicle d policy run trail ms) (found : n ∈ d.nodes)
      (created : n.Creates run c) (same : n.Tame → c.Same v)
      (ended : v.status = .finished ∨ v.status = .error)
      (episode : Trace.Episode policy run trail.reverse c ns) :
      Chronicle d policy run (v :: trail) (ns ++ ms)

namespace Definition.Chronicle

variable {d : Definition} {policy : WritePolicy} {run : String} {trail : List Visit} {ms : Trace}

theorem not_isActive (h : d.Chronicle policy run trail ms) :
    ∀ v ∈ trail, v.isActive = false := by
  induction h with
  | start => simp
  | node _ _ _ _ ended _ ih =>
    refine List.forall_mem_cons.2 ⟨?_, ih⟩
    rcases ended with ended | ended <;> simp [Visit.isActive, ended, Status.isTerminal]

/-- A node adds at most one list to those that were written before: the earlier visits and
its own one at work. -/
theorem written_episode {earlier : List Visit} {c : Visit} {ns : Trace}
    (h : Trace.Episode policy run earlier c ns) :
    ns.written = [] ∨ ns.written = [earlier ++ [c.processing]] := by
  cases h with
  | lost => exact .inl rfl
  | idle | begun => exact .inr rfl

/-- Each list that was written extends the earlier ones, and so do the visits in the end. -/
theorem extends_written (h : d.Chronicle policy run trail ms) (tame : ∀ n ∈ d.nodes, n.Tame) :
    (∀ vs ∈ ms.written, Extends vs trail.reverse) ∧
      ms.written.Pairwise fun later earlier => Extends earlier later := by
  induction h with
  | start => simp
  | @node trail ms ns n c v _ found created same _ episode ih =>
    obtain ⟨id, record, now, -, rfl⟩ := created
    obtain ⟨before, pairs⟩ := ih
    rw [List.reverse_cons, Trace.written_append]
    rcases written_episode episode with none | one
    · rw [none]
      exact ⟨fun vs hvs => (before vs hvs).append _, pairs⟩
    · rw [one]
      have becomes : (Visit.create id record n.name n.kind now).processing.Becomes v := by
        refine ⟨?_, fun active => ?_⟩
        · exact (same (tame n found))
        · cases active
      refine ⟨?_, List.pairwise_cons.2 ⟨fun vs hvs => (before vs hvs).append _, pairs⟩⟩
      intro vs hvs
      rcases List.mem_cons.1 hvs with rfl | hvs
      · exact .concat becomes
      · exact (before vs hvs).append _

end Definition.Chronicle

namespace Run

variable {t u : Trace} {r r' : Run} {d : Definition} {s : Settings} {run : String}
  {ok : Bool} {ms : Trace}

/-! ## The last writes -/

/-- What may be written behind the last node before the run is closed: that it is
canceled. -/
inductive Notice (r : Run) : Trace → Prop where
  /-- nothing -/
  | none : Notice r []
  /-- one write -/
  | canceled {w : Written} (status : r.record.status = .canceled) :
    Notice r [.asked (.update r.record r.visits) w]

/-- The last writes of a run: of its final record, and at most one before, that it is
canceled. -/
inductive Closing (r : Run) : Trace → Prop where
  /-- one write -/
  | last {w : Written} : Closing r [.asked (.update r.record r.visits) w]
  /-- two writes -/
  | canceled {record : RunRecord} {w w' : Written} (own : record.id = r.id)
      (extra : record.status = .canceled) (status : r.record.status = .canceled) :
    Closing r [.asked (.update r.record r.visits) w, .asked (.update record r.visits) w']

/-- The writes of a run that has ended. -/
structure Protocol (d : Definition) (policy : WritePolicy) (r : Run) (t : Trace) : Prop where
  /-- they come in order -/
  order : ∃ ms close, t.marks = close ++ ms ∧ d.Chronicle policy r.id r.trail ms ∧
    r.Closing close
  /-- the status of the last one is final -/
  terminal : r.record.status.isTerminal = true
  /-- nothing is written while a node is at work -/
  undivided : t.Undivided
  /-- each list of visits extends all that were written before -/
  extends_written : t.written.Pairwise fun later earlier => Extends earlier later

/-! ## Along the walk

The invariant between two nodes is `Chronicled`. A step adds the marks of one node to the
chronicle and either keeps the invariant, ends the walk (`Walked`), or breaks off (`Broken`).
-/

/-- The marks so far are those of the nodes that the run has visited. -/
structure Chronicled (d : Definition) (s : Settings) (run : String) (r : Run) (t : Trace) :
    Prop where
  /-- nothing was written while a node was at work -/
  undivided : t.Undivided
  /-- the marks are in order -/
  chronicle : d.Chronicle s.policy run r.trail t.marks
  /-- the run is at work -/
  status : r.record.status = .processing
  /-- it is still the same -/
  id : r.id = run
  /-- so are its settings -/
  settings : r.settings = s
  /-- if writes have to work, they did -/
  firm : s.policy = .strict → t.marks.Clean

/-- The marks where a walk has ended. -/
structure Walked (d : Definition) (s : Settings) (run : String) (ok : Bool) (r : Run)
    (t : Trace) : Prop where
  /-- nothing was written while a node was at work -/
  undivided : t.Undivided
  /-- the run is still the same -/
  id : r.id = run
  /-- the marks are in order; if no node failed and writes have to work, they did -/
  order : ∃ ms notice, t.marks = notice ++ ms ∧ d.Chronicle s.policy run r.trail ms ∧
    r.Notice notice ∧
      (ok = true → notice = [] ∧ r.trail ≠ [] ∧ (s.policy = .strict → ms.Clean))

/-- The marks of a run that ends within a node. -/
structure Broken (d : Definition) (policy : WritePolicy) (run : String) (t : Trace) : Prop where
  /-- nothing was written while a node was at work -/
  undivided : t.Undivided
  /-- the marks are in order, and the last ones are those of the node -/
  order : ∃ trail ms ns n c, t.marks = ns ++ ms ∧ d.Chronicle policy run trail ms ∧
    n ∈ d.nodes ∧ n.Creates run c ∧ Trace.Episode policy run trail.reverse c ns

variable {n : NodeSpec} {c v : Visit}

theorem Chronicled.of_marked (h : r.Chronicled d s run t) (hu : t.Marked [] u) :
    r.Chronicled d s run u := by
  have same : u.marks = t.marks := hu.marks
  exact ⟨hu.undivided h.undivided, same ▸ h.chronicle, h.status, h.id, h.settings, same ▸ h.firm⟩

/-- A look at the signal between two nodes leaves no mark. -/
theorem marked_of_looks (h : t.Looks .slow u) : t.Marked [] u := by
  obtain ⟨run, s, cs, cs', -, rfl⟩ := h
  have here : t.Marked [] (Trace.calls cs ++ .asked (.between run) () :: t) :=
    (Trace.Marked.refl.idle rfl rfl).calls cs
  exact (here.idle rfl rfl).calls cs'

/-- A walk that fails may end anywhere between two nodes. -/
theorem Chronicled.walked {notice : Trace} (h : r.Chronicled d s run t)
    (trail : r'.trail = r.trail) (id : r'.id = r.id) (marked : t.Marked notice u)
    (noticed : r'.Notice notice) : r'.Walked d s run false u :=
  ⟨marked.undivided h.undivided, id.trans h.id, t.marks, notice, marked.marks,
    trail ▸ h.chronicle, noticed, by simp⟩

/-- The marks of the next node. -/
theorem Chronicled.entered {o : Option (Course × Run)} {x : Trace} (h : r.Chronicled d s run t)
    (recorded : Recorded n r t c ms o x) :
    n.Creates run c ∧ Trace.Episode s.policy run r.trail.reverse c ms := by
  obtain ⟨id, now, created⟩ := recorded.created
  have episode := recorded.episode
  rw [h.settings, h.id] at episode
  exact ⟨⟨id, r.record, now, h.id, created⟩, episode⟩

/-- The visit of a node that has come to its end is in the chronicle. -/
theorem Chronicled.node {o : Option (Course × Run)} {x : Trace} (h : r.Chronicled d s run t)
    (found : n ∈ d.nodes) (recorded : Recorded n r t c ms o x)
    (bears : Bears n r.id r.trail c v r') (ended : v.status = .finished ∨ v.status = .error) :
    d.Chronicle s.policy run r'.trail (ms ++ t.marks) := by
  obtain ⟨created, episode⟩ := h.entered recorded
  rw [bears.trail]
  exact .node h.chronicle found created bears.same ended episode

/-- A run that goes on after a node. -/
theorem Chronicled.goesOn {course : Course} {x : Trace} (h : r.Chronicled d s run t)
    (found : n ∈ d.nodes) (recorded : Recorded n r t c ms (some (course, r')) x)
    (on : course ≠ .stop) (working : Working n r r' v)
    (ended : v.status = .finished ∨ v.status = .error) : r'.Chronicled d s run x := by
  obtain ⟨y, marked, settled⟩ := recorded.settled
  cases settled with
  | canceled => exact absurd rfl on
  | plain bears more =>
    obtain rfl := (List.cons.inj (bears.trail.symm.trans working.trail)).1
    have all := marked.trans more
    have marks : x.marks = ms ++ t.marks := all.marks
    refine ⟨all.undivided h.undivided, ?_, working.status.trans h.status, bears.id.trans h.id,
      working.settings.trans h.settings, fun strict => ?_⟩
    · rw [marks]
      exact h.node found recorded bears ended
    · rw [marks]
      rcases recorded.firm (h.settings ▸ strict) with clean | ⟨_, same⟩
      · exact Trace.clean_append.2 ⟨clean, h.firm strict⟩
      · cases same
        exact absurd rfl on

/-- A run that ends at a node. -/
theorem Chronicled.stops {x : Trace} (h : r.Chronicled d s run t) (found : n ∈ d.nodes)
    (recorded : Recorded n r t c ms (some (.stop, r')) x) (visited : Visited n r r' v)
    (ended : v.status = .finished ∨ v.status = .error) : r'.Walked d s run false x := by
  obtain ⟨y, marked, settled⟩ := recorded.settled
  suffices ∃ v' notice, Bears n r.id r.trail c v' r' ∧ y.Marked notice x ∧ r'.Notice notice by
    obtain ⟨v', notice, bears, more, noticed⟩ := this
    obtain rfl := (List.cons.inj (bears.trail.symm.trans visited.trail)).1
    have all := marked.trans more
    refine ⟨all.undivided h.undivided, bears.id.trans h.id, ms ++ t.marks, notice, ?_,
      h.node found recorded bears ended, noticed, by simp⟩
    rw [all.marks, List.append_assoc]
  cases settled with
  | plain bears more => exact ⟨_, [], bears, more, .none⟩
  | canceled bears status more => exact ⟨_, _, bears, more, .canceled status⟩

/-- Whatever one node comes to, the marks are in order. -/
theorem Chronicled.step {o : Option (Course × Run)} {x : Trace} (h : r.Chronicled d s run t)
    (found : n ∈ d.nodes) (recorded : Recorded n r t c ms o x) (stepped : Stepped .slow n r o x) :
    match o with
      | none => Broken d s.policy run x ∧ s.maxPolls.toNat + 1 = UInt32.size
      | some (.advance, r') => r'.Chronicled d s run x
      | some (.recover, r') => r'.keepError.Chronicled d s run x
      | some (.stop, r') => r'.Walked d s run false x := by
  cases stepped with
  | advanced working finished _ =>
    exact h.goesOn found recorded (by simp) working (.inl finished)
  | recovered working failed _ _ =>
    have on := h.goesOn found recorded (by simp) working (.inr failed)
    exact ⟨on.undivided, on.chronicle, on.status, on.id, on.settings, on.firm⟩
  | canceled visited failed _ _ _ => exact h.stops found recorded visited (.inr failed)
  | aborted visited failed _ _ _ _ _ => exact h.stops found recorded visited (.inr failed)
  | panicked _ most =>
    obtain ⟨y, marked, ⟨⟩ | ⟨⟩ | ⟨more⟩⟩ := recorded.settled
    obtain ⟨created, episode⟩ := h.entered recorded
    have all := marked.trans more
    exact ⟨⟨all.undivided h.undivided, r.trail, t.marks, ms, n, c, all.marks, h.chronicle, found,
      created, episode⟩, h.settings ▸ most⟩

/-- Canceling a run between two nodes changes none of its visits and leaves no mark. -/
theorem ensures_markCanceled_ended {Q : Option Run → Trace → Prop}
    (ended : ∀ v ∈ r.trail, v.isActive = false)
    (hq : ∀ r' u, t.Marked [] u → r'.trail = r.trail → r'.id = r.id →
      r'.record.status = .canceled → Q (some r') u) : r.markCanceled.Ensures .slow Q t := by
  refine plain_markCanceled.ensures_idle (ensures_markCanceled fun now u _ marked => ?_)
  exact hq _ u marked ((canceled_ended now).trail_eq ended) rfl rfl

/-- The marks are in order along the whole walk, which does not end before the first
node. -/
theorem carries_chronicled (d : Definition) (s : Settings) (run : String) :
    Carries .slow d (fun target _ r t => r.Chronicled d s run t ∧ (target = none → r.trail ≠ []))
      fun o u => match o with
      | some (ok, r) => r.Walked d s run ok u
      | none => Broken d s.policy run u ∧ s.maxPolls.toNat + 1 = UInt32.size where
  arrives := by
    rintro ok r t ⟨h, visited⟩
    refine ensures_look fun signal u looks _ _ => ?_
    have here := h.of_marked (marked_of_looks looks)
    split
    · refine ensures_bind.2 (ensures_markCanceled_ended h.chronicle.not_isActive ?_)
      exact fun r' x marked trail id _ => here.walked trail id marked .none
    · rw [if_neg (by simp [h.status])]
      exact ⟨here.undivided, here.id, u.marks, [], rfl, here.chronicle, .none,
        fun _ => ⟨rfl, visited rfl, here.firm⟩⟩
  cancels := by
    rintro target ok r t u ⟨h, -⟩ looks _
    have here := h.of_marked (marked_of_looks looks)
    refine ensures_bind.2 (ensures_markCanceled_ended h.chronicle.not_isActive ?_)
    refine fun r' x marked trail id status => ensures_bind.2 ?_
    refine ensures_saveAnyway_marked fun now w y hy => ?_
    exact here.walked trail id (marked.trans hy) (.canceled status)
  steps := by
    rintro n ok r t u ⟨h, -⟩ found looks _
    have here := h.of_marked (marked_of_looks looks)
    have inside := (Definition.node?_eq_some.1 found).1
    have calm : u.Calm .slow := fun hp => by cases hp
    refine ((ensures_recorded here.status).and (ensures_step calm)).mono ?_
    rintro o x ⟨⟨c, ms, recorded⟩, stepped⟩
    -- the writes and the outcome are told by two lemmas of the same step
    have next := here.step inside recorded stepped
    cases stepped with
    | advanced working => exact ⟨next, fun _ => by simp [working.trail]⟩
    | recovered working => exact ⟨next, fun _ => by simp [keepError, working.trail]⟩
    | canceled | aborted | panicked => exact next

/-! ## The whole run -/

/-- The marks of a run that has ended. -/
structure Closed (d : Definition) (s : Settings) (run : String) (ok : Bool) (r : Run)
    (t : Trace) : Prop where
  /-- nothing was written while a node was at work -/
  undivided : t.Undivided
  /-- the run is still the same -/
  id : r.id = run
  /-- its status is final -/
  terminal : r.record.status.isTerminal = true
  /-- the marks are in order; if no node failed and writes have to work, all but the last one
  did -/
  order : ∃ ms close, t.marks = close ++ ms ∧ d.Chronicle s.policy run r.trail ms ∧
    r.Closing close ∧ (ok = true → (∃ w, close = [.asked (.update r.record r.visits) w]) ∧
      r.trail ≠ [] ∧ (s.policy = .strict → ms.Clean))

/-- The last mark is the write of the run as it has ended. -/
theorem Closed.exists_last (h : r.Closed d s run ok t) :
    ∃ w rest, t.marks = .asked (.update r.record r.visits) w :: rest := by
  obtain ⟨ms, close, marks, -, closing, -⟩ := h.order
  cases closing with
  | last | canceled => exact ⟨_, _, marks⟩

/-- What closing a run makes of it. -/
structure Completed (r r' : Run) : Prop where
  /-- it is still the same -/
  id : r'.id = r.id
  /-- its status is final -/
  terminal : r'.record.status.isTerminal = true
  /-- if it is canceled, it stays so -/
  canceled : r.record.status = .canceled → r'.record.status = .canceled
  /-- if its visits have ended, they stay as they are -/
  trail : (∀ v ∈ r.trail, v.isActive = false) → r'.trail = r.trail

theorem completed_complete (r : Run) (ok : Bool) : r.Completed (r.complete ok) := by
  rw [complete]
  split
  · next canceled => exact ⟨rfl, by rw [canceled]; rfl, fun _ => canceled, fun _ => rfl⟩
  · next other =>
    exact ⟨rfl, by cases ok <;> rfl, fun canceled => absurd canceled other, fun _ => rfl⟩

theorem Completed.stamped {now : Instant} (h : r.Completed r') : r.Completed (r'.stamped now) :=
  ⟨h.id, h.terminal, h.canceled, h.trail⟩

/-- Closing a run leaves one mark, of the run as it has ended. -/
theorem ensures_close_marked : (r.close ok).Ensures .slow (fun o u => ∃ r' w, o = some (ok, r') ∧
    r.Completed r' ∧ t.Marked [.asked (.update r'.record r'.visits) w] u) t := by
  refine ensures_asked.2 fun signal t₁ h₁ => ?_
  have looked : t.Marked [] t₁ := h₁.idle rfl rfl
  dsimp only
  split
  · refine ensures_bind.2 (plain_markCanceled.ensures_idle (ensures_markCanceled ?_))
    refine fun now x _ marked => ensures_bind.2 (ensures_saveAnyway_marked fun now' w u hu => ?_)
    have completed := completed_complete
      (r.ended (.canceled t₁.signal.reason) .canceled now) ok
    refine ⟨_, w, rfl, .stamped ⟨completed.id, completed.terminal, ?_, ?_⟩,
      (looked.trans marked).trans hu⟩
    · exact fun _ => completed.canceled rfl
    · exact fun ended => complete_trail.trans ((canceled_ended now).trail_eq ended)
  · refine ensures_bind.2 ((ensures_done r).2 (ensures_bind.2 ?_))
    refine ensures_saveAnyway_marked fun now w u hu => ?_
    exact ⟨_, w, rfl, (completed_complete r ok).stamped, looked.trans hu⟩

/-- The last write closes what the walk has left. -/
theorem Walked.closed {w : Written} (h : r.Walked d s run ok t) (completed : r.Completed r')
    (marked : t.Marked [.asked (.update r'.record r'.visits) w] u) :
    r'.Closed d s run ok u := by
  obtain ⟨ms, notice, marks, chronicle, noticed, firm⟩ := h.order
  have trail := completed.trail chronicle.not_isActive
  have all : u.marks = .asked (.update r'.record r'.visits) w :: notice ++ ms := by
    rw [marked.marks, marks]
    rfl
  have visits : r.visits = r'.visits := by rw [Run.visits, ← trail, Run.visits]
  refine ⟨marked.undivided h.undivided, completed.id.trans h.id, completed.terminal, ms, _, all,
    trail ▸ chronicle, ?_, fun success => ?_⟩
  · cases noticed with
    | none => exact .last
    | canceled status =>
      rw [visits]
      exact .canceled completed.id.symm status (completed.canceled status)
  · obtain ⟨rfl, visited, clean⟩ := firm success
    exact ⟨⟨w, rfl⟩, trail ▸ visited, clean⟩

/-- The marks of every run are in order. -/
theorem ensures_closed (pace : Pace) (before : List SignalCall) (fresh : r.trail = []) :
    r.start.Ensures pace (fun o u => match o with
      | some (ok, r') => r'.Closed r.definition r.settings r.id ok u
      | none => Broken r.definition r.settings.policy r.id u ∧
          r.settings.maxPolls.toNat + 1 = UInt32.size) (.calls before) := by
  refine Ensures.of_slow (ensures_bind.2 (Ensures.mono (Carries.ensures_walk
    (carries_chronicled r.definition r.settings r.id) (List.suffix_refl _) ?_ ?_) ?_))
  · rintro _ ⟨⟩
    exact r.definition.hasStart
  · refine ⟨⟨Trace.undivided_calls before, ?_, rfl, rfl, rfl, fun _ => ?_⟩, by simp⟩
    · simpa [withStatus, fresh] using .start
    · simp [Trace.Clean]
  · rintro (_ | ⟨ok, r'⟩) u hu
    · exact hu
    · refine ensures_close_marked.mono ?_
      rintro _ x ⟨r'', w, rfl, completed, marked⟩
      exact hu.closed completed marked

/-! ## The protocol -/

/-- Lists of visits are extended until the last write. -/
theorem Closed.protocol (h : r.Closed d s run ok t) (tame : ∀ n ∈ d.nodes, n.Tame) :
    r.Protocol d s.policy t := by
  obtain ⟨ms, close, marks, chronicle, closing, -⟩ := h.order
  refine ⟨⟨ms, close, marks, h.id ▸ chronicle, closing⟩, h.terminal, h.undivided, ?_⟩
  obtain ⟨before, pairs⟩ := chronicle.extends_written tame
  have last : ∀ vs ∈ ms.written, Extends vs r.visits := before
  rw [← Trace.written_marks, marks, Trace.written_append]
  cases closing with
  | last => exact List.pairwise_cons.2 ⟨last, pairs⟩
  | canceled =>
    refine List.pairwise_cons.2 ⟨?_, List.pairwise_cons.2 ⟨last, pairs⟩⟩
    exact List.forall_mem_cons.2 ⟨.refl _, last⟩

/-- Whatever happens around a run, and whether or not the store is prompt, its writes
follow the protocol. If a node is polled more often than can be counted, the run breaks
off there, and nothing is written any more. -/
theorem protocol_of_start (pace : Pace) (before : List SignalCall) (fresh : r.trail = [])
    (tame : ∀ n ∈ r.definition.nodes, n.Tame) :
    ∀ o u, r.start.Ends pace (.calls before) o u → match o with
      | some (_, r') => r'.Protocol r.definition r.settings.policy u
      | none => Broken r.definition r.settings.policy r.id u ∧
          r.settings.maxPolls.toNat + 1 = UInt32.size := by
  intro o u h
  have closed := ensures_iff.1 (ensures_closed pace before fresh) o u h
  rcases o with _ | ⟨ok, r'⟩
  · exact closed
  · exact closed.protocol tame

/-- The writes of a run that takes a bypass: two for each of its two visits, and the last one. -/
theorem bypass_protocol : ∃ ok r' u, bypass.start.Ends .slow (.calls []) (some (ok, r')) u ∧
    r'.visits.map Visit.name = [startName, "lane"] ∧ u.countP Incident.isWrite = 5 ∧
    r'.Protocol .bypass .bestEffort u := by
  obtain ⟨r', ended, visits⟩ := exists_easily_bypass
  have tame (n : NodeSpec) (hn : n ∈ bypass.definition.nodes) : n.Tame :=
    (Definition.bypass_modest n hn).tame
  have ends := ends_easily .slow ended
  have names : r'.visits.map Visit.name = [startName, "lane"] := by
    simpa [Function.comp_def] using congrArg (List.map Prod.fst) visits
  exact ⟨false, r', _, ends, names, by decide +kernel, protocol_of_start .slow [] rfl tame _ _ ends⟩

end Run

end Runbook
