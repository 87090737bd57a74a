import Runbook.Proofs.Outcome
import Runbook.Proofs.Serving

/-!
# What stays stored when writes fail

What the store in memory has of a run that has ended, although writes of it may have
failed.

* `Run.stored_of_start` — if the last write has worked, then all visits are stored. They
  come in order exactly if no visit was created over one that was not stored then.
* `Run.durable_of_start` — if writes have to work and no node has failed, then all writes
  have worked, except perhaps the last one. The run is stored as it has ended, or else as
  it was at its last node.
-/

namespace Runbook

open Program

namespace Trace

variable {ms ns : Trace} {earlier : List Visit} {c : Visit} {policy : WritePolicy} {run : String}
  {ids : List String} {d : RunDetail}

/-- The last write is a mark. -/
theorem lastWrite?_marks (t : Trace) : t.marks.lastWrite? = t.lastWrite? := by
  rw [lastWrite?, lastWrite?, marks, List.find?_filter]
  congr 1
  funext e
  cases write : e.isWrite with
  | false => simp
  | true => simp [isMark_of_isWrite write]

/-- If every write has worked, a node is stored at work, whether or not its executor began. -/
theorem Episode.kept (h : Episode policy run earlier c ns) (empty : d.visits = [])
    (listing : (ns ++ ms).Listing run ids) (fresh : (ns ++ ms).Fresh d)
    (clean : (ns ++ ms).Clean) :
    ∃ record, (ns ++ ms).kept d = ⟨record, earlier ++ [c.processing], []⟩ ∧
      record.status = .processing := by
  cases h with
  | lost => exact absurd (clean_cons.1 clean).1 (by simp [Incident.isFailedWrite])
  | idle own status => exact ⟨_, listing.kept_update empty fresh clean, status⟩
  | begun own status =>
    refine ⟨_, ?_, status⟩
    exact (listing.of_suffix (List.suffix_cons _ _)).kept_update empty (fresh_cons.1 fresh).2
      (clean_cons.1 clean).2

end Trace

/-- If every write of a walk has worked, the run is stored as it was at its last node. -/
theorem Definition.Chronicle.kept_last {procedure : Definition} {policy : WritePolicy}
    {run : String} {trail : List Visit} {ms : Trace} {ids : List String} {d : RunDetail}
    (h : procedure.Chronicle policy run trail ms) (tame : ∀ n ∈ procedure.nodes, n.Tame)
    (visited : trail ≠ []) (empty : d.visits = []) (listing : ms.Listing run ids)
    (fresh : ms.Fresh d) (clean : ms.Clean) : ∃ record front v last,
      ms.kept d = ⟨record, front ++ [v], []⟩ ∧ record.status = .processing ∧
      v.status = .processing ∧ trail.reverse = front ++ [last] ∧ v.Same last := by
  cases h with
  | start => exact absurd rfl visited
  | @node trail ms ns n c v _ found _ same _ episode =>
    obtain ⟨record, kept, status⟩ := episode.kept empty listing fresh clean
    exact ⟨record, trail.reverse, c.processing, v, kept, status, rfl, List.reverse_cons,
      same (tame n found)⟩

namespace Run

variable {r : Run} {m₀ : Memory} {record : RunRecord}

/-! ## The order of what is stored -/

/-- If the last write has worked, the run is stored as it has ended, with all its visits. They
are in order exactly if no visit was created over one that was not stored then. -/
theorem stored_of_start (pace : Pace) (before : List SignalCall) (fresh : r.trail = [])
    (tame : ∀ n ∈ r.definition.nodes, n.Tame) (stored : m₀.detail r.id = some ⟨record, [], []⟩) :
    ∀ ok r' u m, r.start.Ends pace (.calls before) (some (ok, r')) u → m₀.Serves r.id u m →
      (r'.visits.map Visit.id).Nodup →
      u.lastWrite? = some (.asked (.update r'.record r'.visits) (.ok ())) →
      ∃ vs, m.detail r.id = some ⟨r'.record, vs, []⟩ ∧ vs.Perm r'.visits ∧
        (vs = r'.visits ↔ u.marks.Gapless) := by
  intro ok r' u m ends serves distinct worked
  have closed := ensures_iff.1 (ensures_closed pace before fresh) _ u ends
  have listing := closed.listing tame
  obtain ⟨detail, -⟩ := serves.marks.detail_eq stored listing.own
  -- the last write is the latest mark
  obtain ⟨w, rest, marks⟩ := closed.exists_last
  rw [← Trace.lastWrite?_marks, marks] at worked
  obtain rfl : w = .ok () := by simpa [Trace.lastWrite?, Incident.isWrite] using worked
  rw [marks] at detail listing ⊢
  obtain ⟨listed, lists⟩ := listing.lists
  have empty : (⟨record, [], []⟩ : RunDetail).visits = [] := rfl
  obtain ⟨known, once⟩ := Trace.keptIds_subset empty lists (listed ▸ distinct)
  -- what was stored before is a part of what is written now
  have perm := Memory.foldl_upsertVisit_perm distinct (listed ▸ known) once
  refine ⟨_, detail, perm, ?_⟩
  rw [Memory.foldl_upsertVisit_eq_iff distinct (listed ▸ known)]
  constructor
  · intro same
    exact Trace.gapless_of_eq empty (listing.entered ▸ distinct) (same.trans listing.entered.symm)
  · intro gapless
    have start := Trace.keptIds_prefix empty listing.lists (listing.entered ▸ distinct) gapless
    rw [listing.entered] at start
    refine start.eq_of_length ((List.length_map _).trans ?_)
    rw [List.length_map]
    exact perm.length_eq

/-- The first visit can neither be created, nor be written with the first update. -/
def firstFails : Faults := [(.createVisit, ⟨0, some 1⟩), (.update, ⟨0, some 1⟩)]

/-- The store creates the second visit then, and has the visits the other way round in the
end. -/
theorem pair_stored : ∃ r' u, ∃ m : Memory, ∃ vs,
    (pair .bestEffort).start.Ends .prompt (.calls []) (some (true, r')) u ∧
    m.detail (pair .bestEffort).id = some ⟨r'.record, vs, []⟩ ∧ vs.Perm r'.visits ∧
    ¬ u.marks.Gapless ∧ vs ≠ r'.visits := by
  obtain ⟨r', ended, last, ids⟩ : ∃ r',
      (Host.execute (pair .bestEffort) firstFails).1 = .ended (true, r') ∧
      (Host.execute (pair .bestEffort) firstFails).2.noted.head? =
        some (.asked (.update r'.record r'.visits) (.ok ())) ∧
      r'.visits.map Visit.id = [Host.visitId 1, Host.visitId 2] := ⟨_, rfl, rfl, rfl⟩
  obtain ⟨u, ends, serves, writes⟩ := Host.ends_execute ended
  have saved : u.lastWrite? = some (.asked (.update r'.record r'.visits) (.ok ())) := by
    rw [← last, ← writes]
    exact List.head?_filter.symm
  have distinct : (r'.visits.map Visit.id).Nodup := by
    rw [ids]
    decide
  obtain ⟨vs, detail, perm, ordered⟩ := stored_of_start .prompt [] rfl Definition.pair_tame
    (Host.detail_holding (pair .bestEffort) firstFails) true r' u _ ends serves distinct saved
  have turned : ((Host.execute (pair .bestEffort) firstFails).2.store.detail
    (pair .bestEffort).id).map (fun d => d.visits.map Visit.id) =
      some [Host.visitId 2, Host.visitId 1] := rfl
  have ne : vs ≠ r'.visits := by
    rintro rfl
    rw [detail, Option.map_some, ids] at turned
    exact absurd turned (by decide)
  exact ⟨r', u, _, vs, ends, detail, perm, fun gapless => ne (ordered.2 gapless), ne⟩

/-! ## Writes that have to work -/

/-- A run that ends well is finished. -/
theorem ensures_finished (before : List SignalCall) (fresh : r.trail = [])
    (errorless : r.lastError = none) : r.start.Ensures .prompt (fun o _ => match o with
      | some (ok, r') => ok = true → r'.record.status = .finished
      | none => True) (.calls before) := by
  refine ((ensures_fate before fresh errorless).and (ensures_obeys before)).mono ?_
  rintro (_ | ⟨ok, r'⟩) u ⟨fate, -, obeys⟩
  · trivial
  · rintro rfl
    have quiet : u.signal.fired = false := by
      cases fired : u.signal.fired with
      | false => rfl
      | true =>
        obtain ⟨_, ⟨⟩, -⟩ := obeys fired
    obtain ⟨f, hf⟩ := fate quiet
    cases f with
    | clean => exact hf.2.2.2.1
    | failed => cases hf.2.2.1
    | canceled => cases hf.2.1

/-- If writes have to work and no node has failed, then all writes have worked but perhaps the
last one. If that has, too, the run is stored as it has ended; if not, the store still has it
at work at its last node. -/
theorem durable_of_start (pace : Pace) (before : List SignalCall) (fresh : r.trail = [])
    (errorless : r.lastError = none) (strict : r.settings.policy = .strict) :
    ∀ r' u, r.start.Ends pace (.calls before) (some (true, r')) u →
      (pace = .prompt → r'.record.status = .finished) ∧
      ∃ w earlier, u.marks = .asked (.update r'.record r'.visits) w :: earlier ∧
        Trace.Clean earlier ∧
        ((∀ n ∈ r.definition.nodes, n.Tame) → ∀ (m₀ m : Memory) record,
          m₀.detail r.id = some ⟨record, [], []⟩ → m₀.Serves r.id u m →
          (w = .ok () → m.detail r.id = some ⟨r'.record, r'.visits, []⟩) ∧
          (w ≠ .ok () → ∃ record' front v last,
            m.detail r.id = some ⟨record', front ++ [v], []⟩ ∧ record'.status = .processing ∧
            v.status = .processing ∧ r'.visits = front ++ [last] ∧ v.Same last)) := by
  intro r' u ends
  have closed := ensures_iff.1 (ensures_closed pace before fresh) _ u ends
  obtain ⟨ms, _, marks, chronicle, -, success⟩ := closed.order
  obtain ⟨⟨w, rfl⟩, visited, worked⟩ := success rfl
  have clean := worked strict
  rw [List.singleton_append] at marks
  -- the last mark is the write of the end; all earlier ones have worked, as the policy is strict
  refine ⟨?_, w, ms, marks, clean, fun tame m₀ m record stored serves => ?_⟩
  · rintro rfl
    exact ensures_iff.1 (ensures_finished before fresh errorless) _ u ends rfl
  constructor
  · rintro rfl
    refine closed.detail tame stored serves (Trace.clean_marks.1 ?_)
    rw [marks]
    exact Trace.clean_cons.2 ⟨rfl, clean⟩
  · intro failed
    have listing := closed.listing tame
    obtain ⟨detail, freshly⟩ := serves.marks.detail_eq stored listing.own
    rw [marks] at detail listing freshly
    -- the write of the end has failed, so what is stored is what the ones before have left
    have unchanged : Incident.isFailedWrite (.asked (.update r'.record r'.visits) w) = true := by
      cases w with
      | ok => exact absurd rfl failed
      | error e => rfl
    rw [Trace.kept_cons (.inr unchanged)] at detail
    obtain ⟨record', front, v, last, kept, more⟩ := chronicle.kept_last tame visited rfl
      (listing.of_suffix (List.suffix_cons _ _)) (Trace.fresh_cons.1 freshly).2 clean
    exact ⟨record', front, v, last, kept ▸ detail, more⟩

/-- The last write of a run may fail, although writes have to work. -/
theorem pair_durable : ∃ r' u, ∃ m : Memory, ∃ record front v last w earlier,
    (pair .strict).start.Ends .prompt (.calls []) (some (true, r')) u ∧
    r'.record.status = .finished ∧
    u.marks = .asked (.update r'.record r'.visits) w :: earlier ∧ Trace.Clean earlier ∧
    m.detail (pair .strict).id = some ⟨record, front ++ [v], []⟩ ∧ record.status = .processing ∧
    v.status = .processing ∧ r'.visits = front ++ [last] := by
  obtain ⟨r', ended⟩ :
      ∃ r', (Host.execute (pair .strict) [(.update, ⟨2, some 1⟩)]).1 = .ended (true, r') := ⟨_, rfl⟩
  obtain ⟨u, ends, serves, writes⟩ := Host.ends_execute ended
  obtain ⟨finished, w, earlier, marks, clean, stored⟩ :=
    durable_of_start .prompt [] rfl rfl rfl r' u ends
  obtain ⟨-, failed⟩ := stored Definition.pair_tame _ _ _
    (Host.detail_holding (pair .strict) [(.update, ⟨2, some 1⟩)]) serves
  have dirty : ¬ u.Clean := by
    rw [← Trace.clean_writes, writes]
    decide +kernel
  have lost : w ≠ .ok () := by
    rintro rfl
    refine dirty (Trace.clean_marks.1 ?_)
    rw [marks]
    exact Trace.clean_cons.2 ⟨rfl, clean⟩
  obtain ⟨record, front, v, last, detail, processing, atWork, visits, -⟩ := failed lost
  exact ⟨r', u, _, record, front, v, last, w, earlier, ends, finished rfl, marks, clean, detail,
    processing, atWork, visits⟩

end Run

end Runbook
