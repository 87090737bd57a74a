import Runbook.Proofs.Serving

/-!
# Looking at a run while it is at work

What the store in memory has of a run wherever that is suspended, if every write has
worked, and in the end.

* `Program.AtWork` — places where a program is suspended: it waits, or what its
  executor or its polling has asked for is not there yet.
* `Trace.Begun` — the marks at such a place: the executor of a node has begun, and the
  run was written with that node at work just before.
* `Program.Inspected` — what is stored there.
* `Run.inspected_of_start` — so it is at every such place of every run.
-/

namespace Runbook

open Program

/-! ## Places at work -/

/-- The program is suspended: it waits, or has asked something that belongs to the work of a
node. -/
def Program.AtWork {α : Type} : Program α → Prop
  | .pause .. => True
  | .ask r _ => r.isWork = true
  | _ => False

/-- There an executor has begun. -/
theorem Program.AtWork.occupied {α : Type} {pace : Pace} {q : Program α} {u : Trace}
    (h : q.AtWork) (undivided : q.Ensures pace (fun _ x => x.Undivided) u) :
    u.occupied = true := by
  obtain ⟨o, x, ends⟩ := exists_ends pace q u
  have whole := ensures_iff.1 undivided o x ends
  cases q with
  | done a => exact h.elim
  | panic => exact h.elim
  | ask r next =>
    obtain ⟨answer, v, ⟨cs, -, -, rfl⟩, ends⟩ := ends_ask.1 ends
    exact whole _ u ((List.suffix_append _ _).trans ends.suffix) h
  | pause p next =>
    obtain ⟨w, v, ⟨-, y, cs, -, rfl, ⟨-, rfl⟩ | ⟨cs', -, rfl⟩⟩, ends⟩ := ends_pause.1 ends
    · exact whole _ u ((List.suffix_append _ _).trans ends.suffix) rfl
    · have waits : .waits p :: u <:+ .woke w :: Trace.calls cs' ++ .waits p :: u :=
        List.suffix_append _ _
      exact whole _ u (waits.trans ((List.suffix_append _ _).trans ends.suffix)) rfl

/-- Whether a program waits where a host has left it. -/
def Standing.waits {α : Type} : Standing α → Bool
  | .waiting .. => true
  | _ => false

/-- There it is at work. -/
theorem Standing.Of.atWork {α : Type} {q : Program α} {s : Standing α} (h : s.Of q)
    (waits : s.waits = true) : q.AtWork := by
  cases s with
  | waiting p next =>
    obtain ⟨p', rfl, -⟩ := h
    trivial
  | _ => cases waits

namespace Trace

variable {ms ns rest : Trace} {e : Incident} {run : String} {front front' earlier : List Visit}
  {c v v' : Visit} {policy : WritePolicy}

/-! ## Marks at such places

Nothing is written while a node is at work, so the latest mark there is the start of an
executor. The chronicle says which one, and what was written just before. -/

/-- The executor of a node has begun with its visit `v`, and the run was written just before,
with that visit behind the earlier ones and with the context that the executor got. -/
def Begun (run : String) (front : List Visit) (v : Visit) (ms : Trace) : Prop :=
  ∃ record context w rest, ms = .asked (.atWork run ⟨v, context⟩) () ::
      .asked (.update record (front ++ [v])) w :: rest ∧
    record.id = run ∧ record.status = .processing ∧ record.context = context.snapshot

/-- The marks tell which visits these are. -/
theorem Begun.unique (h : Begun run front v ms) (h' : Begun run front' v' ms) :
    front' = front ∧ v' = v := by
  obtain ⟨record, context, w, rest, rfl, -⟩ := h
  obtain ⟨record', context', w', rest', same, -⟩ := h'
  injection same with start more
  injection more with update
  injection update with update
  injection update with _ visits
  have := List.append_inj' visits rfl
  exact ⟨this.1.symm, (List.cons.inj this.2).1.symm⟩

/-- Where a node is at work, the latest mark is its start. -/
theorem exists_start {t : Trace} (h : t.occupied = true) :
    ∃ e rest, t.marks = e :: rest ∧ e.isStart = true := by
  rw [occupied] at h
  cases marks : t.marks with
  | nil => simp [marks] at h
  | cons e rest => exact ⟨e, rest, rfl, by simpa [marks] using h⟩

/-- If every write has worked, the run is stored as it was written last. -/
theorem Begun.kept {d : RunDetail} {ids : List String} (h : Begun run front v ms)
    (empty : d.visits = []) (listing : ms.Listing run ids) (fresh : ms.Fresh d)
    (clean : ms.Clean) : ∃ record context, ms.kept d = ⟨record, front ++ [v], []⟩ ∧
      ms.entered = (front ++ [v]).map Visit.id ∧ record.status = .processing ∧
      ms.head? = some (.asked (.atWork run ⟨v, context⟩) ()) ∧
      record.context = context.snapshot := by
  obtain ⟨record, context, w, rest, rfl, -, status, snapshot⟩ := h
  refine ⟨record, context, ?_, listing.lists.1.symm, status, rfl, snapshot⟩
  exact (listing.of_suffix (List.suffix_cons _ _)).kept_update empty (fresh_cons.1 fresh).2
    (clean_cons.1 clean).2

/-- A start is not among the marks of another kind. -/
theorem start_suffix {e' : Incident} (start : e.isStart = true) (other : e'.isStart = false)
    (h : e :: rest <:+ e' :: ms) : e :: rest <:+ ms := by
  refine (List.suffix_cons_iff.1 h).resolve_left fun same => ?_
  rw [(List.cons.inj same).1, other] at start
  cases start

/-- A start belongs to the latest node or to an earlier one. -/
theorem Episode.begun_of_start (h : Episode policy run earlier c ns) (start : e.isStart = true)
    (hs : e :: rest <:+ ns ++ ms) : Begun run earlier c.processing (e :: rest) ∨
      e :: rest <:+ ms := by
  cases h with
  | lost => exact .inr (start_suffix start rfl hs)
  | idle => exact .inr (start_suffix start rfl (start_suffix start rfl hs))
  | begun own status snapshot =>
    rcases List.suffix_cons_iff.1 hs with same | hs
    · exact .inl ⟨_, _, _, _, same, own, status, snapshot⟩
    · exact .inr (start_suffix start rfl (start_suffix start rfl hs))

end Trace

section

variable {d : Definition} {policy : WritePolicy} {run : String} {trail : List Visit}
  {ms rest t : Trace} {e : Incident}

/-- Every start among the marks of a run is that of a visit, which follows the earlier ones in
the end, too. -/
theorem Definition.Chronicle.begun_of_start (h : d.Chronicle policy run trail ms)
    (tame : ∀ n ∈ d.nodes, n.Tame) (start : e.isStart = true) (hs : e :: rest <:+ ms) :
    ∃ front v w back, trail.reverse = front ++ w :: back ∧ v.Same w ∧ v.status = .processing ∧
      Trace.Begun run front v (e :: rest) := by
  induction h with
  | start => simpa using hs.length_le
  | @node trail ms ns n c v _ found _ same _ episode ih =>
    rw [List.reverse_cons]
    rcases episode.begun_of_start start hs with begun | earlier
    · exact ⟨trail.reverse, c.processing, v, [], rfl, same (tame n found), rfl, begun⟩
    · obtain ⟨front, u, w, back, order, rest⟩ := ih earlier
      exact ⟨front, u, w, back ++ [v], by simp [order], rest⟩

namespace Run

variable {r : Run} {s : Settings} {ok : Bool}

theorem Closed.begun_of_start (h : r.Closed d s run ok t) (tame : ∀ n ∈ d.nodes, n.Tame)
    (start : e.isStart = true) (hs : e :: rest <:+ t.marks) :
    ∃ front v w back, r.visits = front ++ w :: back ∧ v.Same w ∧ v.status = .processing ∧
      Trace.Begun run front v (e :: rest) := by
  obtain ⟨ms, close, marks, chronicle, closing, -⟩ := h.order
  rw [marks] at hs
  refine chronicle.begun_of_start tame start ?_
  cases closing with
  | last => exact Trace.start_suffix start rfl hs
  | canceled => exact Trace.start_suffix start rfl (Trace.start_suffix start rfl hs)

/-- What the marks of a run say, whether or not it ends with a value. -/
structure Regular (run : String) (t : Trace) : Prop where
  /-- nothing is written while a node is at work -/
  undivided : t.Undivided
  /-- the updates list what was entered -/
  listing : ∃ ids, t.marks.Listing run ids
  /-- an executor begins when the run has been written with its node at work -/
  begun {e : Incident} {rest : Trace} (start : e.isStart = true) (hs : e :: rest <:+ t.marks) :
    ∃ front v, v.status = .processing ∧ Trace.Begun run front v (e :: rest)

/-- The visits with which a run ends begin with those that it had where an executor began. -/
theorem Closed.extends_begun {front : List Visit} {v : Visit} {ms : Trace}
    (h : r.Closed d s run ok t) (tame : ∀ n ∈ d.nodes, n.Tame) (begun : Trace.Begun run front v ms)
    (hs : ms <:+ t.marks) : ∃ w back, r.visits = front ++ w :: back ∧ v.Same w := by
  have ⟨_, _, _, _, marks, _⟩ := begun
  subst marks
  obtain ⟨front', v', w', back, visits, same, -, begun'⟩ := h.begun_of_start tame rfl hs
  obtain ⟨rfl, rfl⟩ := begun.unique begun'
  exact ⟨w', back, visits, same⟩

theorem Closed.regular (h : r.Closed d s run ok t) (tame : ∀ n ∈ d.nodes, n.Tame) :
    Regular run t where
  undivided := h.undivided
  listing := ⟨_, h.listing tame⟩
  begun start hs := by
    obtain ⟨front, v, w, back, -, -, processing, begun⟩ := h.begun_of_start tame start hs
    exact ⟨front, v, processing, begun⟩

theorem Broken.regular (h : Broken d policy run t) (tame : ∀ n ∈ d.nodes, n.Tame) :
    Regular run t := by
  obtain ⟨trail, ms, ns, n, c, marks, chronicle, -, created, episode⟩ := h.order
  refine ⟨h.undivided, ?_, fun start hs => ?_⟩
  · rw [marks]
    exact ⟨_, episode.listing created.parentId (chronicle.listing tame)⟩
  · rw [marks] at hs
    rcases episode.begun_of_start start hs with begun | earlier
    · exact ⟨_, _, rfl, begun⟩
    · obtain ⟨front, v, w, back, -, -, processing, begun⟩ :=
        chronicle.begun_of_start tame start earlier
      exact ⟨front, v, processing, begun⟩

/-- The marks of every run say that. -/
theorem ensures_regular (pace : Pace) (before : List SignalCall) (fresh : r.trail = [])
    (tame : ∀ n ∈ r.definition.nodes, n.Tame) :
    r.start.Ensures pace (fun _ u => Regular r.id u) (.calls before) := by
  refine (ensures_closed pace before fresh).mono ?_
  rintro (_ | ⟨ok, r'⟩) u h
  · exact h.1.regular tame
  · exact h.regular tame

/-- So the marks where a run is at work are those of a node. -/
theorem exists_begun {pace : Pace} {q : Program (Bool × Run)} {u : Trace} (atWork : q.AtWork)
    (regular : q.Ensures pace (fun _ x => Regular run x) u) :
    ∃ front v, v.status = .processing ∧ Trace.Begun run front v u.marks ∧
      u.marks.Listing run u.marks.entered := by
  obtain ⟨e, rest, marks, start⟩ :=
    Trace.exists_start (atWork.occupied (regular.mono fun _ _ h => h.undivided))
  obtain ⟨o, x, ends⟩ := exists_ends pace q u
  have whole := ensures_iff.1 regular o x ends
  have within : u.marks <:+ x.marks := ends.suffix.filter _
  obtain ⟨front, v, processing, begun⟩ := whole.begun start (marks ▸ within)
  obtain ⟨ids, listing⟩ := whole.listing
  exact ⟨front, v, processing, marks ▸ begun, listing.of_suffix within⟩

end Run

end

/-! ## What is stored there -/

/-- What is stored of the run of that ID, where the program is at work after the trace. -/
structure Program.Inspected (pace : Pace) (q : Program (Bool × Run)) (run : String) (u : Trace)
    (detail : RunDetail) : Prop where
  /-- the run is at work -/
  status : detail.run.status = .processing
  /-- exactly the visits that were entered are stored, in order -/
  entered : detail.visits.map Visit.id = u.entered
  /-- the last one is at work, with the context that was stored; the other ones are those with
  which the run ends, however it goes on -/
  visits : ∃ front v context, detail.visits = front ++ [v] ∧ v.status = .processing ∧
    u.marks.head? = some (.asked (.atWork run ⟨v, context⟩) ()) ∧
    detail.run.context = context.snapshot ∧
    ∀ ok r' x, q.Ends pace u (some (ok, r')) x → ∃ w back, r'.visits = front ++ w :: back ∧
      v.Same w

namespace Run

variable {r : Run} {m₀ : Memory} {record : RunRecord}

/-- If every write has worked, the store in memory shows a run that is at work as it is, and
a run that has ended as it has. -/
theorem inspected_of_start (pace : Pace) (before : List SignalCall) (fresh : r.trail = [])
    (tame : ∀ n ∈ r.definition.nodes, n.Tame) (stored : m₀.detail r.id = some ⟨record, [], []⟩) :
    (∀ q u m, r.start.Leads pace (.calls before) q u → q.AtWork → m₀.Serves r.id u m → u.Clean →
      ∃ detail, m.detail r.id = some detail ∧ q.Inspected pace r.id u detail) ∧
    ∀ ok r' u m, r.start.Ends pace (.calls before) (some (ok, r')) u → m₀.Serves r.id u m →
      u.Clean → m.detail r.id = some ⟨r'.record, r'.visits, []⟩ := by
  constructor
  · intro q u m leads atWork serves clean
    have closed := (ensures_closed pace before fresh).of_leads leads
    obtain ⟨front, v, processing, begun, listing⟩ :=
      exists_begun atWork ((ensures_regular pace before fresh tame).of_leads leads)
    obtain ⟨detail, freshly⟩ := serves.marks.detail_eq stored listing.own
    obtain ⟨record', context, kept, entered, status, head, snapshot⟩ :=
      begun.kept rfl listing freshly (Trace.clean_marks.2 clean)
    rw [kept] at detail
    refine ⟨_, detail, status, entered.symm.trans u.entered_marks, front, v, context, rfl,
      processing, head, snapshot, fun ok r' x ends => ?_⟩
    exact (ensures_iff.1 closed _ x ends).extends_begun tame begun (ends.suffix.filter _)
  · intro ok r' u m ends serves clean
    have closed := ensures_iff.1 (ensures_closed pace before fresh) _ u ends
    exact closed.detail tame stored serves clean

theorem vigil_inspected : (∃ q u, ∃ m : Memory, vigil.start.Leads .prompt (.calls []) q u ∧
      q.AtWork ∧ ∃ detail, m.detail vigil.id = some detail ∧
        q.Inspected .prompt vigil.id u detail) ∧
    ∃ ok r' u, ∃ m : Memory, (pair .strict).start.Ends .prompt (.calls []) (some (ok, r')) u ∧
      m.detail (pair .strict).id = some ⟨r'.record, r'.visits, []⟩ := by
  constructor
  · obtain ⟨q, u, leads, stands, serves, writes⟩ := Host.serves_execute vigil []
    have atWork : q.AtWork := stands.atWork (by decide +kernel)
    have clean : u.Clean := by
      rw [← Trace.clean_writes, writes]
      decide +kernel
    have tame (n : NodeSpec) (hn : n ∈ vigil.definition.nodes) : n.Tame :=
      (Definition.vigil_modest n hn).tame
    exact ⟨q, u, _, leads, atWork, (inspected_of_start .prompt [] rfl tame
      (Host.detail_holding vigil [])).1 q u _ leads atWork serves clean⟩
  · obtain ⟨ok, r', ended⟩ :
        ∃ ok r', (Host.execute (pair .strict) []).1 = .ended (ok, r') := ⟨_, _, rfl⟩
    obtain ⟨u, ends, serves, writes⟩ := Host.ends_execute ended
    have clean : u.Clean := by
      rw [← Trace.clean_writes, writes]
      decide +kernel
    exact ⟨ok, r', u, _, ends, (inspected_of_start .prompt [] rfl Definition.pair_tame
      (Host.detail_holding (pair .strict) [])).2 ok r' u _ ends serves clean⟩

end Run

end Runbook
