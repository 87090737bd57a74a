import Runbook.Proofs.Conduct
import Runbook.Proofs.Crowd
import Runbook.Proofs.Restart
import Runbook.Proofs.Veil

/-!
# What runs share at a host

Runs that keep to themselves do not notice each other at their host.

* `Conduct.own` — what a run may do that keeps to itself: its executors touch their own visit,
  context and signal, and the oracle is asked about its own operations.
* `Host.Works` — a host at which all calls to the store work.
* `Host.Spares` — what a run has to leave as it is. `Host.spares_answer`: whatever is asked on
  behalf of a run that keeps to itself does so.
* `Host.Couples` — two hosts that are the same to two runs, which have different IDs.
  `Host.Couples.answer`: their answers look the same, and then they still are.
-/

namespace Runbook

open Program

/-! ## Keeping to oneself -/

/-- Whether an executor keeps to its own run and these operations. -/
def Act.IsOwn (operations : String → Prop) : Act → Prop
  | .now | .isCanceled | .fire | .note _ => True
  | .cancel target _ => target = none
  | .inject .. => False
  | .script operation .. => operations operation

/-- Nothing but the own run and these operations is touched. -/
def Conduct.own (operations : String → Prop) : Conduct := ⟨Act.IsOwn operations, operations⟩

namespace Oracle

variable {o o' : Oracle} {operation other : String}

/-- A query is nothing to other operations. -/
theorem scripts_query_of_ne (o : Oracle) (ne : other ≠ operation) :
    (o.query operation).2.scripts.get? other = o.scripts.get? other := by
  rw [query]
  split
  · rfl
  · rfl
  · rfl
  · exact Catalog.get?_insert_of_ne _ _ ne

/-- What is left of the script of an operation is all that a query depends on. -/
theorem query_congr (same : o.scripts.get? operation = o'.scripts.get? operation) :
    (o.query operation).1 = (o'.query operation).1 ∧
      (o.query operation).2.scripts.get? operation =
        (o'.query operation).2.scripts.get? operation := by
  have left := same
  rw [query, query, ← same]
  split
  · exact ⟨rfl, left⟩
  · exact ⟨rfl, left⟩
  · exact ⟨rfl, left⟩
  · exact ⟨rfl, by simp [script]⟩

end Oracle

namespace Memory

variable {m : Memory} {v : Visit} {id : String} {d : RunDetail}

/-- A visit of one run is nothing to the other ones. -/
theorem detail_createVisit_of_ne (other : v.parentId ≠ id) :
    (m.createVisit v).2.detail id = m.detail id := by
  rw [createVisit]
  split
  · rfl
  · split
    · rfl
    · split
      · rfl
      · exact congrArg (Option.map _) (find?_modify_of_ne m other fun _ same => same)

theorem writable_createVisit (writable : m.readOnly = false) :
    (m.createVisit v).2.readOnly = false := by
  rw [createVisit, if_neg (by simp [writable])]
  split
  · exact writable
  · split <;> exact writable

/-- A new visit of a stored run can be created. -/
theorem createVisit_of_new (writable : m.readOnly = false) (found : m.detail v.parentId = some d)
    (new : v.id ∉ d.visits.map Visit.id) : (m.createVisit v).1 = .ok () := by
  obtain ⟨-, entry⟩ := detail_eq_some.1 found
  have unlisted : d.visits.any (·.id == v.id) = false := by simpa using new
  simp [createVisit, writable, entry, unlisted]

end Memory

namespace Host

variable {h h' g : Host Memory} {run run' id : String} {operations : String → Prop} {z : Veil}
  {q q' : Request}

/-! ## Hosts that work -/

/-- No call to the store fails. -/
structure Works (h : Host Memory) : Prop where
  /-- not on purpose -/
  faults : h.faults = []
  /-- nor because the store cannot be written -/
  writable : h.store.readOnly = false

/-- Calls to the store reach it. -/
theorem Works.call (works : h.Works) {β : Type} (c : StoreCall) (f : Memory → Reply Memory β) :
    h.call c f = ((f h.store).1, { h with store := (f h.store).2 }) := by
  have none : Faults.next c [] = (false, []) := rfl
  rw [Host.call, works.faults, none, ← works.faults]
  rfl

/-! ## Leaving others alone -/

/-- From one host to the other nothing has changed but for the run of that ID and for these
operations. -/
structure Spares (id : String) (operations : String → Prop) (h h' : Host Memory) : Prop where
  /-- what the clock shows -/
  clock : h'.clock = h.clock
  /-- the signals of other runs -/
  signal : ∀ run, run ≠ id → h'.signal run = h.signal run
  /-- what the oracle is to answer about other operations -/
  scripts : ∀ operation, ¬ operations operation →
    h'.oracle.scripts.get? operation = h.oracle.scripts.get? operation
  /-- and how long that takes -/
  delays : ∀ operation, ¬ operations operation →
    h'.oracle.delays.get? operation = h.oracle.delays.get? operation
  /-- which runs can be canceled -/
  handedOut : h'.handedOut = h.handedOut
  /-- what is stored of other runs -/
  detail : ∀ run, run ≠ id → h'.store.detail run = h.store.detail run
  /-- no ID is given again -/
  visitIds : h.visitIds ≤ h'.visitIds
  /-- all calls still work -/
  works : h.Works → h'.Works

theorem Spares.refl : h.Spares id operations h :=
  ⟨rfl, fun _ _ => rfl, fun _ _ => rfl, fun _ _ => rfl, rfl, fun _ _ => rfl, Nat.le_refl _,
    fun works => works⟩

theorem Spares.log (spares : h.Spares id operations h') (o : Occurrence) :
    h.Spares id operations (h'.log o) :=
  ⟨spares.clock, spares.signal, spares.scripts, spares.delays, spares.handedOut, spares.detail,
    spares.visitIds, fun works => ⟨(spares.works works).faults, (spares.works works).writable⟩⟩

/-- A call that leaves what is stored of other runs. -/
theorem Spares.call {β : Type} (c : StoreCall) {f : Memory → Reply Memory β}
    (detail : ∀ run, run ≠ id → (f h.store).2.detail run = h.store.detail run)
    (writable : h.store.readOnly = false → (f h.store).2.readOnly = false) :
    h.Spares id operations (h.call c f).2 := by
  have works (works : h.Works) : (h.call c f).2.Works := by
    rw [works.call]
    exact ⟨works.faults, writable works.writable⟩
  rw [Host.call] at works ⊢
  dsimp only at works ⊢
  split at works
  · next fails =>
    rw [if_pos fails]
    exact ⟨rfl, fun _ _ => rfl, fun _ _ => rfl, fun _ _ => rfl, rfl, fun _ _ => rfl,
      Nat.le_refl _, works⟩
  · next reaches =>
    rw [if_neg reaches]
    exact ⟨rfl, fun _ _ => rfl, fun _ _ => rfl, fun _ _ => rfl, rfl, detail, Nat.le_refl _, works⟩

theorem spares_called (h : Host Memory) (id : String) (c : SignalCall) :
    h.Spares id operations (h.called id c) := by
  have signal (run : String) (ne : run ≠ id) := h.signal_called_of_ne c ne
  cases c <;> exact ⟨rfl, signal, fun _ _ => rfl, fun _ _ => rfl, rfl, fun _ _ => rfl,
    Nat.le_refl _, fun works => ⟨works.faults, works.writable⟩⟩

/-- An executor that keeps to its run and these operations. -/
theorem spares_perform {a : Act} (own : a.IsOwn operations) :
    h.Spares id operations (h.perform id a).2 := by
  cases a with
  | now | isCanceled | note =>
    exact ⟨rfl, fun _ _ => rfl, fun _ _ => rfl, fun _ _ => rfl, rfl, fun _ _ => rfl,
      Nat.le_refl _, fun works => ⟨works.faults, works.writable⟩⟩
  | cancel target reason =>
    obtain rfl : target = none := own
    rw [perform, target?]
    split
    · exact .refl
    · next found =>
      split at found
      · obtain rfl := Option.some.inj found
        exact h.spares_called _ (.cancel reason)
      · cases found
  | fire => exact h.spares_called id .fire
  | inject => exact own.elim
  | script operation lines delay =>
    have ne {op : String} (other : ¬ operations op) : op ≠ operation := by
      rintro rfl
      exact other own
    exact ⟨rfl, fun _ _ => rfl, fun op other => Catalog.get?_insert_of_ne _ _ (ne other),
      fun op other => Catalog.get?_insert_of_ne _ _ (ne other), rfl, fun _ _ => rfl,
      Nat.le_refl _, fun works => ⟨works.faults, works.writable⟩⟩

/-- What is asked on behalf of a run that keeps to itself. -/
theorem spares_answer (isFor : q.IsFor id) (concerns : ∀ x, (Incident.asked q x).Concerns id)
    (within : q.Within (.own operations)) : h.Spares id operations (h.answer q).2 := by
  cases q with
  | newVisitId =>
    exact ⟨rfl, fun _ _ => rfl, fun _ _ => rfl, fun _ _ => rfl, rfl, fun _ _ => rfl,
      Nat.le_succ _, fun works => ⟨works.faults, works.writable⟩⟩
  | now =>
    exact ⟨rfl, fun _ _ => rfl, fun _ _ => rfl, fun _ _ => rfl, rfl, fun _ _ => rfl,
      Nat.le_refl _, fun works => ⟨works.faults, works.writable⟩⟩
  | clock | signal | between | atWork => exact .refl
  | createVisit v =>
    obtain rfl : v.parentId = id := concerns (.ok ())
    exact (Spares.call .createVisit (fun _ ne => Memory.detail_createVisit_of_ne ne.symm)
      Memory.writable_createVisit).log _
  | update r visits =>
    obtain rfl : r.id = id := concerns (.ok ())
    exact (Spares.call .update (fun _ ne => Memory.detail_update_of_ne visits ne.symm)
      fun writable => (Memory.update_of_writable r visits writable).2).log _
  | beginQuery operation =>
    rw [answer, beginQuery]
    split
    · exact .refl
    · exact Spares.refl.log _
  | query operation =>
    -- the operation asked about is the caller's, hence none of the others'
    have ne {op : String} (other : ¬ operations op) : op ≠ operation := by
      rintro rfl
      exact other within
    have asked : h.Spares id operations { h with oracle := (h.oracle.query operation).2 } :=
      ⟨rfl, fun _ _ => rfl, fun op other => Oracle.scripts_query_of_ne _ (ne other),
        fun op _ => by rw [Oracle.delays_query], rfl, fun _ _ => rfl, Nat.le_refl _,
        fun works => ⟨works.faults, works.writable⟩⟩
    exact asked.log _
  | act id' a =>
    obtain rfl : id' = id := isFor
    exact spares_perform within

/-! ## Hosts that are the same to a run -/

end Host

/-- The veil hides what hosts give: the IDs of visits and the times in records. -/
structure Veil.HidesGiven (z : Veil) : Prop where
  /-- IDs -/
  ids : ∀ h g : Host Memory, z.ids h.newVisitId.1 = z.ids g.newVisitId.1
  /-- times -/
  times : ∀ h g : Host Memory, z.times h.now.1 = z.times g.now.1

namespace Host

variable {h h' g : Host Memory} {run run' id : String} {operations : String → Prop} {z : Veil}
  {q q' : Request}

/-- The one host is to the one run and its operations what the other host is to the other run. -/
structure Couples (operations : String → Prop) (run run' : String) (h g : Host Memory) :
    Prop where
  /-- the clocks show the same -/
  clock : h.clock = g.clock
  /-- the signals are the same -/
  signal : h.signal run = g.signal run'
  /-- the oracles are to answer the same -/
  scripts : ∀ operation, operations operation →
    h.oracle.scripts.get? operation = g.oracle.scripts.get? operation
  /-- and need the same time -/
  delays : ∀ operation, operations operation →
    h.oracle.delays.get? operation = g.oracle.delays.get? operation
  /-- executors may cancel both runs or none -/
  handedOut : h.handedOut.any (·.2 == run) = g.handedOut.any (·.2 == run')

/-- What other runs do, which have their own operations, is nothing to the run. -/
theorem Couples.of_spares {others : String → Prop} (couples : Couples operations run run' h g)
    (spares : h.Spares id others h') (ne : run ≠ id)
    (apart : ∀ operation, operations operation → ¬ others operation) :
    Couples operations run run' h' g where
  clock := spares.clock.trans couples.clock
  signal := (spares.signal run ne).trans couples.signal
  scripts op own := (spares.scripts op (apart op own)).trans (couples.scripts op own)
  delays op own := (spares.delays op (apart op own)).trans (couples.delays op own)
  handedOut := by rw [spares.handedOut, couples.handedOut]

theorem Couples.passes (couples : Couples operations run run' h g) (ms : Nat) :
    Couples operations run run' { h with clock := ms } { g with clock := ms } :=
  ⟨rfl, couples.signal, couples.scripts, couples.delays, couples.handedOut⟩

/-- The signals are called in the same way. -/
theorem Couples.called (couples : Couples operations run run' h g) (c : SignalCall) :
    Couples operations run run' (h.called run c) (g.called run' c) := by
  have signal : (h.called run c).signal run = (g.called run' c).signal run' := by
    rw [signal_called, signal_called, couples.signal]
  cases c <;>
    exact ⟨couples.clock, signal, couples.scripts, couples.delays, couples.handedOut⟩

theorem Couples.log (couples : Couples operations run run' h g) (o o' : Occurrence) :
    Couples operations run run' (h.log o) (g.log o') :=
  ⟨couples.clock, couples.signal, couples.scripts, couples.delays, couples.handedOut⟩

/-- An executor that cancels its own run calls its signal, if it may. -/
theorem perform_cancel (h : Host Memory) (run reason : String) :
    h.perform run (.cancel none reason) =
      ((), if h.handedOut.any (·.2 == run) then h.called run (.cancel reason) else h) := by
  rw [perform, target?]
  split
  · next gone =>
    split at gone
    · cases gone
    · next unlisted => rw [if_neg unlisted]
  · next found =>
    split at found
    · next listed =>
      obtain rfl := Option.some.inj found
      rw [if_pos listed]
      rfl
    · cases found

/-- The answers to two runs look the same, and their signals are called in the same way. -/
structure Matched (z : Veil) (operations : String → Prop) (run run' : String) (h g : Host Memory)
    (q q' : Request) : Prop where
  /-- the hosts are the same to the runs -/
  couples : Couples operations run run' (h.answer q).2 (g.answer q').2
  /-- what happens looks the same -/
  looks : z.incident (.asked q (h.answer q).1) = z.incident (.asked q' (g.answer q').1)
  /-- so do the calls -/
  calls : ∃ cs, Calls run cs h (h.answer q).2 ∧ Calls run' cs g (g.answer q').2 ∧
    q.Allows (h.signal run) (h.answer q).1 cs ∧ q'.Allows (g.signal run') (g.answer q').1 cs

/-- Answers that lead to no calls. -/
theorem Matched.of_quiet (couples : Couples operations run run' (h.answer q).2 (g.answer q').2)
    (looks : z.incident (.asked q (h.answer q).1) = z.incident (.asked q' (g.answer q').1))
    (quiet : (h.answer q).2.signal run = h.signal run)
    (quiet' : (g.answer q').2.signal run' = g.signal run')
    (allows : q.Allows (h.signal run) (h.answer q).1 [])
    (allows' : q'.Allows (g.signal run') (g.answer q').1 []) :
    Matched z operations run run' h g q q' :=
  ⟨couples, looks, [], quiet, quiet', allows, allows'⟩

/-- Executors that cancel their own runs. -/
theorem Couples.cancel (couples : Couples operations run run' h g) (ids : z.ids run = z.ids run')
    (reason : String) : Matched z operations run run' h g (.act run (.cancel none reason))
      (.act run' (.cancel none reason)) := by
  have looks := congrArg (fun id => Incident.asked (.act id (.cancel none reason)) ()) ids
  have answer (h : Host Memory) (run : String) : (h.answer (.act run (.cancel none reason))).2 =
      if h.handedOut.any (·.2 == run) then h.called run (.cancel reason) else h := by
    rw [Host.answer, perform_cancel]
  have first := answer h run
  have second := answer g run'
  rw [← couples.handedOut] at second
  split at first
  · next listed =>
    rw [if_pos listed] at second
    refine ⟨?_, looks, [.cancel reason], ?_, ?_, trivial, trivial⟩
    · rw [first, second]
      exact couples.called _
    · rw [first]
      exact h.signal_called run _
    · rw [second]
      exact g.signal_called run' _
  · next unlisted =>
    rw [if_neg unlisted] at second
    refine .of_quiet ?_ looks ?_ ?_ trivial trivial
    · rw [first, second]
      exact couples
    · rw [first]
    · rw [second]

/-- Executors that give an operation a script. -/
theorem Couples.script (couples : Couples operations run run' h g) (operation : String)
    (lines : List Line) (delay : Nat) : Couples operations run run'
      (h.script operation lines delay) (g.script operation lines delay) where
  clock := couples.clock
  signal := couples.signal
  scripts op mine := by
    simp [Host.script, Oracle.script, Oracle.delay, Catalog.get?_insert, couples.scripts op mine]
  delays op mine := by
    simp [Host.script, Oracle.script, Oracle.delay, Catalog.get?_insert, couples.delays op mine]
  handedOut := couples.handedOut

/-- Executors that keep to themselves and ask what looks the same. -/
theorem Couples.perform (couples : Couples operations run run' h g) (hides : z.HidesGiven)
    {a a' : Act} (ids : z.ids run = z.ids run') (looks : z.act a = z.act a')
    (own : a.IsOwn operations) : Matched z operations run run' h g (.act run a) (.act run' a') := by
  cases a with
  | now =>
    obtain rfl : a' = .now := by cases a' <;> first | rfl | cases looks
    exact .of_quiet
      ⟨couples.clock, couples.signal, couples.scripts, couples.delays, couples.handedOut⟩
      (congrArg₂ (fun id => Incident.asked (.act id .now)) ids (hides.times h g)) rfl rfl
      trivial trivial
  | isCanceled =>
    obtain rfl : a' = .isCanceled := by cases a' <;> first | rfl | cases looks
    exact .of_quiet couples (congrArg₂ (fun id => Incident.asked (.act id .isCanceled)) ids
      (congrArg (·.fired) couples.signal)) rfl rfl rfl rfl
  | cancel target reason =>
    obtain rfl : target = none := own
    obtain rfl : a' = .cancel none reason := by cases a' <;> first | exact looks.symm | cases looks
    exact couples.cancel ids reason
  | fire =>
    obtain rfl : a' = .fire := by cases a' <;> first | rfl | cases looks
    exact ⟨couples.called .fire, congrArg (fun id => Incident.asked (.act id .fire) ()) ids,
      [.fire], h.signal_fire run, g.signal_fire run', List.mem_singleton.2 rfl,
      List.mem_singleton.2 rfl⟩
  | inject => exact own.elim
  | script operation lines delay =>
    obtain rfl : a' = .script operation lines delay := by
      cases a' <;> first | exact looks.symm | cases looks
    exact .of_quiet (couples.script operation lines delay)
      (congrArg (fun id => Incident.asked (.act id (.script operation lines delay)) ()) ids)
      rfl rfl trivial trivial
  | note scene =>
    obtain ⟨scene', rfl⟩ : ∃ scene', a' = .note scene' := by
      cases a' <;> first | exact ⟨_, rfl⟩ | cases looks
    exact .of_quiet (couples.log _ _)
      (congrArg₂ (fun id scene => Incident.asked (.act id (.note scene)) ()) ids
        (Act.note.inj looks)) rfl rfl trivial trivial

/-- A call to the store leaves the rest. -/
theorem Couples.call (couples : Couples operations run run' h g) {β β' : Type} (c c' : StoreCall)
    (f : Memory → Reply Memory β) (f' : Memory → Reply Memory β') :
    Couples operations run run' (h.call c f).2 (g.call c' f').2 := by
  rw [Host.call, Host.call]
  dsimp only
  split <;> split <;>
    exact ⟨couples.clock, couples.signal, couples.scripts, couples.delays, couples.handedOut⟩

/-- The oracles are asked about one of the operations. -/
theorem Couples.query (couples : Couples operations run run' h g) {operation : String}
    (own : operations operation) :
    (h.query operation).1 = (g.query operation).1 ∧
      Couples operations run run' (h.query operation).2 (g.query operation).2 := by
  obtain ⟨answer, left⟩ := Oracle.query_congr (couples.scripts operation own)
  have asked : Couples operations run run' { h with oracle := (h.oracle.query operation).2 }
      { g with oracle := (g.oracle.query operation).2 } := by
    refine ⟨couples.clock, couples.signal, fun op mine => ?_, fun op mine => ?_,
      couples.handedOut⟩
    · by_cases same : op = operation
      · subst same
        exact left
      · rw [Oracle.scripts_query_of_ne _ same, Oracle.scripts_query_of_ne _ same]
        exact couples.scripts op mine
    · rw [Oracle.delays_query, Oracle.delays_query]
      exact couples.delays op mine
  exact ⟨answer, asked.log _ _⟩

/-- Asking is nothing to signals. -/
theorem signal_beginQuery (h : Host Memory) (operation : String) :
    (h.beginQuery operation).2.signal run = h.signal run := by
  rw [Host.beginQuery]
  split <;> rfl

theorem Couples.beginQuery (couples : Couples operations run run' h g) {operation : String}
    (own : operations operation) :
    (h.beginQuery operation).1 = (g.beginQuery operation).1 ∧
      Couples operations run run' (h.beginQuery operation).2 (g.beginQuery operation).2 := by
  have delay : h.oracle.delayOf operation = g.oracle.delayOf operation := by
    rw [Oracle.delayOf, couples.delays operation own, Oracle.delayOf]
  rw [Host.beginQuery, Host.beginQuery, delay]
  split
  · exact ⟨rfl, couples⟩
  · exact ⟨rfl, couples.log _ _⟩

/-- Whatever two runs ask that keep to themselves, if it looks the same, so do the answers. -/
theorem Couples.answer (couples : Couples operations run run' h g) (hides : z.HidesGiven)
    (ids : z.ids run = z.ids run') (looks : z.request q = z.request q') (isFor : q.IsFor run)
    (isFor' : q'.IsFor run') (within : q.Within (.own operations)) :
    Matched z operations run run' h g q q' := by
  -- requests that look alike are of one kind, so that the partner's is known from its kind
  cases q with
  | newVisitId =>
    obtain rfl : q' = .newVisitId := by cases q' <;> first | rfl | cases looks
    exact .of_quiet
      ⟨couples.clock, couples.signal, couples.scripts, couples.delays, couples.handedOut⟩
      (congrArg (Incident.asked .newVisitId) (hides.ids h g)) rfl rfl trivial trivial
  | now =>
    obtain rfl : q' = .now := by cases q' <;> first | rfl | cases looks
    exact .of_quiet
      ⟨couples.clock, couples.signal, couples.scripts, couples.delays, couples.handedOut⟩
      (congrArg (Incident.asked .now) (hides.times h g)) rfl rfl trivial trivial
  | clock =>
    obtain rfl : q' = .clock := by cases q' <;> first | rfl | cases looks
    exact .of_quiet couples (congrArg (Incident.asked .clock) couples.clock) rfl rfl
      trivial trivial
  | signal id =>
    obtain ⟨id', rfl⟩ : ∃ id', q' = .signal id' := by
      cases q' <;> first | exact ⟨_, rfl⟩ | cases looks
    obtain rfl : id = run := isFor
    obtain rfl : id' = run' := isFor'
    exact .of_quiet couples (congrArg₂ (fun id => Incident.asked (.signal id)) ids couples.signal)
      rfl rfl rfl rfl
  | between id =>
    obtain ⟨id', rfl⟩ : ∃ id', q' = .between id' := by
      cases q' <;> first | exact ⟨_, rfl⟩ | cases looks
    exact .of_quiet couples (congrArg (fun id => Incident.asked (.between id) ())
      (Request.between.inj looks)) rfl rfl trivial trivial
  | atWork id scene =>
    obtain ⟨id', scene', rfl⟩ : ∃ id' scene', q' = .atWork id' scene' := by
      cases q' <;> first | exact ⟨_, _, rfl⟩ | cases looks
    obtain ⟨ids, scenes⟩ := Request.atWork.inj looks
    exact .of_quiet couples (congrArg₂ (fun id scene => Incident.asked (.atWork id scene) ())
      ids scenes) rfl rfl trivial trivial
  | createVisit v =>
    obtain ⟨v', rfl⟩ : ∃ v', q' = .createVisit v' := by
      cases q' <;> first | exact ⟨_, rfl⟩ | cases looks
    exact .of_quiet ((couples.call _ _ _ _).log _ _)
      (congrArg (fun v => Incident.asked (.createVisit v) (.ok ()))
        (Request.createVisit.inj looks)) (signal_call ..) (signal_call ..) trivial trivial
  | update r visits =>
    obtain ⟨r', visits', rfl⟩ : ∃ r' visits', q' = .update r' visits' := by
      cases q' <;> first | exact ⟨_, _, rfl⟩ | cases looks
    obtain ⟨records, lists⟩ := Request.update.inj looks
    exact .of_quiet ((couples.call _ _ _ _).log _ _)
      (congrArg₂ (fun r visits => Incident.asked (.update r visits) (.ok ())) records lists)
      (signal_call ..) (signal_call ..) trivial trivial
  | beginQuery operation =>
    obtain rfl : q' = .beginQuery operation := by
      cases q' <;> first | exact looks.symm | cases looks
    obtain ⟨answer, couples'⟩ := couples.beginQuery within
    exact .of_quiet couples' (congrArg (Incident.asked (.beginQuery operation)) answer)
      (h.signal_beginQuery operation) (g.signal_beginQuery operation) trivial trivial
  | query operation =>
    obtain rfl : q' = .query operation := by
      cases q' <;> first | exact looks.symm | cases looks
    obtain ⟨answer, couples'⟩ := couples.query within
    exact .of_quiet couples' (congrArg (Incident.asked (.query operation)) answer) rfl rfl
      trivial trivial
  | act id a =>
    obtain ⟨id', a', rfl⟩ : ∃ id' a', q' = .act id' a' := by
      cases q' <;> first | exact ⟨_, _, rfl⟩ | cases looks
    obtain rfl : id = run := isFor
    obtain rfl : id' = run' := isFor'
    exact couples.perform hides ids (Request.act.inj looks).2 within

end Host

end Runbook
