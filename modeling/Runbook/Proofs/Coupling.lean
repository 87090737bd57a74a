import Runbook.Proofs.Leniency
import Runbook.Proofs.Lodging

/-!
# Two runs at two hosts

Two runs that look the same through a veil, each one at its own host.

* `Veil.detail`, `Trace.kept_eq` — what is stored of two runs looks the same if their traces do.
* `Stance.Peers` — two programs that are equally far.
* `Run.Resembles` — the one run at its host is what the other one is at the other host.
* `Run.Coupled` — they are equally far, and all that has happened looks the same.
  `Run.Coupled.exists_goes`: where the one takes a step, the other one takes the same.
-/

namespace Runbook

open Program

variable {z : Veil}

/-! ## What is stored -/

/-- What can be seen of a stored run. -/
def Veil.detail (z : Veil) (d : RunDetail) : RunDetail :=
  ⟨z.record d.run, d.visits.map z.visit, d.nodeNames⟩

namespace Trace

variable {t t' : Trace} {d d' : RunDetail} {run run' : String} {e : Incident}

/-- The veil leaves requests what they are, so a write looks like a write. -/
theorem isWrite_incident (z : Veil) (e : Incident) : (z.incident e).isWrite = e.isWrite := by
  cases e with
  | asked r x => cases r <;> rfl
  | _ => rfl

/-- A write that worked has created a visit, or written the run. Nothing else changes what is
stored. -/
theorem cases_of_isWrite (write : e.isWrite = true) (worked : e.isFailedWrite = false) :
    (∃ v, e = .asked (.createVisit v) (.ok ())) ∨ ∃ r vs, e = .asked (.update r vs) (.ok ()) := by
  cases e with
  | asked r x =>
    cases r with
    | createVisit v =>
      cases x with
      | error => cases worked
      | ok => exact .inl ⟨v, rfl⟩
    | update r vs =>
      cases x with
      | error => cases worked
      | ok => exact .inr ⟨r, vs, rfl⟩
    | _ => cases write
  | _ => cases write

/-- If all writes work, what is stored looks the same after traces that do. A write that creates a
visit adds one to the list, and an update replaces the whole of it, as it names all visits there
are; so after each write what is stored depends on the writes only, and these look the same. -/
theorem kept_eq (same : z.trace t = z.trace t') (start : z.detail d = z.detail d')
    (empty : d.visits = []) (empty' : d'.visits = []) (listing : t.Listing run t.entered)
    (listing' : t'.Listing run' t'.entered) (fresh : t.Fresh d) (fresh' : t'.Fresh d')
    (clean : t.Clean) (clean' : t'.Clean) : z.detail (t.kept d) = z.detail (t'.kept d') := by
  induction t generalizing t' with
  | nil =>
    obtain rfl : t' = [] := List.map_eq_nil_iff.1 same.symm
    exact start
  | cons e t ih =>
    obtain ⟨e', t', rfl, looks, rest⟩ := List.map_eq_cons_iff.1 same.symm
    have before := ih rest.symm (listing.of_suffix (List.suffix_cons ..))
      (listing'.of_suffix (List.suffix_cons ..)) (fresh_cons.1 fresh).2 (fresh_cons.1 fresh').2
      (clean_cons.1 clean).2 (clean_cons.1 clean').2
    -- what is no write leaves both stores as they were; writes that look the same are of one kind
    cases write : e.isWrite with
    | false =>
      have write' : e'.isWrite = false := by
        rw [← isWrite_incident z, looks, isWrite_incident, write]
      rw [kept_cons (.inl write), kept_cons (.inl write')]
      exact before
    | true =>
      have write' : e'.isWrite = true := by
        rw [← isWrite_incident z, looks, isWrite_incident, write]
      obtain ⟨v, rfl⟩ | ⟨r, vs, rfl⟩ := cases_of_isWrite write (clean_cons.1 clean).1 <;>
        obtain ⟨v', rfl⟩ | ⟨r', vs', rfl⟩ := cases_of_isWrite write' (clean_cons.1 clean').1
      · have visit : z.visit v' = z.visit v :=
          Request.createVisit.inj (Incident.asked.inj looks).1
        have visits : (kept d t).visits.map z.visit = (kept d' t').visits.map z.visit :=
          congrArg (·.visits) before
        have all : ((kept d t).visits ++ [v]).map z.visit =
            ((kept d' t').visits ++ [v']).map z.visit := by
          simp [visits, visit]
        exact congrArg₂ (fun (d : RunDetail) visits => { d with visits := visits }) before all
      · cases looks
      · cases looks
      -- an update lists all visits that were entered, so nothing is left of what was stored before
      · obtain ⟨record, visits⟩ := Request.update.inj (Incident.asked.inj looks).1
        rw [listing.kept_update empty fresh clean, listing'.kept_update empty' fresh' clean']
        exact (congrArg₂ (RunDetail.mk · · []) record visits).symm

end Trace

/-! ## What looks the same -/

namespace Veil

section

variable {p p' : Pause} (same : z.pause p = z.pause p')
include same

/-- Pauses that look the same end in the same way. The veil hides for whom a pause is made, and the
end of a pause is decided by the clock and the alarms. -/
theorem ending_eq (clock : Nat) (turn : Bool) : p.ending clock turn = p'.ending clock turn :=
  show (z.pause p).ending clock turn = (z.pause p').ending clock turn from congrArg _ same

/-- So they set the same alarms, -/
theorem alarms_eq : p.alarms = p'.alarms :=
  show (z.pause p).alarms = (z.pause p').alarms from congrArg _ same

/-- and they still look the same when their alarms have been fixed. -/
theorem fixedAt_eq (clock : Nat) : z.pause (p.fixedAt clock) = z.pause (p'.fixedAt clock) :=
  show (z.pause p).fixedAt clock = (z.pause p').fixedAt clock from congrArg _ same

end

/-- Requests that look the same keep to themselves in the same way, as it is decided by the
operations that they name, and those can be seen. -/
theorem within_own {operations : String → Prop} {q q' : Request}
    (same : z.request q = z.request q') (within : q.Within (.own operations)) :
    q'.Within (.own operations) := by
  have seen (r : Request) :
      (z.request r).Within (.own operations) ↔ r.Within (.own operations) := by
    cases r with
    | act run a => cases a <;> rfl
    | _ => rfl
  exact (seen q').1 (same ▸ (seen q).2 within)

end Veil

/-- Runs that wait for the same go on for the same reason: their signals are the same, and so are
their clocks. -/
theorem Host.Couples.wake?_eq {operations : String → Prop} {h g : Host Memory} {p p' : Pause}
    (couples : Couples operations p.run p'.run h g) (same : z.pause p = z.pause p') :
    h.wake? p = g.wake? p' := by
  rw [wake?, wake?, couples.signal, couples.clock, Veil.ending_eq same]

/-! ## Programs that are equally far -/

/-- The programs are equally far, and do the same from there on. -/
inductive Stance.Peers {α α' : Type} (z : Veil) (A : α → α' → Prop) :
    Stance α → Stance α' → Prop where
  /-- they have not begun -/
  | fresh {start : Nat} {p : Program α} {p' : Program α'} (peers : p.Peers z A p') :
      Peers z A (.fresh start p) (.fresh start p')
  /-- they can go on -/
  | awake {p : Program α} {p' : Program α'} (peers : p.Peers z A p') :
      Peers z A (.awake p) (.awake p')
  /-- they wait -/
  | asleep {p p' : Pause} {next : Wake → Program α} {next' : Wake → Program α'}
      (same : z.pause p = z.pause p') (on : ∀ w, (next w).Peers z A (next' w)) :
      Peers z A (.asleep p next) (.asleep p' next')

namespace Stance.Peers

variable {α α' : Type} {A : α → α' → Prop} {s : Stance α} {s' : Stance α'}

/-- If they have ended, they have come to values that are related, or both have panicked. One of
them does not go on after the other one has ended. -/
theorem outcome (h : s.Peers z A s') : Option.Rel (Option.Rel A) s.outcome? s'.outcome? := by
  cases h with
  | fresh => exact .none
  | asleep => exact .none
  | awake peers =>
    cases peers with
    | done related => exact .some (.some related)
    | panic => exact .some .none
    | ask => exact .none
    | pause => exact .none

end Stance.Peers

/-! ## Runs at two hosts -/

namespace Run

/-- The run at its host is what the other run is at the other host. Both hosts work, and of both
runs no more than the record is stored. -/
structure Resembles (z : Veil) (operations : String → Prop) (r : Run) (h : Host Memory) (r' : Run)
    (g : Host Memory) : Prop where
  /-- the runs look the same -/
  run : z.run r = z.run r'
  /-- the hosts are the same to them -/
  couples : Host.Couples operations r.id r'.id h g
  /-- the one host works -/
  works : h.Works
  /-- the other one works -/
  works' : g.Works
  /-- what is stored of the runs looks the same -/
  stored : ∃ record record', h.store.detail r.id = some ⟨record, [], []⟩ ∧
    g.store.detail r'.id = some ⟨record', [], []⟩ ∧ z.record record = z.record record'

/-- The runs have been brought equally far by their hosts, which began as `h₀` and `g₀`, and all
that has happened looks the same.

The comparison is carried by `trace` and `peers`. That the runs are lodged is needed with it: all
their writes work then, and so it does not come to light how they would take a failed one. -/
structure Coupled (z : Veil) (operations : String → Prop) (r r' : Run) (h₀ g₀ h g : Host Memory)
    (s s' : Stance (Bool × Run)) (u u' : Trace) : Prop where
  /-- the one host has brought the one run so far -/
  lodged : r.Lodged h₀.store h s u
  /-- the other host has brought the other run so far -/
  lodged' : r'.Lodged g₀.store g s' u'
  /-- the hosts are the same to them -/
  couples : Host.Couples operations r.id r'.id h g
  /-- what has happened looks the same -/
  trace : z.trace u = z.trace u'
  /-- the rest will be the same -/
  peers : s.Peers z (Alike z) s'

variable {operations : String → Prop} {r r' : Run} {h₀ g₀ h g h₁ : Host Memory}
  {s s' s₁ : Stance (Bool × Run)} {u u' : Trace}

/-- A run that looks like a tidy one is tidy: it has no visits either, and its definition is the
same. -/
theorem Tidy.of_run_eq (tidy : r.Tidy) (same : z.run r = z.run r') : r'.Tidy := by
  have trails : r.trail.map z.visit = r'.trail.map z.visit := congrArg (·.trail) same
  have definitions : r.definition = r'.definition := congrArg (·.definition) same
  refine ⟨?_, definitions ▸ tidy.keepsIds⟩
  rw [tidy.fresh] at trails
  exact List.map_eq_nil_iff.1 trails.symm

/-- What can be seen of their IDs is the same, as the veil says. -/
theorem Resembles.ids (resembles : r.Resembles z operations h r' g) : z.ids r.id = z.ids r'.id :=
  congrArg Run.id resembles.run

/-- The runs have not begun. Nothing has happened to them, and what they are about to do looks the
same. -/
theorem Resembles.coupled (resembles : r.Resembles z operations h r' g)
    (respects : ∀ n ∈ r.definition.nodes, n.Respects z) (quiet : h.signal r.id = .quiet)
    (clock : Nat) : Coupled z operations r r' h g h g (.fresh clock r.start) (.fresh clock r'.start)
      [] [] where
  lodged := .start resembles.works quiet clock
  lodged' := .start resembles.works' (resembles.couples.signal ▸ quiet) clock
  couples := resembles.couples
  trace := rfl
  peers := .fresh (peers_start resembles.run respects)

namespace Coupled

variable (coupled : Coupled z operations r r' h₀ g₀ h g s s' u u')

include coupled in
/-- What others do is nothing to them, though it changes the host: it is to leave alone what the run
has stored and the operations that it asks about, and with these its signal. -/
theorem of_spares {other : String} {others : String → Prop} (spares : h.Spares other others h₁)
    (ne : r.id ≠ other) (apart : ∀ operation, operations operation → ¬ others operation) :
    Coupled z operations r r' h₀ g₀ h₁ g s s' u u' :=
  ⟨coupled.lodged.of_spares spares ne, coupled.lodged', coupled.couples.of_spares spares ne apart,
    coupled.trace, coupled.peers⟩

include coupled in
/-- Time passes for both. -/
theorem passes (ms : Nat) : Coupled z operations r r' h₀ g₀ { h with clock := ms }
    { g with clock := ms } s s' u u' :=
  ⟨coupled.lodged.passes ms, coupled.lodged'.passes ms, coupled.couples.passes ms, coupled.trace,
    coupled.peers⟩

include coupled in
/-- Their signals are called, which is no step of theirs but looks the same in both traces. -/
theorem called (c : SignalCall) : Coupled z operations r r' h₀ g₀ (h.called r.id c)
    (g.called r'.id c) s s' (.called c :: u) (.called c :: u') :=
  ⟨coupled.lodged.called c, coupled.lodged'.called c, coupled.couples.called c,
    congrArg (Incident.called c :: ·) coupled.trace, coupled.peers⟩

include coupled in
/-- Time may pass for both or for none. One that can go on keeps the clock from moving, and then the
other one can go on, too; if both wait they have the same alarms, and neither lets the clock go past
one of them. -/
theorem rests {ms : Nat} (rests : s.Rests h ms) : s'.Rests g ms := by
  obtain ⟨lodged, lodged', couples, -, peers⟩ := coupled
  cases peers with
  | fresh => exact rests
  | awake peers =>
    cases peers with
    | done => trivial
    | panic => trivial
    | ask => exact rests.elim
    | pause => exact rests.elim
  | asleep same =>
    obtain ⟨vain, alarms⟩ := rests
    rw [← lodged.stands.run_eq, ← lodged'.stands.run_eq] at couples
    exact ⟨couples.wake?_eq same ▸ vain, Veil.alarms_eq same ▸ alarms⟩

/-- Both ask. Neither can tell the answers apart, as the hosts are the same to them and all writes
work, and so they are equally far after it. -/
theorem asks {q q' : Request} {next : q.Answer → Program (Bool × Run)}
    {next' : q'.Answer → Program (Bool × Run)}
    (coupled : Coupled z operations r r' h₀ g₀ h g (.awake (.ask q next)) (.awake (.ask q' next'))
      u u') (resembles : r.Resembles z operations h₀ r' g₀) (discreet : r.Discreet operations)
    (hides : z.HidesGiven) :
    ∃ u₁ u₁', Coupled z operations r r' h₀ g₀ (h.answer q).2 (g.answer q').2
      (.awake (next (h.answer q).1)) (.awake (next' (g.answer q').1)) u₁ u₁' := by
  obtain ⟨lodged, lodged', couples, trace, ⟨⟩ | ⟨⟨⟩ | ⟨⟩ | ⟨same, on⟩⟩⟩ := coupled
  have tidy' := discreet.toTidy.of_run_eq resembles.run
  obtain ⟨record, record', stored, stored', -⟩ := resembles.stored
  have within : q.Within (.own operations) := by
    obtain ⟨⟨⟩ | ⟨leads⟩ | ⟨⟩, -⟩ := lodged.toHosted
    exact discreet.within leads
  have worked := lodged.works_next discreet.toTidy stored rfl
  have worked' := lodged'.works_next tidy' stored' rfl
  obtain ⟨couples', looks, cs, calls, calls', allows, allows'⟩ := couples.answer hides
    resembles.ids same lodged.stands.isFor lodged'.stands.isFor within
  refine ⟨_, _, lodged.asks discreet.toTidy within worked calls allows,
    lodged'.asks tidy' (Veil.within_own same within) worked' calls' allows', couples', ?_,
    .awake (on _ _ looks worked worked')⟩
  rw [Veil.trace_calls, Veil.trace_calls]
  exact congrArg (Trace.calls cs ++ ·) (congrArg₂ List.cons looks trace)

include coupled in
/-- Where the one takes a step, the other one takes the same. What step is taken depends on what is
asked or waited for, on the clock and on the signal, and of these the two runs see the same. -/
theorem exists_goes (resembles : r.Resembles z operations h₀ r' g₀)
    (discreet : r.Discreet operations) (hides : z.HidesGiven) (step : s.Goes h s₁ h₁) :
    ∃ s₁' g₁ u₁ u₁', s'.Goes g s₁' g₁ ∧
      Coupled z operations r r' h₀ g₀ h₁ g₁ s₁ s₁' u₁ u₁' := by
  have ⟨lodged, lodged', couples, trace, peers⟩ := coupled
  -- the partner makes the same move: equal clocks and signals make it due at the same moment
  cases step with
  | begins due =>
    cases peers with
    | fresh peers =>
      exact ⟨_, _, u, u', .begins (couples.clock ▸ due), lodged.begins, lodged'.begins, couples,
        trace, .awake peers⟩
  | asks =>
    obtain ⟨⟩ | ⟨⟨⟩⟩ := peers
    obtain ⟨u₁, u₁', both⟩ := coupled.asks resembles discreet hides
    exact ⟨_, _, u₁, u₁', .asks, both⟩
  | @passes p next w ends =>
    obtain ⟨⟩ | ⟨⟨⟩ | ⟨⟩ | ⟨⟩ | ⟨same, on⟩⟩ := peers
    have ends' := ends
    rw [Veil.ending_eq (Veil.fixedAt_eq same _), couples.clock] at ends'
    exact ⟨_, _, _, _, .passes ends', lodged.unwritten (lodged.toHosted.passes ends) rfl rfl,
      lodged'.unwritten (lodged'.toHosted.passes ends') rfl rfl, couples,
      congrArg₂ (fun p t => Incident.passed p w :: t) same trace, .awake (on w)⟩
  | @waits p next lasts =>
    obtain ⟨⟩ | ⟨⟨⟩ | ⟨⟩ | ⟨⟩ | ⟨same, on⟩⟩ := peers
    have lasts' := lasts
    rw [Veil.ending_eq (Veil.fixedAt_eq same _), couples.clock] at lasts'
    exact ⟨_, _, _, _, .waits lasts', lodged.unwritten lodged.toHosted.waits rfl rfl,
      lodged'.unwritten lodged'.toHosted.waits rfl rfl, couples,
      congrArg₂ (fun p t => Incident.waits p :: t) same trace,
      .asleep (couples.clock ▸ Veil.fixedAt_eq same _) on⟩
  | @wakes p next w wake =>
    obtain ⟨⟩ | ⟨⟩ | ⟨same, on⟩ := peers
    have wake' := wake
    have here := couples
    rw [← lodged.stands.run_eq, ← lodged'.stands.run_eq] at here
    rw [here.wake?_eq same] at wake'
    exact ⟨_, _, _, _, .wakes wake', lodged.unwritten (lodged.toHosted.wakes wake) rfl rfl,
      lodged'.unwritten (lodged'.toHosted.wakes wake') rfl rfl, couples,
      congrArg (Incident.woke w :: ·) trace, .awake (on w)⟩

include coupled in
/-- What is stored of them looks the same, since it depends on what has happened to them only. -/
theorem detail (resembles : r.Resembles z operations h₀ r' g₀) (tidy : r.Tidy) :
    (h.store.detail r.id).map z.detail = (g.store.detail r'.id).map z.detail := by
  obtain ⟨lodged, lodged', -, trace, -⟩ := coupled
  have tidy' := tidy.of_run_eq resembles.run
  obtain ⟨record, record', stored, stored', records⟩ := resembles.stored
  obtain ⟨found, fresh⟩ := lodged.detail tidy stored
  obtain ⟨found', fresh'⟩ := lodged'.detail tidy' stored'
  rw [found, found']
  exact congrArg some (Trace.kept_eq trace (congrArg (RunDetail.mk · [] []) records) rfl rfl
    (lodged.stands.proper tidy).listing (lodged'.stands.proper tidy').listing fresh fresh'
    lodged.clean lodged'.clean)

end Coupled

end Run

end Runbook
