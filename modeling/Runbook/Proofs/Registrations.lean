import Runbook.Proofs.Enacting
import Runbook.Proofs.Live
import Runbook.Proofs.Logbook

/-!
# The registry while runs work

Definitions are registered, replaced and removed at an engine where runs are created by name and
executed. What is found under a name depends on the calls of that name alone, and a run executes to
its end what was found when it was created.

* `Registration`, `Registry.call` — the calls that change a registry, and what one comes to.
* `Registration.Last` — what the calls so far have put under a name at last, and
  `Registry.Recalls.call`: that is what is found there after one more call.
* `Desk` — an engine, its runs and the calls to its registry. `Desk.Comes` is where it can come,
  with calls between the turns of the tasks in any order.
* `Tally.Moves.under` — under any other registry the runs can do the same.
* `Desk.lawful_of_comes` — what the registry says at any time, and what it is to the runs.
-/

namespace Runbook

open Relation

variable {σ : Type}

/-! ## Calls to a registry -/

/-- A call that changes a registry. -/
inductive Registration where
  /-- put in a definition whose name is not taken -/
  | register (d : Definition)
  /-- put in a definition, in place of one of the same name -/
  | replace (d : Definition)
  /-- take out the definition of that name -/
  | remove (name : String)

namespace Registration

/-- The name that is called. -/
def name : Registration → String
  | register d => d.name
  | replace d => d.name
  | remove name => name

/-- What is answered to a call. -/
inductive Receipt where
  /-- the definition is in the registry -/
  | put (d : Definition)
  /-- it was refused -/
  | refused (f : DefinitionFault)
  /-- nothing has that name any more; whether there was a definition -/
  | removed (found : Bool)

/-- Some calls, the latest first, with their answers. -/
abbrev Log := List (Registration × Receipt)

/-- The last call of the name that was not refused has put in this definition. -/
def Last (log : Log) (name : String) (d : Definition) : Prop :=
  ∃ since c before, log = since ++ (c, .put d) :: before ∧ c.name = name ∧
    ∀ e ∈ since, e.1.name = name → ∃ f, e.2 = .refused f

variable {log : Log} {c : Registration} {a : Receipt} {name : String} {d : Definition}

/-- Nothing was registered at the beginning, -/
theorem not_last_nil : ¬ Last [] name d := by
  rintro ⟨since, c, before, nothing, -⟩
  cases since with
  | nil => cases nothing
  | cons => cases nothing

/-- After one more call, that is what it has put in, or it was another one and not of the name, or
refused. -/
theorem last_cons : Last ((c, a) :: log) name d ↔
    (c.name = name ∧ a = .put d) ∨ ((c.name = name → ∃ f, a = .refused f) ∧ Last log name d) := by
  constructor
  · rintro ⟨since, c', before, split, own, quiet⟩
    cases since with
    | nil =>
      cases split
      exact .inl ⟨own, rfl⟩
    | cons e since =>
      cases split
      obtain ⟨here, behind⟩ := List.forall_mem_cons.1 quiet
      exact .inr ⟨here, since, c', before, rfl, own, behind⟩
  · rintro (⟨own, rfl⟩ | ⟨here, since, c', before, rfl, own, quiet⟩)
    · exact ⟨[], c, log, rfl, own, fun e never => by cases never⟩
    · exact ⟨(c, a) :: since, c', before, rfl, own, List.forall_mem_cons.2 ⟨here, quiet⟩⟩

end Registration

namespace Registry

open Registration (Receipt Last Log)

variable {g : Registry} {log : Log} {c : Registration} {name : String} {d : Definition}
  {f : DefinitionFault}

/-- The answer to a call, and the registry then. -/
def call (g : Registry) : Registration → Receipt × Registry
  | .register d => match g.register d with
    | .ok g => (.put d, g)
    | .error f => (.refused f, g)
  | .replace d => (.put d, g.replace d)
  | .remove name => (.removed (g.remove name).1, (g.remove name).2)

/-- A definition is put in where nothing has its name. -/
theorem call_register_of_free (free : g.get? d.name = none) :
    g.call (.register d) = (.put d, g.replace d) := by
  have other : ¬ g.definitions.contains d.name = true := by
    rw [Catalog.contains, ← get?, free]
    exact Bool.false_ne_true
  rw [call, register, if_neg other]

/-- Where its name is taken it is refused, and nothing has changed. -/
theorem call_register_of_taken {d' : Definition} (taken : g.get? d.name = some d') :
    g.call (.register d) = (.refused (.alreadyRegistered d.name), g) := by
  have there : g.definitions.contains d.name = true := by
    rw [Catalog.contains, ← get?, taken]
    rfl
  rw [call, register, if_pos there]

/-- Only a definition whose name is taken is refused, and then the registry is the same. -/
theorem call_eq_of_refused (refused : (g.call c).1 = .refused f) :
    ∃ d d', c = .register d ∧ g.get? d.name = some d' ∧ f = .alreadyRegistered d.name ∧
      (g.call c).2 = g := by
  cases c with
  | replace d => cases refused
  | remove name => cases refused
  | register d =>
    cases here : g.get? d.name with
    | none =>
      rw [call_register_of_free here] at refused
      cases refused
    | some d' =>
      rw [call_register_of_taken here] at refused ⊢
      cases refused
      exact ⟨d, d', rfl, here, rfl, rfl⟩

/-- What is found under each name is what the calls have put there at last. -/
def Recalls (g : Registry) (log : Log) : Prop :=
  ∀ name d, g.get? name = some d ↔ Last log name d

/-- and nothing is in the registry. -/
theorem recalls_empty : empty.Recalls [] := by
  intro name d
  constructor
  · intro never
    cases never
  · intro never
    exact absurd never Registration.not_last_nil

/-- So it is when a call was not refused, whatever it was. -/
theorem Recalls.put (recalls : g.Recalls log) (own : c.name = d.name) :
    (g.replace d).Recalls ((c, .put d) :: log) := by
  intro name d'
  rw [get?_replace, Registration.last_cons, own]
  by_cases same : name = d.name
  · subst same
    simp
  · simp [same, Ne.symm same, recalls name d']

/-- A name that was removed is found no more, whether it was there or not. -/
theorem Recalls.removed (recalls : g.Recalls log) (name : String) (found : Bool) :
    (g.remove name).2.Recalls ((.remove name, .removed found) :: log) := by
  intro other d
  have own : (Registration.remove name).name = name := rfl
  rw [get?_remove, Registration.last_cons, own]
  by_cases same : other = name
  · subst same
    simp
  · simp [same, Ne.symm same, recalls other d]

/-- And when it was refused. -/
theorem Recalls.refused (recalls : g.Recalls log) (c : Registration) (f : DefinitionFault) :
    g.Recalls ((c, .refused f) :: log) := by
  intro name d
  rw [Registration.last_cons, recalls name d]
  simp

/-- So it is after any call. -/
theorem Recalls.call (recalls : g.Recalls log) (c : Registration) :
    (g.call c).2.Recalls ((c, (g.call c).1) :: log) := by
  cases c with
  | replace d => exact recalls.put rfl
  | remove name => exact recalls.removed name _
  | register d =>
    cases here : g.get? d.name with
    | none =>
      rw [call_register_of_free here]
      exact recalls.put rfl
    | some d' =>
      rw [call_register_of_taken here]
      exact recalls.refused _ _

/-- The names that are listed are those under which something is found. -/
theorem mem_names_iff : name ∈ g.names ↔ ∃ d, g.get? name = some d := by
  rw [names, Catalog.mem_names, Catalog.contains, Option.isSome_iff_exists]
  rfl

end Registry

/-! ## What a run executes -/

namespace Run

variable {d : Definition} {r r' : Run} {pace : Pace} {t u : Trace} {cs : List RunCall}
  {before : List SignalCall} {o : Option (Bool × Run)}

/-- The run was created with the definition; calls may have come since. -/
def Stems (d : Definition) (r : Run) : Prop :=
  ∃ record settings caller l, (Logbook.create record d settings caller).Rests l ∧ l.run = r

/-- A run is created from its definition. -/
theorem stems_create (record : RunRecord) (d : Definition) (settings : Settings)
    (caller : Caller) : (create record d settings caller).Stems d :=
  ⟨record, settings, caller, _, .fresh, rfl⟩

/-- A run keeps the definition with which it was created. -/
theorem Stems.definition (stems : r.Stems d) : r.definition = d := by
  obtain ⟨record, settings, caller, l, rests, rfl⟩ := stems
  exact (rests.closed (Logbook.closed_create ..)).definition

/-- More calls may come. -/
theorem Stems.undergoes (stems : r.Stems d) (undergoes : r.Undergoes pace t cs r' u) :
    r'.Stems d := by
  obtain ⟨record, settings, caller, l, rests, same⟩ := stems
  obtain ⟨l', rests', same'⟩ :=
    rests.exists_of_undergoes (Logbook.closed_create ..) same undergoes
  exact ⟨record, settings, caller, l', rests', same'⟩

/-- In particular the run may be executed. -/
theorem Stems.ends {ok : Bool} (stems : r.Stems d) (ends : r.start.Ends pace t (some (ok, r')) u) :
    r'.Stems d :=
  stems.undergoes (.call (.start ends) .refl)

/-- Before a run has come to its end, only executors of nodes have worked to which a path leads. -/
theorem path_of_leads {p : Program (Bool × Run)} {name : String}
    (leads : r.start.Leads pace (.calls before) p u) (executes : u.Executes name) :
    ReflTransGen (Leads r.definition.nodes) startName name := by
  obtain ⟨o, v, ends⟩ := Program.exists_ends pace p u
  exact path_of_executes (leads.trans ends) (executes.of_suffix ends.suffix)

end Run

/-- The task of the run, at this stage after the trace, executes the definition. -/
structure Stage.Enacts (d : Definition) (r : Run) (s : Stage Run) (u : Trace) : Prop where
  /-- it is so far as the run -/
  follows : s.Follows r u
  /-- only executors of nodes of the definition have worked, to which a path leads there -/
  path {name : String} (executes : u.Executes name) : ReflTransGen (Leads d.nodes) startName name
  /-- a run that has ended has the same definition -/
  definition {r' : Run} (ended : s = .ended (.value r')) : r'.definition = d
  /-- its visits are a path of it, if executors change no more than they may -/
  visits {r' : Run} (ended : s = .ended (.value r')) (fresh : r.trail = [])
    (modest : ∀ n ∈ d.nodes, n.Modest) : r'.Follows d r.settings.policy u

/-- A run that comes from a definition enacts it, wherever it stands. -/
theorem Stage.Follows.enacts {d : Definition} {r : Run} {s : Stage Run} {u : Trace}
    (follows : s.Follows r u) (stems : r.Stems d) : s.Enacts d r u := by
  have own := stems.definition
  subst own
  refine ⟨follows, ?_, ?_, ?_⟩
  · intro name executes
    cases follows with
    | fresh =>
      obtain ⟨q, x, never, -⟩ := executes
      cases never
    | waiting leads =>
      -- that it waits now is no work of an executor
      obtain ⟨q, x, inside, starts⟩ := executes
      refine Run.path_of_leads leads ⟨q, x, ?_, starts⟩
      exact List.mem_of_ne_of_mem (by simp) inside
    | value ends => exact Run.path_of_executes ends executes
    | panicked ends => exact Run.path_of_executes ends executes
  · rintro r' rfl
    cases follows with
    | value ends => exact (stems.ends ends).definition
  · rintro r' rfl fresh modest
    cases follows with
    | @value before ok r' t ends =>
      exact (Run.follows_of_start .prompt before fresh modest).2 _ u ends

/-! ## Runs that are created by name -/

/-- That a new run is written is noted. -/
theorem Host.journal_createRun [Store σ] (h : Host σ) (r : RunRecord) :
    (Store.createRun r h).2.journal =
      ⟨h.clock, .createRun r (Store.createRun r h).1⟩ :: h.journal := by
  have clock : (h.call .createRun (Store.createRun r)).2.clock = h.clock := by
    rw [call]
    dsimp only
    split
    · rfl
    · rfl
  have noted : (Store.createRun r h).2.journal =
      ⟨(h.call .createRun (Store.createRun r)).2.clock, .createRun r (Store.createRun r h).1⟩ ::
        (h.call .createRun (Store.createRun r)).2.journal := rfl
  rw [noted, clock, journal_call]

namespace Engine

variable [Store σ] {e : Engine σ} {caller : Caller} {name bizId bizType : String} {r : Run}
  {d : Definition}

/-- Without a definition of that name no run is created, -/
theorem createNamed_of_none (missing : e.registry.get? name = none) :
    e.createNamed caller name bizId bizType = (.error (.definitionNotFound name), e) := by
  rw [createNamed, missing]

/-- and with one it is created from what is registered at that moment. -/
theorem createNamed_of_some (found : e.registry.get? name = some d) :
    e.createNamed caller name bizId bizType = e.create caller bizId bizType (some d) := by
  rw [createNamed, found]

/-- Whether or not a name has a definition, to create a run of it is to create one of what is found
there. -/
theorem createNamed_snd : (e.createNamed caller name bizId bizType).2 =
    (e.create caller bizId bizType (e.registry.get? name)).2 := by
  cases found : e.registry.get? name with
  | none =>
    rw [createNamed_of_none found]
    rfl
  | some d => rw [createNamed_of_some found]

/-- To create a run is nothing to the registry. -/
theorem registry_create (d : Option Definition) :
    (e.create caller bizId bizType d).2.registry = e.registry := by
  cases d <;> rfl

/-- A run of the definition is written, and it has been created if that works. -/
structure Tries (e : Engine σ) (caller : Caller) (d : Definition)
    (reply : Except EngineError Run × Engine σ) (record : RunRecord) (written : Written) :
    Prop where
  /-- the record has the name of the definition -/
  name : record.name = d.name
  /-- it is written -/
  journal : reply.2.host.journal =
    ⟨e.host.clock, .createRun record written⟩ :: e.host.journal
  /-- then the run has been created, with the definition -/
  result : reply.1 = written.map fun () => Run.create record d e.settings caller

/-- A run is created with a new ID and tried to be stored, and what the store answers decides
whether it begins. -/
theorem exists_tries_create (e : Engine σ) (caller : Caller) (bizId bizType : String)
    (d : Definition) :
    ∃ record written, e.Tries caller d (e.create caller bizId bizType (some d)) record written := by
  refine ⟨_, _, rfl, ?_, rfl⟩
  exact Host.journal_createRun ..

/-- A run that is created by name has the definition which has that name then. -/
theorem exists_stems_of_made (made : (e.createNamed caller name bizId bizType).1 = .ok r) :
    ∃ d, e.registry.get? name = some d ∧ r.Stems d := by
  cases found : e.registry.get? name with
  | none =>
    rw [createNamed_of_none found] at made
    cases made
  | some d =>
    rw [createNamed_of_some found] at made
    obtain ⟨record, written, tries⟩ := e.exists_tries_create caller bizId bizType d
    rw [tries.result] at made
    cases written with
    | error f => cases made
    | ok =>
      cases made
      exact ⟨d, rfl, Run.stems_create ..⟩

end Engine

/-! ## Another registry -/

namespace Tally

variable {t t' : Tally σ} {doom : Nat → Option String} {g : Registry}

/-- The same with another registry. -/
def under (g : Registry) (t : Tally σ) : Tally σ :=
  { t with engine := { t.engine with registry := g } }

variable [Store σ]

/-- A move that leaves the registry as it is. -/
def Steady (t t' : Tally σ) : Prop := t.Moves t' ∧ t'.engine.registry = t.engine.registry

/-- What happens at an engine can happen whatever registry it has, and the registry stays as it is
then. A run of a procedure by name is one of a definition there. -/
theorem Moves.under (moves : t.Moves t') (tended : t.Tended doom) (g : Registry) :
    ReflTransGen Steady (t.under g) (t'.under g) := by
  cases moves with
  | starts issued new => exact .single ⟨.starts issued new, rfl⟩
  | @runs r caller name bizId bizType made =>
    -- the name may mean something else there, so the run is given the definition that was found
    obtain ⟨d, made', ran⟩ := Engine.exists_create made
    rw [ran]
    obtain ⟨next, count⟩ := Engine.id_create made'
    cases d with
    | none => cases made'
    | some d =>
      have created : Steady (t.under g)
          (Tally.under g { t with engine := (t.engine.create caller bizId bizType (some d)).2 }) :=
        ⟨.creates caller bizId bizType (some d), rfl⟩
      refine .tail (.single created) ⟨.starts ⟨_, ?_, next⟩ (tended.new_of_create made'), rfl⟩
      exact Nat.le_of_eq count.symm
  | creates caller bizId bizType d =>
    cases d with
    | none => exact .single ⟨.creates caller bizId bizType none, rfl⟩
    | some d => exact .single ⟨.creates caller bizId bizType (some d), rfl⟩
  | cancels id reason =>
    have same : (t.under g).cancel id reason = (t.cancel id reason).under g := by
      rw [Tally.cancel, Tally.cancel, Engine.cancel, Engine.cancel]
      change Tally.mk (if t.engine.prune.live.contains id then _ else _ : Bool × Engine σ).2 _ =
        Tally.under g ⟨(if t.engine.prune.live.contains id then _ else _ : Bool × Engine σ).2, _⟩
      split
      · rfl
      · rfl
    rw [← same]
    refine .single ⟨.cancels id reason, ?_⟩
    rw [same]
    rfl
  | lists => exact .single ⟨.lists, rfl⟩
  | turns keeps => exact .single ⟨.turns keeps, rfl⟩
  | releases => exact .single ⟨.releases, rfl⟩
  | passes later => exact .single ⟨.passes later, rfl⟩
  | calls id c => exact .single ⟨.calls id c, rfl⟩
  | elsewhere store faults oracle handedOut =>
    exact .single ⟨.elsewhere store faults oracle handedOut g, rfl⟩

end Tally

/-! ## An engine and the calls to its registry -/

/-- An engine with the runs that were started there, and the calls to its registry so far. -/
structure Desk (σ : Type) extends Tally σ where
  /-- the calls with what was answered, the latest first -/
  log : Registration.Log

namespace Desk

variable {k k' : Desk σ} {c : Registration}

/-- An engine at which nothing has happened. -/
def idle (settings : Settings) (store : σ) : Desk σ := ⟨.idle settings store, []⟩

/-- Somebody calls the registry. -/
def call (k : Desk σ) (c : Registration) : Desk σ where
  engine := { k.engine with registry := (k.engine.registry.call c).2 }
  started := k.started
  log := (c, (k.engine.registry.call c).1) :: k.log

variable [Store σ]

/-- Somebody creates a run by name. -/
def create (k : Desk σ) (caller : Caller) (name bizId bizType : String) : Desk σ :=
  { k with engine := (k.engine.createNamed caller name bizId bizType).2 }

/-- What can happen next: somebody calls the registry, or something else happens at the engine. -/
inductive Moves : Desk σ → Desk σ → Prop where
  /-- the registry is called -/
  | calls {k : Desk σ} (c : Registration) : Moves k (k.call c)
  /-- a run is created or started or canceled, a task has its turn, or time passes -/
  | works {k : Desk σ} {t : Tally σ} (moves : k.toTally.Moves t)
    (kept : t.engine.registry = k.engine.registry) : Moves k { k with toTally := t }

/-- Where some moves lead. -/
abbrev Comes : Desk σ → Desk σ → Prop := ReflTransGen Moves

/-- So a creation is a move of the desk, whatever comes of it. -/
theorem moves_create (k : Desk σ) (caller : Caller) (name bizId bizType : String) :
    k.Moves (k.create caller name bizId bizType) := by
  rw [create, Engine.createNamed_snd]
  exact .works (.creates caller bizId bizType (k.engine.registry.get? name))
    (Engine.registry_create _)

/-- What happens at the desk happens to its runs, or is nothing to them: a registration is no move
there. -/
theorem Moves.tally (moves : k.Moves k') : k.toTally.Moves k'.toTally := by
  cases moves with
  | calls c => exact .elsewhere _ _ _ _ (k.engine.registry.call c).2
  | works moves kept => exact moves

/-- So it is with any number of moves. -/
theorem Comes.tally (comes : k.Comes k') : k.toTally.Comes k'.toTally := by
  induction comes with
  | refl => exact .refl
  | tail _ next ih => exact ih.tail next.tally

/-- So the runs of a desk are tended like those of a tally by itself. -/
theorem tended_of_comes {settings : Settings} {store : σ} (comes : (idle settings store).Comes k) :
    k.toTally.Tended fun _ => none :=
  (Tally.tended_idle settings store).comes comes.tally

/-- Only calls to the registry change what is found there. -/
theorem recalls_of_comes {settings : Settings} {store : σ}
    (comes : (idle settings store).Comes k) : k.engine.registry.Recalls k.log := by
  induction comes with
  | refl => exact Registry.recalls_empty
  | tail _ next ih =>
    cases next with
    | calls c => exact ih.call c
    | works moves kept =>
      rw [← kept] at ih
      exact ih

/-- Without the calls, and under any other registry, the same could have happened to the runs. -/
theorem steady_of_comes {settings : Settings} {store : σ} (comes : (idle settings store).Comes k)
    (g : Registry) :
    ReflTransGen Tally.Steady ((Tally.idle settings store).under g) (k.toTally.under g) := by
  induction comes with
  | refl => exact .refl
  | tail before next ih =>
    cases next with
    | calls c => exact ih
    | works moves kept => exact ih.trans (moves.under (tended_of_comes before) g)

end Desk

/-! ## What runs execute -/

/-- Whatever calls return, the run is one of the definition. -/
structure Run.Serves (d : Definition) (r : Run) : Prop where
  /-- it keeps the definition -/
  definition {pace : Pace} {t u : Trace} {cs : List RunCall} {s : Run}
    (undergoes : r.Undergoes pace t cs s u) : s.definition = d
  /-- while it is executed only executors of nodes work to which a path leads there -/
  path {pace : Pace} {t u v : Trace} {cs : List RunCall} {s : Run} {before : List SignalCall}
    {p : Program (Bool × Run)} {name : String} (undergoes : r.Undergoes pace t cs s u)
    (leads : s.start.Leads pace (.calls before) p v) (executes : v.Executes name) :
    ReflTransGen (Leads d.nodes) startName name

/-- A run that comes from a definition serves it. -/
theorem Run.Stems.serves {d : Definition} {r : Run} (stems : r.Stems d) : r.Serves d where
  definition undergoes := (stems.undergoes undergoes).definition
  path undergoes leads executes := by
    rw [← (stems.undergoes undergoes).definition]
    exact path_of_leads leads executes

/-- The run that was started there executes the definition in the background. -/
def Tally.Carries (t : Tally σ) (n : Nat) (r : Run) (d : Definition) : Prop :=
  ∃ task u cs, t.engine.runner.tasks[n]? = some task ∧ task.aborting = false ∧
    task.stage.Enacts d r u ∧ t.engine.host.Tells r.id (.calls cs ++ u)

/-- A run keeps its definition, though another one may be registered under the name by now: it has a
copy of its own from the beginning. -/
theorem Tally.Tended.carries {t : Tally σ} {doom : Nat → Option String} {n : Nat} {r : Run}
    {d : Definition} (tended : t.Tended doom) (here : t.started[n]? = some r) (stems : r.Stems d) :
    t.Carries n r d := by
  obtain ⟨task, there, live, u, cs, follows, tells, -⟩ := tended.task here
  exact ⟨task, u, cs, there, live, follows.enacts stems, tells⟩

namespace Desk

open Registration (Last)

variable [Store σ] {k : Desk σ}

/-- What the registry says at any time, and what it is to the runs. -/
structure Lawful (settings : Settings) (store : σ) (k : Desk σ) : Prop where
  /-- under a name there is what was put there at last -/
  found {name : String} {d : Definition} :
    k.engine.registry.get? name = some d ↔ Last k.log name d
  /-- the names are listed in order, each one once -/
  sorted : k.engine.registry.names.Pairwise (· < ·)
  /-- these are the names under which there is something -/
  listed {name : String} : name ∈ k.engine.registry.names ↔ ∃ d, Last k.log name d
  /-- a definition is refused if its name is taken -/
  taken {d : Definition} : (∃ f, (k.engine.registry.call (.register d)).1 = .refused f) ↔
    ∃ d', Last k.log d.name d'
  /-- for that reason, and it is as if it had not been tried -/
  refused {c : Registration} {f : DefinitionFault}
    (refused : (k.engine.registry.call c).1 = .refused f) :
    (∃ d, c = .register d ∧ f = .alreadyRegistered d.name) ∧ (k.call c).toTally = k.toTally
  /-- no run is created under a name without definition; nothing is written for it -/
  missing {caller : Caller} {name bizId bizType : String} :
    ((k.engine.createNamed caller name bizId bizType).1 = .error (.definitionNotFound name) ∧
      (k.engine.createNamed caller name bizId bizType).2.host.journal = k.engine.host.journal) ↔
      ∀ d, ¬ Last k.log name d
  /-- nor does anything else change -/
  untouched {caller : Caller} {name bizId bizType : String} (missing : ∀ d, ¬ Last k.log name d) :
    (k.engine.createNamed caller name bizId bizType).2 = k.engine
  /-- for a definition a run is written, and it is created if that works -/
  tried {caller : Caller} {name bizId bizType : String} {d : Definition}
    (last : Last k.log name d) : ∃ record written, k.engine.Tries caller d
      (k.engine.createNamed caller name bizId bizType) record written
  /-- a run that is created executes the definition that has its name then, whatever happens to the
  registry later -/
  created {caller : Caller} {name bizId bizType : String} {r : Run}
    (made : (k.engine.createNamed caller name bizId bizType).1 = .ok r) :
    ∃ d, Last k.log name d ∧ r.Serves d ∧
      ∀ k', (k.create caller name bizId bizType).Comes k' → ∀ n pace t cs s u,
        r.Undergoes pace t cs s u → k'.started[n]? = some s → k'.Carries n s d
  /-- without calls, and under any other registry, the same could have happened to the runs -/
  apart (g : Registry) :
    ReflTransGen Tally.Steady ((Tally.idle settings store).under g) (k.toTally.under g)

/-- Definitions are registered, replaced and removed at an engine, in any order and between whatever
else happens there. Then the registry follows the calls of each name, and the runs keep to the
definitions with which they were created. -/
theorem lawful_of_comes {settings : Settings} {store : σ} (comes : (idle settings store).Comes k) :
    k.Lawful settings store := by
  have recalls := recalls_of_comes comes
  have free {name : String} (missing : ∀ d, ¬ Last k.log name d) :
      k.engine.registry.get? name = none :=
    Option.eq_none_iff_forall_ne_some.2 fun d found => missing d ((recalls name d).1 found)
  constructor
  case found => exact recalls _ _
  case sorted => exact Catalog.sorted_names _
  case listed =>
    intro name
    exact Registry.mem_names_iff.trans (exists_congr (recalls name))
  case taken =>
    intro d
    constructor
    · rintro ⟨f, refused⟩
      obtain ⟨d, d', ⟨⟩, there, -⟩ := Registry.call_eq_of_refused refused
      exact ⟨d', (recalls _ _).1 there⟩
    · rintro ⟨d', last⟩
      rw [Registry.call_register_of_taken ((recalls _ _).2 last)]
      exact ⟨_, rfl⟩
  case refused =>
    intro c f refused
    obtain ⟨d, d', own, -, reason, same⟩ := Registry.call_eq_of_refused refused
    refine ⟨⟨d, own, reason⟩, ?_⟩
    rw [call, same]
  case missing =>
    intro caller name bizId bizType
    constructor
    · -- where there is a definition the run is written, or at least tried to be
      rintro ⟨-, unwritten⟩ d last
      rw [Engine.createNamed_of_some ((recalls _ _).2 last)] at unwritten
      obtain ⟨record, written, tries⟩ := k.engine.exists_tries_create caller bizId bizType d
      exact List.cons_ne_self _ _ (tries.journal.symm.trans unwritten)
    · intro missing
      rw [Engine.createNamed_of_none (free missing)]
      exact ⟨rfl, rfl⟩
  case untouched =>
    intro caller name bizId bizType missing
    rw [Engine.createNamed_of_none (free missing)]
  case tried =>
    intro caller name bizId bizType d last
    rw [Engine.createNamed_of_some ((recalls _ _).2 last)]
    exact k.engine.exists_tries_create caller bizId bizType d
  -- a run keeps the definition it stems from, whatever is registered later
  case created =>
    intro caller name bizId bizType r made
    obtain ⟨d, found, stems⟩ := Engine.exists_stems_of_made made
    refine ⟨d, (recalls _ _).1 found, stems.serves, ?_⟩
    intro k' later n pace t cs s u undergoes here
    have tended := tended_of_comes ((comes.tail (k.moves_create ..)).trans later)
    exact tended.carries here (stems.undergoes undergoes)
  case apart => exact steady_of_comes comes

/-! ### A procedure that is removed while it is executed -/

/-- An engine at which the procedure has been registered whose only node waits. -/
def known : Desk Memory := (idle Run.vigil.settings .empty).call (.register .vigil)

/-- The engine when a run of it has had its first turn. -/
def begun : Desk Memory where
  engine := (((known.create default "vigil" "" "").engine.start Tally.watch).turn 0 [])
  started := [Tally.watch]
  log := known.log

/-- The engine when the procedure was removed. -/
def revoked : Desk Memory := begun.call (.remove "vigil")

/-- The definition is registered, -/
theorem comes_known : (idle Run.vigil.settings Memory.empty).Comes known :=
  .single (Moves.calls (Registration.register .vigil))

/-- a run of it is created, and then the definition is removed. -/
theorem comes_revoked : (known.create default "vigil" "" "").Comes revoked := by
  have new : Tally.watch.id ∉ known.started.map Run.id := List.not_mem_nil
  have started : (known.create default "vigil" "" "").Moves
      ⟨⟨(known.create default "vigil" "" "").engine.start Tally.watch, [Tally.watch]⟩, known.log⟩ :=
    .works (.starts ⟨1, Nat.le_refl _, rfl⟩ new) rfl
  have turned : Moves
      ⟨⟨(known.create default "vigil" "" "").engine.start Tally.watch, [Tally.watch]⟩, known.log⟩
      begun := .works (.turns fun m queued ne => absurd (List.mem_singleton.1 queued) ne) rfl
  exact .tail (.tail (.single started) turned) (.calls _)

/-- No other run is created there, and the first one goes on. -/
theorem revoked_lawful : revoked.Lawful Run.vigil.settings Memory.empty ∧
    (revoked.engine.createNamed default "vigil" "" "").1 = .error (.definitionNotFound "vigil") ∧
    revoked.engine.runner.hasEnded 0 = false ∧ revoked.Carries 0 Tally.watch .vigil := by
  have comes : (idle Run.vigil.settings Memory.empty).Comes revoked :=
    (comes_known.tail (known.moves_create default "vigil" "" "")).trans comes_revoked
  have made : (known.engine.createNamed default "vigil" "" "").1 = .ok Tally.watch := rfl
  obtain ⟨d, -, serves, carries⟩ := (lawful_of_comes comes_known).created made
  have uncalled : Tally.watch.Undergoes .prompt [] [] Tally.watch [] := .refl
  obtain rfl : Definition.vigil = d := serves.definition uncalled
  refine ⟨lawful_of_comes comes, rfl, by decide +kernel, ?_⟩
  exact carries revoked comes_revoked 0 .prompt [] [] _ [] uncalled rfl

end Desk

end Runbook
