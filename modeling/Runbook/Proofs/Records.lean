import Runbook.Proofs.Walk

/-!
# Keeping records

Most of what a run does about its end is to keep records: it reads the time, looks at its signal and
writes its record.

* `Program.Records` — programs that do no more than this.
* `Run.Noted` — what such a program leaves of a run: its context, what was reported of it, and the
  operations of its visits.
* `Run.records_afterFailure`, `Run.records_close` and others — the programs that end a visit, a walk
  or a run are of this kind.
* `Run.Endures`, `Run.Endures.ensures_start` — so a condition that outlasts them, and every node,
  holds when the run has ended.
-/

namespace Runbook

open Program

/-- Whether a run asks that apart from its nodes: it keeps its records, or lets others have their
say. -/
def Request.isClerical : Request → Bool
  | .between _ => true
  | r => r.keepsRecords

/-- The program only keeps records, and its value has a property. -/
abbrev Program.Records {α : Type} (P : α → Prop) (p : Program α) : Prop :=
  p.Only (fun r => r.isClerical = true) P

/-- To look at a signal is no work. -/
theorem Trace.Looks.clerical {pace : Pace} {t u : Trace} (h : t.Looks pace u) :
    t.Adds (·.isClerical = true) u :=
  h.adds (fun _ => rfl) fun _ => rfl

namespace Run

variable {r r' r'' : Run} {f : Failure} {ok : Bool}

/-- The operations of the visits in order. -/
def operations (r : Run) : List String := r.visits.map Visit.operationId

/-- A visit that is entered brings its operation with it, which is still empty. -/
theorem operations_enter (v : Visit) :
    (r.enter v).operations = r.operations ++ [v.operationId] := by
  rw [operations, visits_enter, List.map_append, List.map_singleton, operations]

/-- An edit that leaves the operation of the latest visit leaves all of them. -/
theorem operations_edit {g : Visit → Visit} (keeps : ∀ v, (g v).operationId = v.operationId) :
    (r.edit g).operations = r.operations := by
  rw [operations, visits, operations, visits]
  cases trail : r.trail with
  | nil => simp [edit, trail]
  | cons v rest => simp [r.edit_trail g trail, keeps v]

/-- An edit changes only the latest visit. -/
theorem operations_replace {front : List String} {operation : String} (v : Visit)
    (h : r.operations = front ++ [operation]) :
    (r.edit fun _ => v).operations = front ++ [v.operationId] := by
  rw [operations, visits] at h ⊢
  cases trail : r.trail with
  | nil => simp [trail] at h
  | cons w rest =>
    rw [trail, List.reverse_cons, List.map_append, List.map_singleton] at h
    rw [r.edit_trail _ trail, List.reverse_cons, List.map_append, List.map_singleton,
      (List.append_inj' h rfl).1]

/-- `r'` is the run `r` when it has only kept its records. -/
structure Noted (r r' : Run) : Prop where
  /-- what is reported of the context is the same -/
  record : r'.record.context = r.record.context
  /-- so is the context -/
  context : r'.context = r.context
  /-- so are the operations -/
  operations : r'.operations = r.operations

/-- A run that is left alone keeps what is noted of it, -/
theorem Noted.refl : Noted r r := ⟨rfl, rfl, rfl⟩

/-- and it does so over several steps. -/
theorem Noted.trans (h : Noted r r') (h' : Noted r' r'') : Noted r r'' :=
  ⟨h'.record.trans h.record, h'.context.trans h.context, h'.operations.trans h.operations⟩

/-- A failure goes into the record of a visit, and leaves its operation there. -/
theorem records_fail : (r.fail f).Records (Noted r) :=
  ⟨rfl, fun _ => ⟨rfl, rfl, operations_edit fun _ => rfl⟩⟩

/-- So does the end of a run, -/
theorem records_endWith {s : Status} : (r.endWith f s).Records (Noted r) := by
  rw [endWith]
  split
  · exact records_fail.bind fun _ h => ⟨h.record, h.context, h.operations⟩
  · exact ⟨rfl, rfl, rfl⟩

/-- and a cancellation. -/
theorem records_markCanceled : r.markCanceled.Records (Noted r) :=
  ⟨rfl, fun _ => records_endWith⟩

/-- A run that is written stays as it is, but for the time at which it was updated. -/
theorem records_save : r.save.Records fun a => Noted r a.2 :=
  ⟨rfl, fun _ => ⟨rfl, fun _ => ⟨rfl, rfl, rfl⟩⟩⟩

/-- So it does if the answer is overlooked. -/
theorem records_saveAnyway : r.saveAnyway.Records (Noted r) := records_save.bind fun _ h => h

/-- A run that is ended as canceled, and written. -/
theorem records_canceled {α : Type} {P : α → Prop} {g : Run → Program α}
    (h : ∀ r', Noted r r' → (g r').Records P) :
    (r.markCanceled.bind fun r => r.saveAnyway.bind g).Records P :=
  records_markCanceled.bind fun _ h₁ => records_saveAnyway.bind fun _ h₂ => h _ (h₁.trans h₂)

/-- What is done after a failure is to mark and to write. Nothing of it touches the context or the
operations. -/
theorem records_afterFailure : (r.afterFailure f).Records fun a => Noted r a.2 := by
  cases f with
  | canceled reason => exact records_canceled fun _ h => h
  | persistence detail => exact records_endWith.bind fun _ h => h
  | _ => exact .refl

/-- So it is with the failure itself, -/
theorem records_failWith : (r.failWith f).Records fun a => Noted r a.2 :=
  records_fail.bind fun _ h => records_afterFailure.mono (fun _ h => h) fun _ h' => h.trans h'

/-- and with a success. -/
theorem records_succeedWith {payload : Option String} :
    (r.succeedWith payload).Records fun a => Noted r a.2 :=
  ⟨rfl, fun _ => ⟨rfl, rfl, operations_edit fun _ => rfl⟩⟩

/-- A walk that stops between two nodes has nothing else to do, -/
theorem records_stopCanceled : r.stopCanceled.Records fun a => Noted r a.2 :=
  records_canceled fun _ h => h

/-- nor has one that is at the end of its path. -/
theorem records_arrive : (r.arrive ok).Records fun a => Noted r a.2 := by
  refine ⟨rfl, fun _ => ⟨rfl, fun signal => ?_⟩⟩
  dsimp only [done_bind, pure_eq, bind_eq]
  split
  · exact records_markCanceled.bind fun _ h => h
  · change Noted r (if r.record.status = .canceled then r else r.withStatus .finished)
    split
    · exact .refl
    · exact ⟨rfl, rfl, rfl⟩

/-- The status of a run and its last error are no part of what is noted here. -/
theorem noted_complete : Noted r (r.complete ok) := by
  rw [complete]
  split
  · exact .refl
  · exact ⟨rfl, rfl, rfl⟩

/-- So at the end of a run, too, the context is the one of the last snapshot. -/
theorem records_close : (r.close ok).Records fun a => Noted r a.2 := by
  have completes (r : Run) : ((r.complete ok).saveAnyway.bind fun r => done (ok, r)).Records
      fun a => Noted r a.2 :=
    records_saveAnyway.bind fun _ h => noted_complete.trans h
  refine ⟨rfl, fun signal => ?_⟩
  dsimp only [done_bind, pure_eq, bind_eq]
  split
  · exact records_markCanceled.bind fun _ h =>
      (completes _).mono (fun _ h => h) fun _ h' => h.trans h'
  · exact completes r

/-! ## Conditions that outlast keeping records -/

/-- `J` holds of the run with which a program has ended, and `K` if it has ended with none. -/
def Behind {α : Type} (J : Run → Trace → Prop) (K : Trace → Prop) :
    Option (α × Run) → Trace → Prop
  | some a, u => J a.2 u
  | none, u => K u

/-- What holds in the end of a program can depend on all that it has asked. -/
theorem ensures_behind {α : Type} {pace : Pace} {p : Program (α × Run)} {A : Request → Prop}
    {P : Run → Prop} {J : Run → Trace → Prop} {K : Trace → Prop} {t : Trace}
    (only : p.Only A fun a => P a.2) (ends : ∀ r u, t.Adds A u → P r → J r u)
    (breaks : ∀ u, t.Adds A u → K u) : p.Ensures pace (Behind J K) t := by
  refine only.ensures.mono ?_
  rintro (_ | a) u ⟨adds, holds⟩
  · exact breaks u adds
  · exact ends a.2 u adds (holds a rfl)

/-- Neither keeping records nor a node of the procedure puts an end to the condition `J`, and where
it holds, so does `K`. -/
structure Endures (pace : Pace) (d : Definition) (J : Run → Trace → Prop) (K : Trace → Prop) :
    Prop where
  /-- it outlasts whatever only keeps records -/
  kept {r r' : Run} {t u : Trace} : J r t → t.Adds (·.isClerical = true) u → Noted r r' → J r' u
  /-- it says more -/
  more {r : Run} {t : Trace} : J r t → K t
  /-- it outlasts every node -/
  steps {n : NodeSpec} {r : Run} {t : Trace} : J r t → d.node? n.name = some n →
    (r.step n).Ensures pace (Behind J K) t

namespace Endures

variable {α : Type} {pace : Pace} {d : Definition} {J : Run → Trace → Prop} {K : Trace → Prop}
  {t u : Trace}

/-- What is only written down leaves behind what has been behind before. -/
theorem ensures {p : Program (α × Run)} (h : Endures pace d J K) (hj : J r t)
    (records : p.Records fun a => Noted r a.2) : p.Ensures pace (Behind J K) t :=
  ensures_behind records (fun _ _ adds => h.kept hj adds)
    fun _ adds => h.more (h.kept hj adds .refl)

/-- So the walk may be followed step by step. -/
theorem carries (h : Endures pace d J K) : Carries pace d (fun _ _ r t => J r t) (Behind J K) where
  arrives hj := h.ensures hj records_arrive
  cancels hj looks _ := h.ensures (h.kept hj looks.clerical .refl) records_stopCanceled
  steps := by
    intro n ok r t u hj here looks _
    refine (h.steps (h.kept hj looks.clerical .refl) here).mono ?_
    rintro (_ | ⟨course, r'⟩) v held
    · exact held
    · cases course with
      | advance => exact held
      | recover => exact h.kept held .refl ⟨rfl, rfl, rfl⟩
      | stop => exact held

/-- So it holds in the end if it does in the beginning. -/
theorem ensures_start (h : Endures pace r.definition J K) (hj : J (r.withStatus .processing) t) :
    r.start.Ensures pace (Behind J K) t := by
  refine ensures_bind.2 ((h.carries.ensures_walk (List.suffix_refl _) ?_ hj).mono ?_)
  · rintro _ ⟨⟩
    exact r.definition.hasStart
  · rintro (_ | ⟨ok, r'⟩) u held
    · exact held
    · exact h.ensures held records_close

end Endures

end Run

end Runbook
