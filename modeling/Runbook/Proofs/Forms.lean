import Mathlib.Data.List.Nodup
import Runbook.Json.Form

/-!
# What a form reads

A record is read from an object whose members give its fields in any order, among others that it
does not know, and from an array that gives them in their declared order.

* `Form.Takes` — the values given for the fields make up the record.
* `Form.takes_single`, `Form.Takes.map`, `Form.Takes.seq` — forms are put together field by field,
  and so is what they take.
* `Form.Takes.decode_object`, `Form.Takes.decode_list` — the record is read.
-/

namespace Runbook

/-- Members with their names. -/
def Draft.named (ms : List (String × Draft)) : List (Draft × Draft) :=
  ms.map fun m => (.text m.1, m.2)

namespace Form

variable {α β : Type} {form : Form α} {source inner : Source} {given : String → Option Draft}
  {a : α} {name : String} {slot : FieldSlot} {d : Draft} {ms : List (String × Draft)}
  {items : List Draft}

/-- These values, given for the fields by their names, make up the record. -/
structure Takes (form : Form α) (source : Source) (given : String → Option Draft) (a : α) :
    Prop where
  /-- the record is made from them -/
  build : form.build source given = .ok a
  /-- each of them passes its check -/
  checks : ∀ name d, given name = some d → form.check name source d = .ok ()

/-! ## Putting forms together -/

theorem takes_single {shape : Shape α} {missing : Except ReadError α}
    (here : given slot.name = some d) (read : shape.decode source d = .ok a) :
    (single slot shape missing).Takes source given a := by
  refine ⟨by simp [single, here, read], fun name d' given' => ?_⟩
  simp only [single]
  split
  · next own =>
    rw [own, here] at given'
    obtain rfl := Option.some.inj given'
    simp [read, Except.map]
  · rfl

theorem takes_field {shape : Shape α} (here : given name = some d)
    (read : shape.decode source d = .ok a) : (field name shape).Takes source given a :=
  takes_single here read

theorem takes_optional {shape : Shape α} {a : Option α} (here : given name = some d)
    (read : shape.option.decode source d = .ok a) : (optional name shape).Takes source given a :=
  takes_single here read

theorem Takes.map (h : form.Takes source given a) (g : α → β) :
    (g <$> form).Takes source given (g a) := by
  refine ⟨?_, h.checks⟩
  change g <$> form.build source given = .ok (g a)
  rw [h.build]
  rfl

theorem Takes.seq {f : Form (α → β)} {g : α → β} (hf : f.Takes source given g)
    (hx : form.Takes source given a) : (f <*> form).Takes source given (g a) := by
  refine ⟨?_, fun name d here => ?_⟩
  · change f.build source given <*> form.build source given = .ok (g a)
    rw [hf.build, hx.build]
    rfl
  · change (f.check name source d *> form.check name source d) = .ok ()
    rw [hf.checks name d here, hx.checks name d here]
    rfl

@[simp] theorem hasField_map (form : Form α) (g : α → β) (name : String) :
    (g <$> form).hasField name = form.hasField name := rfl

@[simp] theorem hasField_seq (f : Form (α → β)) (form : Form α) (name : String) :
    (f <*> form).hasField name = (f.hasField name || form.hasField name) := List.any_append

@[simp] theorem hasField_field (name other : String) (shape : Shape α) :
    (field name shape).hasField other = (name == other) := Bool.or_false _

@[simp] theorem hasField_optional (name other : String) (shape : Shape α) :
    (optional name shape).hasField other = (name == other) := Bool.or_false _

/-! ## Objects -/

/-- A member is found by its name if it is the only one of that name. -/
theorem givenBy_named {m : String × Draft} (hm : m ∈ ms) (only : ∀ n ∈ ms, n.1 = m.1 → n = m) :
    givenBy (Draft.named ms) m.1 = some m.2 := by
  induction ms with
  | nil => cases hm
  | cons n ms ih =>
    obtain ⟨here, rest⟩ := List.forall_mem_cons.1 only
    by_cases same : n.1 = m.1
    · obtain rfl := here same
      simp [givenBy, Draft.named]
    · have later : m ∈ ms := (List.mem_cons.1 hm).resolve_left fun own => same (own ▸ rfl)
      have found := ih later rest
      simpa [givenBy, Draft.named, same] using found

/-- Members pass if those of fields come once and pass their checks, and the others can be
skipped. -/
theorem checkMembers_eq_ok {seen : List String}
    (once : ((ms.filter fun m => form.hasField m.1).map Prod.fst).Nodup)
    (unseen : ∀ m ∈ ms, form.hasField m.1 = true → m.1 ∉ seen)
    (passes : ∀ m ∈ ms, form.hasField m.1 = true → form.check m.1 source m.2 = .ok ())
    (skipped : ∀ m ∈ ms, form.hasField m.1 = false → m.2.skip = none) :
    form.checkMembers source seen (Draft.named ms) = .ok () := by
  induction ms generalizing seen with
  | nil => rfl
  | cons m ms ih =>
    obtain ⟨here, unseen⟩ := List.forall_mem_cons.1 unseen
    obtain ⟨pass, passes⟩ := List.forall_mem_cons.1 passes
    obtain ⟨skip, skipped⟩ := List.forall_mem_cons.1 skipped
    by_cases known : form.hasField m.1 = true
    · rw [List.filter_cons, if_pos known, List.map_cons, List.nodup_cons] at once
      have rest : form.checkMembers source (m.1 :: seen) (Draft.named ms) = .ok () := by
        refine ih once.2 (fun n hn field => ?_) passes skipped
        rw [List.mem_cons, not_or]
        refine ⟨fun same => once.1 (same ▸ ?_), unseen n hn field⟩
        exact List.mem_map_of_mem (List.mem_filter.2 ⟨hn, field⟩)
      rw [Draft.named] at rest
      simp [Draft.named, checkMembers, Draft.key, known, here known, pass known, rest, bind,
        Except.bind]
    · rw [List.filter_cons, if_neg known] at once
      have rest := ih once unseen passes skipped
      rw [Draft.named] at rest
      simp [Draft.named, checkMembers, Draft.key, known, skip (Bool.eq_false_iff.2 known),
        Draft.close, rest, bind, Except.bind]

/-- The record is read from an object that gives each of its fields once. -/
theorem Takes.decode_object (h : form.Takes inner (givenBy (Draft.named ms)) a)
    (enters : source.enter = .ok inner)
    (once : ((ms.filter fun m => form.hasField m.1).map Prod.fst).Nodup)
    (skipped : ∀ m ∈ ms, form.hasField m.1 = false → m.2.skip = none) :
    (form.record name).decode source (.object (Draft.named ms) none) = .ok a := by
  have checked : form.checkMembers inner [] (Draft.named ms) = .ok () := by
    refine checkMembers_eq_ok once (fun _ _ _ => List.not_mem_nil) (fun m hm field => ?_) skipped
    refine h.checks m.1 m.2 (givenBy_named hm fun n hn same => ?_)
    have field' : form.hasField n.1 = true := same ▸ field
    exact List.inj_on_of_nodup_map once (List.mem_filter.2 ⟨hn, field'⟩)
      (List.mem_filter.2 ⟨hm, field⟩) same
  simp [record, enters, checked, Draft.close, h.build, bind, Except.bind]

/-- So it is if there are no others. -/
theorem Takes.decode_fields (h : form.Takes inner (givenBy (Draft.named ms)) a)
    (enters : source.enter = .ok inner) (once : (ms.map Prod.fst).Nodup)
    (known : ∀ m ∈ ms, form.hasField m.1 = true) :
    (form.record name).decode source (.object (Draft.named ms) none) = .ok a := by
  refine h.decode_object enters ?_ fun m hm other => ?_
  · rwa [List.filter_eq_self.2 known]
  · rw [known m hm] at other
    cases other

/-! ## Arrays -/

/-- The item in the place of a field is found by its name. -/
theorem givenInOrder_cons {slots : List FieldSlot} (name : String) :
    givenInOrder (slot :: slots) (d :: items) name =
      if slot.name = name then some d else givenInOrder slots items name := by
  by_cases own : slot.name = name <;> simp [givenInOrder, own]

theorem checkItems_eq_ok {slots : List FieldSlot} {note : String} {ending : Option Fault}
    {index : Nat} (full : items.length = slots.length)
    (passes : ∀ p ∈ slots.zip items, form.check p.1.name source p.2 = .ok ()) :
    form.checkItems source note ending index slots items = .ok [] := by
  induction slots generalizing items index with
  | nil =>
    obtain rfl := List.length_eq_zero_iff.1 full
    rfl
  | cons slot slots ih =>
    obtain ⟨d, items, rfl⟩ := List.exists_cons_of_length_eq_add_one full
    obtain ⟨here, rest⟩ := List.forall_mem_cons.1 passes
    simp [checkItems, here, ih (Nat.succ.inj full) rest, bind, Except.bind]

/-- Each item of an array is given for the field in its place. -/
theorem givenInOrder_of_mem {slots : List FieldSlot} (distinct : (slots.map (·.name)).Nodup)
    {p : FieldSlot × Draft} (hp : p ∈ slots.zip items) :
    givenInOrder slots items p.1.name = some p.2 := by
  induction slots generalizing items with
  | nil => cases hp
  | cons slot slots ih =>
    cases items with
    | nil => cases hp
    | cons d items =>
      rw [List.map_cons, List.nodup_cons] at distinct
      rw [givenInOrder_cons]
      rcases List.mem_cons.1 hp with rfl | hp
      · exact if_pos rfl
      · have other : slot.name ≠ p.1.name := fun same =>
          distinct.1 (same ▸ List.mem_map_of_mem (List.of_mem_zip hp).1)
        rw [if_neg other]
        exact ih distinct.2 hp

/-- The record is read from an array that gives all its fields. -/
theorem Takes.decode_list (h : form.Takes inner (givenInOrder form.slots items) a)
    (enters : source.enter = .ok inner) (full : items.length = form.slots.length)
    (distinct : (form.slots.map (·.name)).Nodup) :
    (form.record name).decode source (.list items none) = .ok a := by
  have checked : form.checkItems inner (lengthNote name form.slots.length) none 0 form.slots items =
      .ok [] :=
    checkItems_eq_ok full fun p hp => h.checks _ _ (givenInOrder_of_mem distinct hp)
  simp [record, enters, checked, closeItems, Draft.close, h.build, bind, Except.bind, pure,
    Except.pure]

end Form

end Runbook
