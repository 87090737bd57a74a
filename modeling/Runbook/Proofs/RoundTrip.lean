import Runbook.Proofs.Forms
import Runbook.Proofs.Reading
import Runbook.Proofs.Regularity

/-!
# Records and their texts

A record is read back from the text that is written for it, and from all texts that tell the same:
its members in another order, among others that are not known, its times in another spelling, its
fields as an array.

* `Json.Plain`, `Draft.value_plain` — values that are not put together, and how they are read.
* `Draft.ofText_object` — an object of such members is read member by member.
* `Form.Spells` — members that give the fields of a form.
* `Form.Spells.read_object`, `Form.Spells.read_list` — a record is read from them.
* `RunRecord.spells_of_told`, `Visit.spells_of_told` — the members of the two records.
* `Form.ReadsBack`, `records_readBack` — both records are read back from all their texts, if clocks
  show their times; and so they do if the record was read itself.
* `stray_differs` — a record with another time is read back as another record.
-/

namespace Runbook

open Json

/-! ## Plain values -/

namespace Json

/-- The value is not put together from others, and if it is a number it is an integer. The integer
may be too large to be read as one. -/
def Plain : Json → Prop
  | null | bool _ | int _ | text _ => True
  | real _ | list _ | object _ => False

/-- The draft of the text of the value. -/
def draft (v : Json) : Draft := (Draft.ofText v.print).1

theorem draft_of_whole {v : Json} (whole : v.Whole) : v.draft = Draft.ofJson v := by
  rw [draft, Draft.ofText_print whole]

/-- An integer of any size is scanned to its end. -/
theorem exists_scan_toString (i : Int) : ∃ numeral, ∀ rest, Ends rest →
    Numeral.scan ((toString i).toList ++ rest) = .ok (numeral, rest) := by
  cases i with
  | ofNat n =>
    refine ⟨⟨false, Nat.toDigits 10 n, none, none⟩, fun rest ends => ?_⟩
    rw [Int.ofNat_eq_natCast, toList_toString_natCast]
    exact Numeral.scan_toDigits n ends
  | negSucc n =>
    refine ⟨⟨true, Nat.toDigits 10 (n + 1), none, none⟩, fun rest ends => ?_⟩
    rw [toList_toString_negSucc]
    exact Numeral.scan_minus_toDigits (n + 1) ends

end Json

namespace Draft

variable {v : Json} {ms : List (String × Json)} {s rest : List Char} {fuel : Nat}

/-- A value that can be passed over: text follows it, and it has no fault. -/
def Passable (d : Draft) : Prop := d.isBroken = false ∧ d.skip = none

/-- So can a number be, even if it is too large to be read. -/
theorem exists_passable_numeral (numeral : Numeral) : ∃ d : Draft, d.Passable ∧
    ∀ s rest, Numeral.scan s = .ok (numeral, rest) → ofNumber s = (d, rest) := by
  cases value : numeral.value with
  | none =>
    refine ⟨.outsize, ⟨rfl, rfl⟩, fun s rest scanned => ?_⟩
    simp [ofNumber, scanned, value]
  | some j =>
    cases j with
    | int i =>
      refine ⟨.int i, ⟨rfl, rfl⟩, fun s rest scanned => ?_⟩
      simp [ofNumber, scanned, value]
    | real x =>
      refine ⟨.real x, ⟨rfl, rfl⟩, fun s rest scanned => ?_⟩
      simp [ofNumber, scanned, value]
    | _ =>
      refine ⟨.outsize, ⟨rfl, rfl⟩, fun s rest scanned => ?_⟩
      simp [ofNumber, scanned, value]

/-- A plain value is read at the front of a text. -/
theorem exists_value_plain (plain : v.Plain) : ∃ d : Draft, d.Passable ∧
    ∀ fuel rest, v.chars.length ≤ fuel → Ends rest → value fuel (v.chars ++ rest) = (d, rest) := by
  cases v with
  | null =>
    exact ⟨.null, ⟨rfl, rfl⟩, fun fuel rest enough => value_chars .null trivial fuel enough⟩
  | bool b =>
    exact ⟨.bool b, ⟨rfl, rfl⟩, fun fuel rest enough => value_chars (.bool b) trivial fuel enough⟩
  | text t =>
    exact ⟨.text t, ⟨rfl, rfl⟩, fun fuel rest enough => value_chars (.text t) trivial fuel enough⟩
  | int i =>
    obtain ⟨numeral, scanned⟩ := exists_scan_toString i
    obtain ⟨d, passable, read⟩ := exists_passable_numeral numeral
    refine ⟨d, passable, fun fuel rest enough ends => ?_⟩
    obtain ⟨c, s, text, number⟩ := exists_cons_toString i
    have here := read _ _ (scanned rest ends)
    rw [Json.chars, text] at enough
    rw [text, List.cons_append] at here
    obtain ⟨fuel, rfl⟩ : ∃ n, fuel = n + 1 :=
      Nat.exists_eq_succ_of_ne_zero (Nat.ne_of_gt (Nat.lt_of_lt_of_le (Nat.succ_pos _) enough))
    rw [Json.chars, text, List.cons_append, value_number number, here]
  | real _ | list _ | object _ => exact plain.elim

/-- It is read there as it is alone. -/
theorem value_plain (plain : v.Plain) : v.draft.Passable ∧
    ∀ fuel rest, v.chars.length ≤ fuel → Ends rest →
      value fuel (v.chars ++ rest) = (v.draft, rest) := by
  obtain ⟨d, passable, read⟩ := exists_value_plain plain
  have alone := read (2 * v.chars.length + 2) [] (by omega) (by simp [Ends])
  rw [List.append_nil] at alone
  have own : v.draft = d := by simp [Json.draft, ofText, Json.print, alone]
  rw [own]
  exact ⟨passable, read⟩

/-! ## Objects of plain values -/

/-- The drafts of members. -/
def ofPlain (ms : List (String × Json)) : List (String × Draft) := ms.map fun m => (m.1, m.2.draft)

/-- After the first member the others follow. -/
theorem members_plain (plain : ∀ m ∈ ms, m.2.Plain) (enough : (memberChars ms).length ≤ fuel + 1)
    {k : String} {d : Draft} {more : List Char} (key : value fuel s = (.text k, ':' :: more))
    (here : value fuel more = (d, memberChars ms ++ rest)) (well : d.isBroken = false) :
    members (fuel + 1) s = (.object (named ((k, d) :: ofPlain ms)) none, rest) := by
  induction ms generalizing fuel s k d more with
  | nil => exact members_last key here well
  | cons m ms ih =>
    obtain ⟨l, w⟩ := m
    obtain ⟨first, others⟩ : w.Plain ∧ ∀ m ∈ ms, m.2.Plain := List.forall_mem_cons.1 plain
    obtain ⟨passable, read⟩ := value_plain first
    have closing := length_memberChars_pos ms
    simp only [memberChars, printText, List.cons_append, List.length_cons, List.length_append,
      List.append_assoc] at enough here
    obtain ⟨fuel, rfl⟩ : ∃ n, fuel = n + 1 + 1 := ⟨fuel - 2, by omega⟩
    have next := value_printText l fuel (':' :: (w.chars ++ (memberChars ms ++ rest)))
    have value := read (fuel + 1) _ (by omega) (ends_memberChars ms rest)
    have later := ih others (by omega) next value passable.1
    simp only [printText, List.cons_append, List.append_assoc] at later
    exact members_more key here well later

/-- An object of plain values is read member by member. -/
theorem value_object_plain (plain : ∀ m ∈ ms, m.2.Plain)
    (enough : (Json.object ms).chars.length ≤ fuel) :
    value fuel ((Json.object ms).chars ++ rest) = (.object (named (ofPlain ms)) none, rest) := by
  cases ms with
  | nil =>
    obtain ⟨fuel, rfl⟩ : ∃ n, fuel = n + 1 :=
      Nat.exists_eq_succ_of_ne_zero (Nat.ne_of_gt (Nat.lt_of_lt_of_le (by decide) enough))
    rfl
  | cons m ms =>
    obtain ⟨k, v⟩ := m
    obtain ⟨first, others⟩ : v.Plain ∧ ∀ m ∈ ms, m.2.Plain := List.forall_mem_cons.1 plain
    obtain ⟨passable, read⟩ := value_plain first
    simp only [Json.chars, printText, List.cons_append, List.length_cons, List.length_append,
      List.append_assoc] at enough ⊢
    obtain ⟨fuel, rfl⟩ : ∃ n, fuel = n + 1 + 1 + 1 := ⟨fuel - 3, by omega⟩
    have key := value_printText k fuel (':' :: (v.chars ++ (memberChars ms ++ rest)))
    have here := read (fuel + 1) _ (by omega) (ends_memberChars ms rest)
    have inside := members_plain others (by omega) key here passable.1
    simp only [printText, List.cons_append, List.append_assoc] at inside
    exact (value_object _ _).trans inside

theorem ofText_object (plain : ∀ m ∈ ms, m.2.Plain) :
    ofText (Json.object ms).print = (.object (named (ofPlain ms)) none, false) := by
  have read : value (2 * (Json.object ms).chars.length + 2) ((Json.object ms).chars ++ []) =
      (.object (named (ofPlain ms)) none, []) := value_object_plain plain (by omega)
  rw [List.append_nil] at read
  simp only [ofText, Json.print, String.toList_ofList, read]
  rfl

end Draft

/-! ## Members of a record -/

theorem Draft.ofItems_eq_map (xs : List Json) : Draft.ofItems xs = xs.map Draft.ofJson := by
  induction xs with
  | nil => rfl
  | cons x xs ih => rw [Draft.ofItems, ih, List.map_cons]

theorem Json.wholeItems_iff (xs : List Json) : WholeItems xs ↔ ∀ x ∈ xs, x.Whole := by
  induction xs with
  | nil => simp [WholeItems]
  | cons x xs ih => rw [WholeItems, ih, List.forall_mem_cons]

namespace Form

variable {α : Type} {form : Form α} {name : String} {a : α}
  {fields extra members : List (String × Json)}

/-- These members give all fields of the form in order, and make up the record. -/
structure Spells (form : Form α) (fields : List (String × Json)) (a : α) : Prop where
  /-- they are named for the fields -/
  names : fields.map Prod.fst = form.slots.map (·.name)
  /-- no two fields have one name -/
  distinct : (fields.map Prod.fst).Nodup
  /-- their values are plain, and all integers are read as such -/
  plain : ∀ m ∈ fields, m.2.Plain ∧ m.2.Whole
  /-- the record is made from them -/
  takes : ∀ source given, (∀ m ∈ fields, given m.1 = some (Draft.ofJson m.2)) →
    form.Takes source given a

theorem Spells.hasField (h : form.Spells fields a) {m : String × Json} (hm : m ∈ fields) :
    form.hasField m.1 = true := by
  have named : m.1 ∈ form.slots.map (·.name) := h.names ▸ List.mem_map_of_mem hm
  obtain ⟨slot, listed, own⟩ := List.mem_map.1 named
  exact List.any_eq_true.2 ⟨slot, listed, beq_iff_eq.2 own⟩

/-- What the members may stand among: others that are not known. -/
def Unknown (form : Form α) (extra : List (String × Json)) : Prop :=
  ∀ m ∈ extra, form.hasField m.1 = false ∧ m.2.Plain

/-- A field is found by its name among members in any order. -/
theorem Spells.givenBy_eq (h : form.Spells fields a) (unknown : form.Unknown extra)
    (order : members.Perm (fields ++ extra)) {m : String × Json} (hm : m ∈ fields) :
    givenBy (Draft.named (Draft.ofPlain members)) m.1 = some (Draft.ofJson m.2) := by
  have known := h.hasField hm
  have listed : m ∈ members := order.mem_iff.2 (List.mem_append_left _ hm)
  have found : givenBy (Draft.named (Draft.ofPlain members)) m.1 = some m.2.draft := by
    refine givenBy_named (m := (m.1, m.2.draft)) (List.mem_map.2 ⟨m, listed, rfl⟩)
      fun d hd same => ?_
    obtain ⟨n, hn, rfl⟩ := List.mem_map.1 hd
    rcases List.mem_append.1 (order.mem_iff.1 hn) with field | other
    · rw [List.inj_on_of_nodup_map h.distinct field hm same]
    · have absent := (unknown n other).1
      rw [show n.1 = m.1 from same, known] at absent
      cases absent
  rw [found, draft_of_whole (h.plain m hm).2]

/-- The record is read from an object of these members in any order, among others. -/
theorem Spells.read_object (h : form.Spells fields a) (unknown : form.Unknown extra)
    (order : members.Perm (fields ++ extra)) :
    Json.read (form.record name) (Json.object members).print = .ok a := by
  have plain (m : String × Json) (hm : m ∈ members) : m.2.Plain := by
    rcases List.mem_append.1 (order.mem_iff.1 hm) with field | other
    · exact (h.plain m field).1
    · exact (unknown m other).2
  have takes := h.takes (.text (nestingLimit - 1)) _ fun m hm => h.givenBy_eq unknown order hm
  have once : (((Draft.ofPlain members).filter fun m => form.hasField m.1).map Prod.fst).Nodup := by
    have known : (fields ++ extra).filter (fun m => form.hasField m.1) = fields := by
      rw [List.filter_append, List.filter_eq_self.2 fun m hm => h.hasField hm,
        List.filter_eq_nil_iff.2 fun m hm => by simp [(unknown m hm).1], List.append_nil]
    have same : ((Draft.ofPlain members).filter fun m => form.hasField m.1).map Prod.fst =
        (members.filter fun m => form.hasField m.1).map Prod.fst := by
      simp [Draft.ofPlain, List.filter_map, Function.comp_def]
    rw [same]
    exact ((known ▸ order.filter _).map Prod.fst).nodup_iff.2 h.distinct
  have skipped (m : String × Draft) (hm : m ∈ Draft.ofPlain members)
      (other : form.hasField m.1 = false) : m.2.skip = none := by
    obtain ⟨n, hn, rfl⟩ := List.mem_map.1 hm
    exact (Draft.value_plain (plain n hn)).1.2
  have decoded : (form.record name).decode (.text nestingLimit)
      (.object (Draft.named (Draft.ofPlain members)) none) = .ok a :=
    takes.decode_object rfl once skipped
  simp [Json.read, Draft.ofText_object plain, decoded, bind, Except.bind, pure, Except.pure]

/-- A field is found by its name among values in order. -/
theorem givenInOrder_eq {slots : List FieldSlot}
    (names : fields.map Prod.fst = slots.map (·.name)) (distinct : (fields.map Prod.fst).Nodup)
    {m : String × Json} (hm : m ∈ fields) :
    givenInOrder slots (fields.map fun m => Draft.ofJson m.2) m.1 = some (Draft.ofJson m.2) := by
  induction fields generalizing slots with
  | nil => cases hm
  | cons n fields ih =>
    cases slots with
    | nil => cases names
    | cons slot slots =>
      obtain ⟨own, names⟩ := List.cons.inj names
      rw [List.map_cons, List.nodup_cons] at distinct
      rw [List.map_cons, givenInOrder_cons]
      rcases List.mem_cons.1 hm with rfl | hm
      · rw [if_pos own.symm]
      · have other : slot.name ≠ m.1 := fun same =>
          distinct.1 ((own.trans same) ▸ List.mem_map_of_mem hm)
        rw [if_neg other]
        exact ih names distinct.2 hm

/-- The record is read from an array of their values. -/
theorem Spells.read_list (h : form.Spells fields a) :
    Json.read (form.record name) (Json.list (fields.map Prod.snd)).print = .ok a := by
  have items : Draft.ofItems (fields.map Prod.snd) = fields.map fun m => Draft.ofJson m.2 := by
    rw [Draft.ofItems_eq_map, List.map_map]
    rfl
  have whole : (Json.list (fields.map Prod.snd)).Whole := by
    refine (Json.wholeItems_iff _).2 fun v hv => ?_
    obtain ⟨m, hm, rfl⟩ := List.mem_map.1 hv
    exact (h.plain m hm).2
  have full : fields.length = form.slots.length := by
    simpa using congrArg List.length h.names
  have takes := h.takes (.text (nestingLimit - 1)) _
    fun m hm => givenInOrder_eq h.names h.distinct hm
  have decoded : (form.record name).decode (.text nestingLimit)
      (.list (fields.map fun m => Draft.ofJson m.2) none) = .ok a :=
    takes.decode_list rfl (by rw [List.length_map, full]) (h.names ▸ h.distinct)
  simp [Json.read, Draft.ofText_print whole, Draft.ofJson, items, decoded, bind, Except.bind, pure,
    Except.pure]

/-- The record is read back from its own text, and from all texts that tell it. -/
structure ReadsBack (form : Form α) (name : String) (encode : α → Json)
    (Told : α → List (String × Json) → Prop) (a : α) : Prop where
  /-- its own text tells it -/
  told : ∃ fields, Told a fields ∧ encode a = .object fields
  /-- it is read from its own text -/
  own : Json.read (form.record name) (encode a).print = .ok a
  /-- it is read from an object of its members in any order, among others that are not known -/
  object : ∀ fields extra members, Told a fields → form.Unknown extra →
    members.Perm (fields ++ extra) →
    Json.read (form.record name) (Json.object members).print = .ok a
  /-- it is read from an array of its fields -/
  list : ∀ fields, Told a fields →
    Json.read (form.record name) (Json.list (fields.map Prod.snd)).print = .ok a

/-- So it is if its members make it up. -/
theorem readsBack {encode : α → Json} {Told : α → List (String × Json) → Prop}
    (told : ∃ fields, Told a fields ∧ encode a = .object fields)
    (spells : ∀ fields, Told a fields → form.Spells fields a) :
    form.ReadsBack name encode Told a := by
  have object (fields extra members) (told : Told a fields) (unknown : form.Unknown extra)
      (order : members.Perm (fields ++ extra)) :
      Json.read (form.record name) (Json.object members).print = .ok a :=
    (spells fields told).read_object unknown order
  have own : Json.read (form.record name) (encode a).print = .ok a := by
    obtain ⟨fields, told, written⟩ := told
    have nothing : form.Unknown [] := fun _ h => by cases h
    rw [written]
    exact object fields [] fields told nothing (by rw [List.append_nil])
  exact ⟨told, own, object, fun fields told => (spells fields told).read_list⟩

end Form

/-! ## The records -/

variable {source : Source}

theorem Status.decode_name (status : Status) :
    Status.shape.decode source (.text status.name) = .ok status := by
  cases status <;> rfl

theorem NodeKind.decode_name (kind : NodeKind) :
    NodeKind.shape.decode source (.text kind.name) = .ok kind := by
  cases kind <;> rfl

/-- A time is read from each of its spellings. -/
theorem Instant.decode_of_spelled {t : Instant} {text : String} (h : t.Civil)
    (spelled : t.Spelled text) : Instant.shape.decode source (.text text) = .ok t := by
  have parsed := Instant.parse_of_spelled h.years spelled
  rw [Instant.carried_eq h.regular] at parsed
  simp [Instant.shape, Shape.formatted, parsed, Except.mapError]

/-- A time that may be missing is read from each of its spellings, and from `null`. -/
theorem Instant.decode_option {t : Option Instant} {text : Option String}
    (h : ∀ u ∈ t, u.Civil) (spelled : Option.Rel Instant.Spelled t text) :
    Instant.shape.option.decode source (Draft.ofJson (Json.ofOption Json.text text)) = .ok t := by
  cases spelled with
  | none => rfl
  | @some u text spelled =>
    have read : Instant.shape.decode source (.text text) = .ok u :=
      Instant.decode_of_spelled (h u rfl) spelled
    simp [Json.ofOption, Draft.ofJson, Shape.option, read, Except.map]

namespace RunRecord

/-- The members of the record, with these texts of its times. -/
def members (r : RunRecord) (created updated : String) : List (String × Json) :=
  [("id", .text r.id), ("name", .text r.name), ("biz_id", .text r.bizId),
    ("biz_type", .text r.bizType), ("tenant_id", .text r.tenantId),
    ("status", .text r.status.name), ("context", .text r.context),
    ("created_at", .text created), ("updated_at", .text updated)]

/-- These are the members of the record, its times in any spelling. -/
def Told (r : RunRecord) (fields : List (String × Json)) : Prop :=
  ∃ created updated, r.createdAt.Spelled created ∧ r.updatedAt.Spelled updated ∧
    fields = r.members created updated

/-- They make up the record. -/
theorem spells_of_told {r : RunRecord} {fields : List (String × Json)}
    (times : r.EveryTime Instant.Civil) (told : r.Told fields) : form.Spells fields r := by
  obtain ⟨created, updated, first, last, rfl⟩ := told
  refine ⟨rfl, by simp [members], by simp [members, Json.Plain, Json.Whole],
    fun source given found => ?_⟩
  simp only [members, List.forall_mem_cons] at found
  obtain ⟨id, name, bizId, bizType, tenantId, status, context, createdAt, updatedAt, -⟩ := found
  exact ((((((((((Form.takes_field id rfl).map RunRecord.mk).seq (Form.takes_field name rfl)).seq
    (Form.takes_field bizId rfl)).seq (Form.takes_field bizType rfl)).seq
    (Form.takes_field tenantId rfl)).seq (Form.takes_field status (Status.decode_name _))).seq
    (Form.takes_field context rfl)).seq
    (Form.takes_field createdAt (Instant.decode_of_spelled times.1 first))).seq
    (Form.takes_field updatedAt (Instant.decode_of_spelled times.2 last)))

end RunRecord

namespace Visit

/-- The members of the record, with these texts of its times. -/
def members (v : Visit) (start : String) (ended : Option String) : List (String × Json) :=
  [("id", .text v.id), ("parent_id", .text v.parentId), ("biz_id", .text v.bizId),
    ("tenant_id", .text v.tenantId), ("name", .text v.name), ("status", .text v.status.name),
    ("result", .text v.result), ("return_type", .text v.kind.name),
    ("operation_id", .text v.operationId), ("start_time", .text start),
    ("end_time", Json.ofOption Json.text ended)]

/-- These are the members of the record, its times in any spelling. -/
def Told (v : Visit) (fields : List (String × Json)) : Prop :=
  ∃ start ended, v.startTime.Spelled start ∧ Option.Rel Instant.Spelled v.endTime ended ∧
    fields = v.members start ended

/-- They make up the record. -/
theorem spells_of_told {v : Visit} {fields : List (String × Json)}
    (times : v.EveryTime Instant.Civil) (told : v.Told fields) : form.Spells fields v := by
  obtain ⟨start, ended, first, last, rfl⟩ := told
  have plain : (Json.ofOption Json.text ended).Plain ∧ (Json.ofOption Json.text ended).Whole := by
    cases ended <;> exact ⟨trivial, trivial⟩
  refine ⟨rfl, by simp [members], by simpa [members, Json.Plain, Json.Whole] using plain,
    fun source given found => ?_⟩
  simp only [members, List.forall_mem_cons] at found
  obtain ⟨id, parentId, bizId, tenantId, name, status, result, kind, operationId, startTime,
    endTime, -⟩ := found
  exact ((((((((((((Form.takes_field id rfl).map Visit.mk).seq (Form.takes_field parentId rfl)).seq
    (Form.takes_field bizId rfl)).seq (Form.takes_field tenantId rfl)).seq
    (Form.takes_field name rfl)).seq (Form.takes_field status (Status.decode_name _))).seq
    (Form.takes_field result rfl)).seq (Form.takes_field kind (NodeKind.decode_name _))).seq
    (Form.takes_field operationId rfl)).seq
    (Form.takes_field startTime (Instant.decode_of_spelled times.1 first))).seq
    (Form.takes_optional endTime (Instant.decode_option times.2 last)))

end Visit

/-- A run is read back from all its texts, if clocks show its times in years of four digits. -/
theorem RunRecord.readsBack {r : RunRecord} (times : r.EveryTime Instant.Civil) :
    form.ReadsBack "WorkflowInstance" toJson Told r :=
  Form.readsBack ⟨_, ⟨_, _, .inl rfl, .inl rfl, rfl⟩, rfl⟩ fun _ told => spells_of_told times told

/-- So is a visit. -/
theorem Visit.readsBack {v : Visit} (times : v.EveryTime Instant.Civil) :
    form.ReadsBack "WorkflowNode" toJson Told v := by
  have ended : Option.Rel Instant.Spelled v.endTime (v.endTime.map Instant.print) := by
    cases v.endTime with
    | none => exact .none
    | some t => exact .some (.inl rfl)
  have written : Json.ofOption Instant.toJson v.endTime =
      Json.ofOption Json.text (v.endTime.map Instant.print) := by
    cases v.endTime <;> rfl
  refine Form.readsBack ⟨_, ⟨_, _, .inl rfl, ended, rfl⟩, ?_⟩ fun fields told => ?_
  · rw [toJson, written, members]
    rfl
  · exact spells_of_told times told

/-- Both records are read back from all their texts, if clocks show their times in years of four
digits. A record that was read from any text has times that clocks show. So writing and reading it
again changes nothing, if their years have four digits. -/
theorem records_readBack :
    (∀ r : RunRecord, r.EveryTime Instant.Civil →
      RunRecord.form.ReadsBack "WorkflowInstance" RunRecord.toJson RunRecord.Told r) ∧
    (∀ v : Visit, v.EveryTime Instant.Civil →
      Visit.form.ReadsBack "WorkflowNode" Visit.toJson Visit.Told v) ∧
    (∀ text r, Json.read RunRecord.shape text = .ok r → r.EveryTime Instant.FourDigits →
      Json.read RunRecord.shape r.toJson.print = .ok r) ∧
    ∀ text v, Json.read Visit.shape text = .ok v → v.EveryTime Instant.FourDigits →
      Json.read Visit.shape v.toJson.print = .ok v := by
  refine ⟨fun r => RunRecord.readsBack, fun v => Visit.readsBack, fun text r read years => ?_,
    fun text v read years => ?_⟩
  · have regular := RunRecord.regular_of_read read
    exact (RunRecord.readsBack ⟨⟨years.1, regular.1⟩, ⟨years.2, regular.2⟩⟩).own
  · have regular := Visit.regular_of_read read
    exact (Visit.readsBack ⟨⟨years.1, regular.1⟩,
      fun t ended => ⟨years.2 t ended, regular.2 t ended⟩⟩).own

/-- The leap second at the end of 2016. -/
def leapSecond : Instant := ⟨1483228799, 1500000000, by decide⟩

/-- A run that was created then. -/
def RunRecord.atLeapSecond : RunRecord where
  id := "r1"
  name := "close\t\"books\""
  bizId := "b"
  bizType := "ledger"
  tenantId := ""
  status := .canceled
  context := "\x7b\x7d"
  createdAt := leapSecond
  updatedAt := ⟨1483228800, 1000, by decide⟩

/-- A visit that ended then. -/
def Visit.atLeapSecond : Visit where
  id := "v1"
  parentId := "r1"
  bizId := "b"
  tenantId := ""
  name := "close"
  status := .error
  result := "é\n"
  kind := .polling
  operationId := "op"
  startTime := .ofMicros 1483228798000000
  endTime := some leapSecond

/-- The run is read from an object in another order, with a number that no word holds, and with its
time as clocks show it that are five hours and a half ahead; then it is read from its own text. The
visit is read from an array, with its time as clocks show it that are half an hour behind. -/
theorem atLeapSecond_readBack :
    (RunRecord.atLeapSecond.EveryTime Instant.Civil ∧
      Visit.atLeapSecond.EveryTime Instant.Civil) ∧
    Json.read RunRecord.shape (Json.object [("shard", .int 123456789012345678901234567890),
      ("updated_at", .text "2017-01-01T00:00:00.000001Z"),
      ("created_at", .text "2017-01-01T05:29:60.500+05:30"), ("context", .text "\x7b\x7d"),
      ("status", .text "Canceled"), ("tenant_id", .text ""), ("biz_type", .text "ledger"),
      ("biz_id", .text "b"), ("name", .text "close\t\"books\""), ("id", .text "r1")]).print =
        .ok RunRecord.atLeapSecond ∧
    Json.read RunRecord.shape RunRecord.atLeapSecond.toJson.print = .ok RunRecord.atLeapSecond ∧
    Json.read Visit.shape (Json.list [.text "v1", .text "r1", .text "b", .text "", .text "close",
      .text "Error", .text "é\n", .text "PollingNode", .text "op", .text "2016-12-31T23:59:58Z",
      .text "2016-12-31T23:29:60.500-00:30"]).print = .ok Visit.atLeapSecond := by
  have times : RunRecord.atLeapSecond.EveryTime Instant.Civil ∧
      Visit.atLeapSecond.EveryTime Instant.Civil := by decide +kernel
  obtain ⟨runs, visits, again, -⟩ := records_readBack
  have run := runs RunRecord.atLeapSecond times.1
  have visit := visits Visit.atLeapSecond times.2
  have read : Json.read RunRecord.shape (Json.object [("shard",
      .int 123456789012345678901234567890), ("updated_at", .text "2017-01-01T00:00:00.000001Z"),
      ("created_at", .text "2017-01-01T05:29:60.500+05:30"), ("context", .text "\x7b\x7d"),
      ("status", .text "Canceled"), ("tenant_id", .text ""), ("biz_type", .text "ledger"),
      ("biz_id", .text "b"), ("name", .text "close\t\"books\""), ("id", .text "r1")]).print =
        .ok RunRecord.atLeapSecond := by
    have created : leapSecond.Spelled "2017-01-01T05:29:60.500+05:30" :=
      .inr ⟨330, by decide, by decide +kernel, by decide +kernel⟩
    have updated : RunRecord.atLeapSecond.updatedAt.Spelled "2017-01-01T00:00:00.000001Z" :=
      .inl (by decide +kernel)
    -- a member no record has, which a reader is to skip
    have unknown : RunRecord.form.Unknown [("shard", .int 123456789012345678901234567890)] := by
      intro m hm
      obtain rfl := List.mem_singleton.1 hm
      exact ⟨by decide, trivial⟩
    have backwards := List.reverse_perm (RunRecord.atLeapSecond.members
      "2017-01-01T05:29:60.500+05:30" "2017-01-01T00:00:00.000001Z")
    exact run.object _ _ _ ⟨_, _, created, updated, rfl⟩ unknown
      ((backwards.cons _).trans (List.perm_append_singleton _ _).symm)
  refine ⟨times, read, again _ _ read ⟨times.1.1.years, times.1.2.years⟩, ?_⟩
  have start : Visit.atLeapSecond.startTime.Spelled "2016-12-31T23:59:58Z" :=
    .inl (by decide +kernel)
  have ended : leapSecond.Spelled "2016-12-31T23:29:60.500-00:30" :=
    .inr ⟨-30, by decide, by decide +kernel, by decide +kernel⟩
  exact visit.list (Visit.atLeapSecond.members "2016-12-31T23:59:58Z"
    (some "2016-12-31T23:29:60.500-00:30")) ⟨_, _, start, .some ended, rfl⟩

/-- A run that is created in the first second of 1970, with as many nanoseconds as if a leap second
followed it. -/
def RunRecord.stray : RunRecord := .create "r" "p" "b" "t" "u" ⟨0, 1500000000, by decide⟩

/-- It is read back as a run that is created in the second that does follow. And a run that is
created at the start of 1970 is not read at all if this is told as clocks show it that are a whole
day ahead. -/
theorem stray_differs :
    (RunRecord.stray.EveryTime Instant.FourDigits ∧
      ∃ r, Json.read RunRecord.shape RunRecord.stray.toJson.print = .ok r ∧ r ≠ RunRecord.stray) ∧
    let r := RunRecord.create "r" "p" "b" "t" "u" .epoch
    (r.createdAt.ahead 1440).FourDigits ∧
      ∀ s, Json.read RunRecord.shape (Json.object (r.members (r.createdAt.printAhead 1440)
        r.updatedAt.print)).print ≠ .ok s := by
  refine ⟨⟨by decide +kernel, .create "r" "p" "b" "t" "u" ⟨1, 500000000, by decide⟩, ?_, by decide⟩,
    by decide +kernel, fun s read => ?_⟩
  · have next : (Json.read RunRecord.shape RunRecord.stray.toJson.print).toOption =
        some (.create "r" "p" "b" "t" "u" ⟨1, 500000000, by decide⟩) := by decide +kernel
    cases read : Json.read RunRecord.shape RunRecord.stray.toJson.print with
    | error e =>
      rw [read] at next
      cases next
    | ok r =>
      rw [read] at next
      exact congrArg Except.ok (Option.some.inj next)
  · have failed : (Json.read RunRecord.shape (Json.object
        ((RunRecord.create "r" "p" "b" "t" "u" .epoch).members (Instant.epoch.printAhead 1440)
          Instant.epoch.print)).print).toOption = none := by decide +kernel
    have clash : some s = none := (congrArg Except.toOption read).symm.trans failed
    cases clash

end Runbook
