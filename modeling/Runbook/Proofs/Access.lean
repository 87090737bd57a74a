import Mathlib.Algebra.Group.Int.Defs
import Mathlib.Algebra.Group.Nat.Defs
import Runbook.Proofs.Forms
import Runbook.Proofs.Snapshot
import Runbook.Script
import Runbook.Settings

/-!
# Typed access to the context

What is stored in a context as a value of some type is read as that value, and nothing else in the
context changes.

* `Json.decode_integer_iff`, `Json.decode_natural_iff` — only integers in range are read as
  integers.
* `Codec.Keeps`, `Codec.Keeps.list`, `Codec.Keeps.option`, `Codec.Keeps.catalog` — what is stored
  for a value is read as the value.
* `Codec.Covered` — the types that contexts are written and read at.
* `Context.Access`, `Context.access` — what becomes of a value that is stored, and what is read.
-/

namespace Runbook

/-! ## Reading numbers -/

namespace Json

variable {j : Json} {low high i : Int} {bits n : Nat} {name : String}

/-- Only an integer in its range is read as an integer. -/
theorem decode_integer_iff : decode (Shape.integer low high name) j = .ok i ↔
    j = .int i ∧ low ≤ i ∧ i ≤ high := by
  cases j with
  | int m =>
    simp only [decode, Draft.ofJson, Shape.integer, int.injEq]
    split
    · next inside =>
      simp only [Except.ok.injEq]
      refine ⟨fun same => ⟨same, same ▸ inside⟩, And.left⟩
    · next outside =>
      simp only [reduceCtorEq, false_iff, not_and]
      rintro rfl
      exact not_and.1 outside
  | _ => simp [decode, Draft.ofJson, Shape.integer, Draft.mismatch, Draft.found, bind, Except.bind]

/-- So it is with natural numbers. -/
theorem decode_natural_iff : decode (Shape.natural bits name) j = .ok n ↔
    j = .int n ∧ n < 2 ^ bits := by
  have read : decode (Shape.natural bits name) j =
      (decode (Shape.integer 0 ((1 <<< bits : Nat) - 1) name) j).map Int.toNat := rfl
  rw [read, Nat.one_shiftLeft]
  constructor
  · intro answer
    cases number : decode (Shape.integer 0 ((2 ^ bits : Nat) - 1) name) j with
    | error e =>
      rw [number] at answer
      cases answer
    | ok i =>
      rw [number] at answer
      obtain rfl : i.toNat = n := Except.ok.inj answer
      obtain ⟨rfl, low, high⟩ := decode_integer_iff.1 number
      exact ⟨by rw [Int.toNat_of_nonneg low], by omega⟩
  · rintro ⟨rfl, small⟩
    have number : decode (Shape.integer 0 ((2 ^ bits : Nat) - 1) name) (.int n) = .ok n :=
      decode_integer_iff.2 ⟨rfl, by omega, by omega⟩
    rw [number]
    rfl

end Json

/-! ## Codecs -/

/-- A value that is stored for another one is `null` only if that one is. -/
theorem Datum.eq_null_of_toJson {j : Json} (stored : (Datum.ofJson j).toJson = .ok .null) :
    j = .null := by
  cases j with
  | null => rfl
  | int i =>
    rw [ofJson, toJson] at stored
    split at stored <;> cases stored
  | list xs =>
    rw [ofJson, toJson] at stored
    cases items : itemsToJson (ofItems xs) <;> rw [items] at stored <;> cases stored
  | object ms =>
    rw [ofJson, toJson] at stored
    cases members : entriesToJson (ofMembers ms) <;> rw [members] at stored <;> cases stored
  | _ => cases stored

namespace Codec

variable {α : Type} {k : Codec α} {P : α → Prop} {bits : Nat}

/-- Signed integers of a width. -/
def integer (bits : Nat) : Codec Int :=
  ⟨.int, Shape.integer (-2 ^ (bits - 1)) (2 ^ (bits - 1) - 1) ("i" ++ toString bits)⟩

/-- States, by their names. -/
def status : Codec Status := ⟨fun s => .text s.name, Status.shape⟩

/-- Policies, by their names. -/
def policy : Codec WritePolicy := ⟨fun p => .text p.name, WritePolicy.shape⟩

/-- What is stored for such a value is read as the value. -/
def Keeps (k : Codec α) (P : α → Prop) : Prop :=
  ∀ a, P a → ∃ j, (Datum.ofJson (k.encode a)).toJson = .ok j ∧ Json.decode k.shape j = .ok a

/-! ### Plain values -/

/-- An integer of 64 bits is stored as it is. -/
theorem toJson_integer {i : Int} (low : -2 ^ 63 ≤ i) (high : i < 2 ^ 64) :
    (Datum.ofJson (.int i)).toJson = .ok (.int i) := by
  rw [Datum.ofJson, Datum.toJson, if_pos]
  exact ⟨low, high⟩

theorem keeps_natural (fits : bits ≤ 64) : (natural bits).Keeps (· < 2 ^ bits) := by
  intro n small
  have word : n < 2 ^ 64 := Nat.lt_of_lt_of_le small (Nat.pow_le_pow_right (by decide) fits)
  exact ⟨.int n, toJson_integer (by omega) (by exact_mod_cast word),
    Json.decode_natural_iff.2 ⟨rfl, small⟩⟩

theorem keeps_integer (fits : bits ≤ 64) :
    (integer bits).Keeps fun i => -2 ^ (bits - 1) ≤ i ∧ i < 2 ^ (bits - 1) := by
  rintro i ⟨low, high⟩
  have word : 2 ^ (bits - 1) ≤ 2 ^ 63 :=
    Nat.pow_le_pow_right (by decide) (Nat.sub_le_sub_right fits 1)
  have word : (2 : Int) ^ (bits - 1) ≤ 2 ^ 63 := by exact_mod_cast word
  refine ⟨.int i, toJson_integer (by omega) (by omega), ?_⟩
  exact Json.decode_integer_iff.2 ⟨rfl, low, by omega⟩

theorem keeps_int64 : int64.Keeps fun i => -2 ^ 63 ≤ i ∧ i < 2 ^ 63 := by
  rintro i ⟨low, high⟩
  have top : Int64.maxValue.toInt = 2 ^ 63 - 1 := by decide
  refine ⟨.int i, toJson_integer low (by omega), ?_⟩
  exact Json.decode_integer_iff.2 ⟨rfl, low, by omega⟩

theorem keeps_bool : bool.Keeps fun _ => True := fun b _ => ⟨.bool b, rfl, rfl⟩

theorem keeps_string : string.Keeps fun _ => True := fun s _ => ⟨.text s, rfl, rfl⟩

theorem keeps_status : status.Keeps fun _ => True := by
  intro s _
  refine ⟨.text s.name, rfl, ?_⟩
  cases s <;> rfl

theorem keeps_policy : policy.Keeps fun _ => True := by
  intro p _
  refine ⟨.text p.name, rfl, ?_⟩
  cases p <;> rfl

/-! ### Lists, optional values and maps -/

theorem Keeps.list (h : k.Keeps P) : k.list.Keeps fun as => ∀ a ∈ as, P a := by
  have items (as : List α) (all : ∀ a ∈ as, P a) :
      ∃ js, Datum.itemsToJson (Datum.ofItems (as.map k.encode)) = .ok js ∧
        k.shape.decodeItems .tree (Draft.ofItems js) = .ok as := by
    induction as with
    | nil => exact ⟨[], rfl, rfl⟩
    | cons a as ih =>
      obtain ⟨here, rest⟩ := List.forall_mem_cons.1 all
      obtain ⟨j, stored, read⟩ := h a here
      obtain ⟨js, storedAll, readAll⟩ := ih rest
      refine ⟨j :: js, ?_, ?_⟩
      · simp [Datum.ofItems, Datum.itemsToJson, stored, storedAll, bind, Except.bind, pure,
          Except.pure]
      · rw [Json.decode] at read
        simp [Draft.ofItems, Shape.decodeItems, read, readAll, bind, Except.bind, pure, Except.pure]
  intro as all
  obtain ⟨js, stored, read⟩ := items as all
  refine ⟨.list js, ?_, ?_⟩
  · simp [Codec.list, Datum.ofJson, Datum.toJson, stored, Except.map]
  · simp [Codec.list, Json.decode, Draft.ofJson, Shape.list, Source.enter, read, Draft.close, bind,
      Except.bind, pure, Except.pure]

/-- An optional value is told from its absence, if no value is stored as `null`. -/
theorem Keeps.option (h : k.Keeps P) (definite : ∀ a, k.encode a ≠ .null) :
    k.option.Keeps fun o => ∀ a ∈ o, P a := by
  rintro (_ | a) all
  · exact ⟨.null, rfl, rfl⟩
  · obtain ⟨j, stored, read⟩ := h a (all a rfl)
    refine ⟨j, stored, ?_⟩
    have solid : j ≠ .null := by
      rintro rfl
      exact definite a (Datum.eq_null_of_toJson stored)
    rw [Json.decode] at read
    cases j with
    | null => exact absurd rfl solid
    | _ =>
      rw [Draft.ofJson] at read
      simp [Codec.option, Json.decode, Draft.ofJson, Shape.option, read, Except.map]

theorem Keeps.catalog (h : k.Keeps P) : k.catalog.Keeps fun m => ∀ e ∈ m.entries, P e.2 := by
  -- entry by entry; only then the order of the keys is needed
  have members (es : List (String × α)) (all : ∀ e ∈ es, P e.2) :
      ∃ ms, Datum.entriesToJson (Datum.ofMembers (es.map fun e => (e.1, k.encode e.2))) = .ok ms ∧
        ms.map Prod.fst = es.map Prod.fst ∧
        k.shape.decodeMembers .tree (Draft.ofMembers ms) = .ok es := by
    induction es with
    | nil => exact ⟨[], rfl, rfl, rfl⟩
    | cons e es ih =>
      obtain ⟨here, rest⟩ := List.forall_mem_cons.1 all
      obtain ⟨j, stored, read⟩ := h e.2 here
      obtain ⟨ms, storedAll, names, readAll⟩ := ih rest
      refine ⟨(e.1, j) :: ms, ?_, by simp [names], ?_⟩
      · simp [Datum.ofMembers, Datum.entriesToJson, Datum.toKey, stored, storedAll, bind,
          Except.bind, pure, Except.pure]
      · rw [Json.decode] at read
        simp [Draft.ofMembers, Shape.decodeMembers, Draft.key, read, readAll, bind, Except.bind,
          pure, Except.pure]
  intro m all
  obtain ⟨ms, stored, names, read⟩ := members m.entries all
  -- the keys are those of the catalog, so the object is in order as it is
  have sorted : ms.Pairwise fun a b => a.1 < b.1 := by
    have order := List.pairwise_map (f := Prod.fst).2 m.sorted
    rw [← names, List.pairwise_map] at order
    exact order
  refine ⟨.object ms, ?_, ?_⟩
  · simp [Codec.catalog, Datum.ofJson, Datum.toJson, stored, Json.ofCatalog,
      Catalog.entries_ofList sorted, Except.map]
  · have same : Catalog.ofList m.entries = m := Catalog.ext (Catalog.entries_ofList m.sorted)
    simp [Codec.catalog, Json.decode, Draft.ofJson, Shape.catalog, Source.enter, read, Draft.close,
      same, bind, Except.bind, pure, Except.pure]

end Codec

/-! ### Records -/

/-- Where the data of a cluster were exported to, and onto how many replicas, if that is known. -/
structure ExportInfo where
  /-- the cluster -/
  clusterId : String
  /-- the file -/
  filePath : String
  /-- the number of replicas -/
  replicas : Option Nat
  deriving DecidableEq, Repr

namespace ExportInfo

/-- The fields of the record. -/
def form : Form ExportInfo :=
  ExportInfo.mk <$> .field "cluster_id" .string <*> .field "file_path" .string
    <*> .optional "replicas" (Codec.natural 32).shape

/-- The record as an object. -/
def codec : Codec ExportInfo where
  encode x := .object [("cluster_id", .text x.clusterId), ("file_path", .text x.filePath),
    ("replicas", (Codec.natural 32).option.encode x.replicas)]
  shape := form.record "ExportInfo"

theorem keeps_codec : codec.Keeps fun x => ∀ n ∈ x.replicas, n < 2 ^ 32 := by
  rintro ⟨clusterId, filePath, replicas⟩ small
  obtain ⟨j, stored, read⟩ :=
    (Codec.keeps_natural (by decide : 32 ≤ 64)).option nofun replicas small
  let ms : List (String × Json) :=
    [("cluster_id", .text clusterId), ("file_path", .text filePath), ("replicas", j)]
  have sorted : ms.Pairwise fun a b => a.1 < b.1 :=
    List.pairwise_map.1 (by decide : ["cluster_id", "file_path", "replicas"].Pairwise (· < ·))
  refine ⟨.object ms, ?_, ?_⟩
  · simp [codec, Datum.ofJson, Datum.ofMembers, Datum.toJson, Datum.entriesToJson, Datum.toKey,
      stored, Except.map, Json.ofCatalog, Catalog.entries_ofList sorted, ms, bind, Except.bind,
      pure, Except.pure]
  · let drafts : List (String × Draft) :=
      [("cluster_id", .text clusterId), ("file_path", .text filePath), ("replicas", .ofJson j)]
    have takes : form.Takes .tree (Form.givenBy (Draft.named drafts))
        ⟨clusterId, filePath, replicas⟩ :=
      (((Form.takes_field rfl rfl).map ExportInfo.mk).seq (Form.takes_field rfl rfl)).seq
        (Form.takes_optional rfl read)
    have distinct : ["cluster_id", "file_path", "replicas"].Nodup := by decide
    exact takes.decode_fields rfl distinct (by simp [drafts, form])

end ExportInfo

/-! ## The types of values in contexts -/

/-- The codecs that contexts are written and read by, and the values that they are for. -/
inductive Codec.Covered : {α : Type} → Codec α → (α → Prop) → Prop where
  /-- unsigned integers of at most 64 bits -/
  | natural {bits : Nat} (fits : bits ≤ 64) : Covered (.natural bits) (· < 2 ^ bits)
  /-- signed integers of at most 64 bits -/
  | integer {bits : Nat} (fits : bits ≤ 64) :
    Covered (.integer bits) fun i => -2 ^ (bits - 1) ≤ i ∧ i < 2 ^ (bits - 1)
  /-- signed integers of 64 bits -/
  | int64 : Covered .int64 fun i => -2 ^ 63 ≤ i ∧ i < 2 ^ 63
  /-- truth values -/
  | bool : Covered .bool fun _ => True
  /-- strings -/
  | string : Covered .string fun _ => True
  /-- states -/
  | status : Covered .status fun _ => True
  /-- policies -/
  | policy : Covered .policy fun _ => True
  /-- a record with an optional field -/
  | exportInfo : Covered ExportInfo.codec fun x => ∀ n ∈ x.replicas, n < 2 ^ 32
  /-- lists -/
  | list {α : Type} {k : Codec α} {P : α → Prop} (h : Covered k P) :
    Covered k.list fun as => ∀ a ∈ as, P a
  /-- optional values of a type that has no `null` itself -/
  | option {α : Type} {k : Codec α} {P : α → Prop} (h : Covered k P)
    (definite : ∀ a, k.encode a ≠ .null) : Covered k.option fun o => ∀ a ∈ o, P a
  /-- maps from strings -/
  | catalog {α : Type} {k : Codec α} {P : α → Prop} (h : Covered k P) :
    Covered k.catalog fun m => ∀ e ∈ m.entries, P e.2

theorem Codec.Covered.keeps {α : Type} {k : Codec α} {P : α → Prop} (h : k.Covered P) :
    k.Keeps P := by
  induction h with
  | natural fits => exact keeps_natural fits
  | integer fits => exact keeps_integer fits
  | int64 => exact keeps_int64
  | bool => exact keeps_bool
  | string => exact keeps_string
  | status => exact keeps_status
  | policy => exact keeps_policy
  | exportInfo => exact ExportInfo.keeps_codec
  | list _ ih => exact ih.list
  | option _ definite ih => exact ih.option definite
  | catalog _ ih => exact ih.catalog

/-! ## Reading and writing -/

namespace Context

variable {c : Context} {key : String} {j : Json}

theorem getAs_of_get? {α : Type} (here : c.get? key = some j) (shape : Shape α) :
    c.getAs key shape = (Json.decode shape j).mapError (.typeMismatch key) := by
  rw [getAs, here]

theorem getAs_eq_ok_iff {α : Type} {shape : Shape α} {a : α} (here : c.get? key = some j) :
    c.getAs key shape = .ok a ↔ Json.decode shape j = .ok a := by
  rw [getAs_of_get? here]
  cases Json.decode shape j <;> simp [Except.mapError]

/-- A scripted executor that reads a value leaves the context as it is. -/
theorem execution_read {α : Type} (shape : Shape α) (text : α → String) (rest : List Action)
    (scene : Scene) : Script.execution
        (.read key (fun j => (Json.decode shape j).map text) :: rest) scene =
      match scene.context.getAs key shape with
      | .ok a => Script.execution rest { scene with visit.result := text a }
      | .error e => .finish scene (.error e.chain) := by
  rw [Script.execution, getAs]
  cases scene.context.get? key with
  | none => rfl
  | some j =>
    dsimp only
    cases Json.decode shape j <;> rfl

/-- What becomes of a value that is stored for a key, and what is read for it. -/
structure Access (c : Context) (key : String) : Prop where
  /-- a value is read as it was stored, and the values for other keys stay -/
  roundTrip : ∀ {α : Type} {k : Codec α} {P : α → Prop}, k.Covered P → ∀ a, P a →
    ∃ c', c.insert key (Datum.ofJson (k.encode a)) = .ok c' ∧ c'.getAs key k.shape = .ok a ∧
      ∀ other ≠ key, c'.get? other = c.get? other
  /-- what cannot be stored is reported as such -/
  unserializable : ∀ datum e, c.insert key datum = .error e → ∃ cause, e = .unserializable key cause
  /-- an executor that stores it ends with the context as it was -/
  refused : ∀ datum e, c.insert key datum = .error e → ∀ rest scene, scene.context = c →
    Script.execution (.insert key datum :: rest) scene = .finish scene (.error e.chain)
  /-- an unsigned integer is read if and only if an integer in its range is stored -/
  natural : ∀ j, c.get? key = some j → ∀ bits name n,
    c.getAs key (Shape.natural bits name) = .ok n ↔ j = .int n ∧ n < 2 ^ bits
  /-- so is a signed one -/
  integer : ∀ j, c.get? key = some j → ∀ low high name i,
    c.getAs key (Shape.integer low high name) = .ok i ↔ j = .int i ∧ low ≤ i ∧ i ≤ high
  /-- a value that cannot be read is of another type -/
  mismatch : ∀ j, c.get? key = some j → ∀ {α : Type} (shape : Shape α) e,
    c.getAs key shape = .error e → ∃ cause, e = .typeMismatch key cause
  /-- where there is none, that is reported -/
  missing : c.get? key = none → ∀ {α : Type} (shape : Shape α),
    c.getAs key shape = .error (.missing key)
  /-- reading changes only the record of the visit, and nothing if it fails -/
  unchanged : ∀ {α : Type} (shape : Shape α) text rest scene, scene.context = c →
    Script.execution (.read key (fun j => (Json.decode shape j).map text) :: rest) scene =
      match c.getAs key shape with
      | .ok a => Script.execution rest { scene with visit.result := text a }
      | .error e => .finish scene (.error e.chain)

/-- Typed access to any context, at any key. -/
theorem access (c : Context) (key : String) : c.Access key where
  roundTrip covered a valid := by
    obtain ⟨j, stored, read⟩ := covered.keeps a valid
    refine ⟨c.set key j, by rw [insert, stored], ?_, fun other ne => by simp [ne]⟩
    exact (getAs_eq_ok_iff (by simp)).2 read
  unserializable datum e answer := by
    rw [insert] at answer
    split at answer
    · cases answer
    · next cause _ => exact ⟨cause, (Except.error.inj answer).symm⟩
  refused datum e answer rest scene here := by
    rw [Script.execution, here, answer]
  natural j here bits name n := (getAs_eq_ok_iff here).trans Json.decode_natural_iff
  integer j here low high name i := (getAs_eq_ok_iff here).trans Json.decode_integer_iff
  mismatch j here α shape e answer := by
    rw [getAs_of_get? here] at answer
    cases read : Json.decode shape j with
    | ok a =>
      rw [read] at answer
      cases answer
    | error cause =>
      rw [read] at answer
      exact ⟨cause, (Except.error.inj answer).symm⟩
  missing none α shape := by rw [getAs, none]
  unchanged shape text rest scene here := here ▸ execution_read shape text rest scene

/-- A context with a string, and one with an integer that fits 16 bits but not 8. -/
def shelf : Context × Context := (empty.set "s" (.text "x"), empty.set "n" (.int 256))

theorem shelf_access :
    let c := shelf.1
    let d := shelf.2
    (∃ c', c.insert "k" (.list [.null, .text ""]) = .ok c' ∧
      c'.getAs "k" Codec.string.option.list.shape = .ok [none, some ""] ∧
      c'.get? "s" = some (.text "x")) ∧
    (∃ c', c.insert "s" (.integer (-128)) = .ok c' ∧
      c'.getAs "s" (Codec.integer 8).shape = .ok (-128)) ∧
    (∃ c', c.insert "k" (.map [(.text "cluster_id", .text "c"), (.text "file_path", .text "f"),
        (.text "replicas", .integer (2 ^ 32 - 1))]) = .ok c' ∧
      c'.getAs "k" ExportInfo.codec.shape = .ok ⟨"c", "f", some (2 ^ 32 - 1)⟩) ∧
    c.insert "s" (.integer (2 ^ 127 - 1)) = .error (.unserializable "s" .outOfRange) ∧
    (∀ rest visit, Script.execution (.insert "s" (.integer (2 ^ 127 - 1)) :: rest) ⟨visit, c⟩ =
      .finish ⟨visit, c⟩ (.error (ContextError.unserializable "s" .outOfRange).chain)) ∧
    d.getAs "n" (Codec.natural 16).shape = .ok 256 ∧
    d.getAs "n" (Codec.natural 8).shape ≠ .ok 0 ∧
    (∃ cause, c.getAs "s" Codec.bool.shape = .error (.typeMismatch "s" cause)) ∧
    c.getAs "k" Codec.bool.shape = .error (.missing "k") := by
  intro c d
  have texts : Codec.string.option.list.Covered fun as => ∀ a ∈ as, ∀ s ∈ a, True :=
    (Codec.Covered.string.option nofun).list
  obtain ⟨c₁, stored, read, others⟩ := (access c "k").roundTrip texts [none, some ""] (by simp)
  obtain ⟨c₂, stored₂, read₂, -⟩ := (access c "s").roundTrip
    (Codec.Covered.integer (by decide : 8 ≤ 64)) (-128) (by decide)
  obtain ⟨c₃, stored₃, read₃, -⟩ := (access c "k").roundTrip Codec.Covered.exportInfo
    ⟨"c", "f", some (2 ^ 32 - 1)⟩ (by simp)
  have wide : c.insert "s" (.integer (2 ^ 127 - 1)) = .error (.unserializable "s" .outOfRange) :=
    rfl
  -- the last five are single answers: refused, in range, out of range, of another type, missing
  refine ⟨⟨c₁, stored, read, others "s" (by decide)⟩, ⟨c₂, stored₂, read₂⟩, ⟨c₃, stored₃, read₃⟩,
    wide, ?_, ?_, ?_, ?_, ?_⟩
  · exact fun rest visit => (access c "s").refused _ _ wide rest ⟨visit, c⟩ rfl
  · exact ((access d "n").natural (.int 256) rfl 16 "u16" 256).2 ⟨rfl, by decide⟩
  · intro answer
    cases (((access d "n").natural (.int 256) rfl 8 "u8" 0).1 answer).1
  · have answer : c.getAs "s" Codec.bool.shape =
        .error (.typeMismatch "s" (.mismatch (.text "x") "a boolean")) := rfl
    obtain ⟨cause, same⟩ := (access c "s").mismatch (.text "x") rfl Codec.bool.shape _ answer
    exact ⟨cause, answer.trans (congrArg Except.error same)⟩
  · exact (access c "k").missing rfl Codec.bool.shape

end Context

end Runbook
