import Runbook.Context
import Runbook.Proofs.Reading

/-!
# Snapshots of contexts

A context can be rebuilt from its snapshot if its values are not nested too deeply. The signal of a
run is kept apart from its context, so snapshots do not depend on it.

* `Json.Ordered`, `Json.depth` — values as they are held in memory, and how deeply they are nested.
* `Shape.anyValue_ofJson`, `Shape.ordered_of_anyValue` — reading a value gives it back, if it is not
  nested too deeply; only such values are read.
* `Context.ofSnapshot_snapshot` — the same of whole contexts.
-/

namespace Runbook

namespace Catalog

variable {α : Type} {entries : List (String × α)}

/-- An entry behind all others comes at the end. -/
theorem insertEntry_of_forall_lt {name : String} (a : α) (last : ∀ e ∈ entries, e.1 < name) :
    insertEntry name a entries = entries ++ [(name, a)] := by
  induction entries with
  | nil => rfl
  | cons e entries ih =>
    obtain ⟨n, b⟩ := e
    obtain ⟨less, last⟩ := List.forall_mem_cons.1 last
    have later : ¬ name < n := String.lt_asymm less
    have other : name ≠ n := (String.ne_of_lt less).symm
    rw [insertEntry, if_neg later, if_neg other, ih last]
    rfl

theorem entries_foldl_insert (c : Catalog α)
    (sorted : (c.entries ++ entries).Pairwise fun a b => a.1 < b.1) :
    (entries.foldl (fun c e => c.insert e.1 e.2) c).entries = c.entries ++ entries := by
  induction entries generalizing c with
  | nil => simp
  | cons e entries ih =>
    have last : ∀ d ∈ c.entries, d.1 < e.1 := by
      intro d hd
      exact (List.pairwise_append.1 sorted).2.2 d hd e (List.mem_cons_self ..)
    have grown : (c.insert e.1 e.2).entries = c.entries ++ [e] :=
      insertEntry_of_forall_lt e.2 last
    rw [List.foldl_cons, ih, grown, List.append_assoc]
    · rfl
    · rwa [grown, List.append_assoc]

/-- Entries in order make up the catalog with these entries. -/
theorem entries_ofList (sorted : entries.Pairwise fun a b => a.1 < b.1) :
    (ofList entries).entries = entries := by
  rw [ofList, entries_foldl_insert empty (by simpa [empty] using sorted)]
  rfl

theorem mem_of_mem_foldl_insert {e : String × α} (c : Catalog α)
    (h : e ∈ (entries.foldl (fun c e => c.insert e.1 e.2) c).entries) :
    e ∈ c.entries ∨ e ∈ entries := by
  induction entries generalizing c with
  | nil => exact .inl h
  | cons d entries ih =>
    rcases ih _ h with before | later
    · rcases mem_insertEntry before with rfl | before
      · exact .inr (List.mem_cons_self ..)
      · exact .inl before
    · exact .inr (List.mem_cons_of_mem d later)

/-- A catalog has no other entries than it was made of. -/
theorem mem_of_mem_ofList {e : String × α} (h : e ∈ (ofList entries).entries) : e ∈ entries :=
  (mem_of_mem_foldl_insert empty h).resolve_left (by simp [empty])

end Catalog

namespace Json

mutual

/-- How deeply arrays and objects are nested in the value. -/
def depth : Json → Nat
  | list xs => depthItems xs + 1
  | object ms => depthMembers ms + 1
  | _ => 0

/-- How deeply they are nested in an item. -/
def depthItems : List Json → Nat
  | [] => 0
  | x :: xs => max (depth x) (depthItems xs)

/-- How deeply they are nested in a member. -/
def depthMembers : List (String × Json) → Nat
  | [] => 0
  | (_, v) :: ms => max (depth v) (depthMembers ms)

end

mutual

/-- The members of every object in the value are in the order of their keys, no key twice. -/
def Ordered : Json → Prop
  | list xs => OrderedItems xs
  | object ms => (ms.Pairwise fun a b => a.1 < b.1) ∧ OrderedMembers ms
  | _ => True

/-- So it is in every item. -/
def OrderedItems : List Json → Prop
  | [] => True
  | x :: xs => Ordered x ∧ OrderedItems xs

/-- So it is in every member. -/
def OrderedMembers : List (String × Json) → Prop
  | [] => True
  | (_, v) :: ms => Ordered v ∧ OrderedMembers ms

end

mutual

/-- That can be decided. -/
def decideOrdered : (j : Json) → Decidable j.Ordered
  | null | bool _ | int _ | real _ | text _ => .isTrue trivial
  | list xs => decideOrderedItems xs
  | object ms => @instDecidableAnd _ _ inferInstance (decideOrderedMembers ms)

/-- So it can of items. -/
def decideOrderedItems : (xs : List Json) → Decidable (OrderedItems xs)
  | [] => .isTrue trivial
  | x :: xs => @instDecidableAnd _ _ (decideOrdered x) (decideOrderedItems xs)

/-- So it can of members. -/
def decideOrderedMembers : (ms : List (String × Json)) → Decidable (OrderedMembers ms)
  | [] => .isTrue trivial
  | (_, v) :: ms => @instDecidableAnd _ _ (decideOrdered v) (decideOrderedMembers ms)

end

instance : DecidablePred Ordered := decideOrdered

variable {ms : List (String × Json)} {n : Nat}

theorem orderedMembers_iff : OrderedMembers ms ↔ ∀ m ∈ ms, m.2.Ordered := by
  induction ms with
  | nil => simp [OrderedMembers]
  | cons m ms ih => simp [OrderedMembers, ih]

theorem depthMembers_le_iff : depthMembers ms ≤ n ↔ ∀ m ∈ ms, m.2.depth ≤ n := by
  induction ms with
  | nil => simp [depthMembers]
  | cons m ms ih => rw [depthMembers, Nat.max_le, ih, List.forall_mem_cons]

end Json

namespace Shape

open Json Draft

mutual

/-- Reading a value gives it back, unless it is nested too deeply. -/
theorem anyValue_ofJson (j : Json) (ordered : j.Ordered) (n : Nat) :
    anyValue (.text n) (ofJson j) = if j.depth ≤ n then .ok j else .error .malformed := by
  match j with
  | .null | .bool b | .int i | .real x | .text t => rfl
  | .list xs =>
    cases n with
    | zero => rfl
    | succ n =>
      have inside := anyItems_ofItems xs ordered n
      simp only [ofJson, anyValue, Source.enter, bind, Except.bind, inside, Json.depth]
      by_cases deep : depthItems xs ≤ n
      · simp [deep, Draft.close, pure, Except.pure]
      · simp [deep]
  | .object ms =>
    cases n with
    | zero => rfl
    | succ n =>
      have inside := anyMembers_ofMembers ms ordered.2 n
      have same : ofCatalog (Catalog.ofList ms) = .object ms := by
        rw [ofCatalog, Catalog.entries_ofList ordered.1]
      simp only [ofJson, anyValue, Source.enter, bind, Except.bind, inside, Json.depth]
      by_cases deep : depthMembers ms ≤ n
      · simp [deep, Draft.close, pure, Except.pure, same]
      · simp [deep]

/-- So it is with items. -/
theorem anyItems_ofItems (xs : List Json) (ordered : OrderedItems xs) (n : Nat) :
    anyItems (.text n) (ofItems xs) =
      if depthItems xs ≤ n then .ok xs else .error .malformed := by
  match xs with
  | [] => rfl
  | x :: xs =>
    have first := anyValue_ofJson x ordered.1 n
    have others := anyItems_ofItems xs ordered.2 n
    simp only [ofItems, anyItems, first, others, depthItems, Nat.max_le]
    by_cases here : x.depth ≤ n <;> by_cases later : depthItems xs ≤ n <;>
      simp [here, later, bind, Except.bind, pure, Except.pure]

/-- So it is with members. -/
theorem anyMembers_ofMembers (ms : List (String × Json)) (ordered : OrderedMembers ms) (n : Nat) :
    anyMembers (.text n) (ofMembers ms) =
      if depthMembers ms ≤ n then .ok ms else .error .malformed := by
  match ms with
  | [] => rfl
  | (k, v) :: ms =>
    have first := anyValue_ofJson v ordered.1 n
    have others := anyMembers_ofMembers ms ordered.2 n
    simp only [ofMembers, anyMembers, Draft.key, first, others, depthMembers, Nat.max_le]
    by_cases here : v.depth ≤ n <;> by_cases later : depthMembers ms ≤ n <;>
      simp [here, later, bind, Except.bind, pure, Except.pure]

end

theorem exists_of_enter_eq_ok {source : Source} {n : Nat} (h : (Source.text n).enter = .ok source) :
    ∃ m, n = m + 1 ∧ source = .text m := by
  cases n with
  | zero => cases h
  | succ m =>
    cases h
    exact ⟨m, rfl, rfl⟩

mutual

/-- What is read of a text is in order, and not nested too deeply. -/
theorem ordered_of_anyValue (d : Draft) {n : Nat} {j : Json} (h : anyValue (.text n) d = .ok j) :
    j.Ordered ∧ j.depth ≤ n := by
  match d with
  | .null | .bool b | .int i | .real x | .text t =>
    cases h
    exact ⟨trivial, Nat.zero_le n⟩
  | .list items ending =>
    rw [anyValue] at h
    obtain ⟨source, enter, h⟩ := exists_of_bind_eq_ok h
    obtain ⟨xs, read, h⟩ := exists_of_bind_eq_ok h
    obtain ⟨-, -, h⟩ := exists_of_bind_eq_ok h
    cases h
    obtain ⟨m, rfl, rfl⟩ := exists_of_enter_eq_ok enter
    obtain ⟨ordered, depth⟩ := ordered_of_anyItems items read
    exact ⟨ordered, Nat.succ_le_succ depth⟩
  | .object members ending =>
    rw [anyValue] at h
    obtain ⟨source, enter, h⟩ := exists_of_bind_eq_ok h
    obtain ⟨ms, read, h⟩ := exists_of_bind_eq_ok h
    obtain ⟨-, -, h⟩ := exists_of_bind_eq_ok h
    cases h
    obtain ⟨m, rfl, rfl⟩ := exists_of_enter_eq_ok enter
    -- of members with equal keys the last is kept, and each that is kept was read
    have inside := ordered_of_anyMembers members read
    refine ⟨⟨(Catalog.ofList ms).sorted, ?_⟩, Nat.succ_le_succ ?_⟩
    · rw [orderedMembers_iff]
      intro e he
      exact (inside e (Catalog.mem_of_mem_ofList he)).1
    · rw [depthMembers_le_iff]
      intro e he
      exact (inside e (Catalog.mem_of_mem_ofList he)).2
  | .outsize | .garbled _ _ | .garbledNull _ | .garbledText _ _ | .absent => cases h

/-- So it is with items. -/
theorem ordered_of_anyItems (ds : List Draft) {n : Nat} {xs : List Json}
    (h : anyItems (.text n) ds = .ok xs) : OrderedItems xs ∧ depthItems xs ≤ n := by
  match ds with
  | [] =>
    cases h
    exact ⟨trivial, Nat.zero_le n⟩
  | d :: ds =>
    rw [anyItems] at h
    obtain ⟨x, first, h⟩ := exists_of_bind_eq_ok h
    obtain ⟨xs, others, h⟩ := exists_of_bind_eq_ok h
    cases h
    have here := ordered_of_anyValue d first
    have later := ordered_of_anyItems ds others
    exact ⟨⟨here.1, later.1⟩, Nat.max_le.2 ⟨here.2, later.2⟩⟩

/-- So it is with each member. -/
theorem ordered_of_anyMembers (ds : List (Draft × Draft)) {n : Nat} {ms : List (String × Json)}
    (h : anyMembers (.text n) ds = .ok ms) : ∀ m ∈ ms, m.2.Ordered ∧ m.2.depth ≤ n := by
  match ds with
  | [] =>
    cases h
    simp
  | (k, v) :: ds =>
    rw [anyMembers] at h
    obtain ⟨name, -, h⟩ := exists_of_bind_eq_ok h
    obtain ⟨x, first, h⟩ := exists_of_bind_eq_ok h
    obtain ⟨ms, others, h⟩ := exists_of_bind_eq_ok h
    cases h
    exact List.forall_mem_cons.2 ⟨ordered_of_anyValue v first, ordered_of_anyMembers ds others⟩

end

/-! ## Catalogs of any values -/

theorem decodeMembers_any (source : Source) (ds : List (Draft × Draft)) :
    decodeMembers any source ds = anyMembers source ds := by
  induction ds with
  | nil => rfl
  | cons m ds ih =>
    obtain ⟨k, v⟩ := m
    rw [decodeMembers, anyMembers, ih]
    rfl

/-- Reading a catalog is reading an object. -/
theorem anyValue_object (source : Source) (ds : List (Draft × Draft)) (ending : Option Fault) :
    anyValue source (.object ds ending) =
      ((catalog any).decode source (.object ds ending)).map ofCatalog := by
  simp only [anyValue, catalog, decodeMembers_any, bind, Except.bind]
  cases source.enter with
  | error e => rfl
  | ok inner =>
    dsimp only
    cases anyMembers inner ds with
    | error e => rfl
    | ok ms =>
      dsimp only
      cases Draft.close ending <;> rfl

theorem ofCatalog_injective {a b : Catalog Json} (h : ofCatalog a = ofCatalog b) : a = b := by
  injection h with entries
  exact Catalog.ext entries

/-- A catalog is read from its object, unless that is nested too deeply. -/
theorem catalog_ofCatalog (c : Catalog Json) (ordered : (ofCatalog c).Ordered) (n : Nat) :
    (catalog any).decode (.text n) (ofJson (ofCatalog c)) =
      if (ofCatalog c).depth ≤ n then .ok c else .error .malformed := by
  have read := anyValue_ofJson (ofCatalog c) ordered n
  have object := anyValue_object (.text n) (ofMembers c.entries) none
  have same : ofJson (ofCatalog c) = .object (ofMembers c.entries) none := rfl
  rw [same] at read ⊢
  rw [object] at read
  cases found : (catalog any).decode (.text n) (.object (ofMembers c.entries) none) with
  | error e =>
    rw [found] at read
    split at read
    · cases read
    · next deep =>
      rw [if_neg deep]
      cases read
      rfl
  | ok d =>
    rw [found] at read
    split at read
    · next fits =>
      rw [if_pos fits]
      injection read with read
      rw [ofCatalog_injective read]
    · cases read

/-- What is read as a catalog is in order, and not nested too deeply. -/
theorem ordered_of_catalog {d : Draft} {n : Nat} {c : Catalog Json}
    (h : (catalog any).decode (.text n) d = .ok c) :
    (ofCatalog c).Ordered ∧ (ofCatalog c).depth ≤ n := by
  cases d with
  | object ds ending =>
    have object := anyValue_object (.text n) ds ending
    rw [h] at object
    exact ordered_of_anyValue _ object
  | _ => cases h

end Shape

namespace Context

variable {c d : Context}

/-- The values of the context are as they are held in memory, and their numbers are integers of 64
bits. -/
structure Plain (c : Context) : Prop where
  /-- the members of every object are in the order of their keys -/
  ordered : c.toJson.Ordered
  /-- every number is an integer of 64 bits -/
  whole : c.toJson.Whole

instance (c : Context) : Decidable c.Plain :=
  decidable_of_iff (c.toJson.Ordered ∧ c.toJson.Whole) ⟨fun h => ⟨h.1, h.2⟩, fun h => ⟨h.1, h.2⟩⟩

/-- A plain context is rebuilt, unless it is nested too deeply. -/
theorem Plain.ofSnapshot (h : c.Plain) : Context.ofSnapshot c.snapshot =
    if c.toJson.depth < 128 then .ok c else .error .malformed := by
  have decoded := Shape.catalog_ofCatalog c.values h.ordered Json.nestingLimit
  have limit : c.toJson.depth ≤ Json.nestingLimit ↔ c.toJson.depth < 128 := Nat.lt_succ_iff.symm
  change (Shape.catalog Shape.any).decode _ (.ofJson c.toJson) = if c.toJson.depth ≤ _ then _ else _
    at decoded
  simp only [limit] at decoded
  rw [Context.ofSnapshot, Json.read, snapshot, Draft.ofText_print h.whole]
  simp only [decoded]
  split <;> rfl

theorem of_ofSnapshot {text : String} (h : Context.ofSnapshot text = .ok c) :
    c.toJson.Ordered ∧ c.toJson.depth < 128 := by
  rw [Context.ofSnapshot] at h
  cases read : Json.read (Shape.catalog Shape.any) text with
  | error e =>
    rw [read] at h
    cases h
  | ok values =>
    rw [read] at h
    cases h
    obtain ⟨draft, decoded⟩ := Json.exists_decode_of_read read
    have inside := Shape.ordered_of_catalog decoded
    exact ⟨inside.1, Nat.lt_succ_of_le inside.2⟩

/-- Snapshots round-trip: a context with plain values is rebuilt from its snapshot if its nesting,
with the context itself as one level, stays below 128, and not otherwise; such contexts have
different snapshots; and what is read from any text has a snapshot in normal form. -/
theorem ofSnapshot_snapshot :
    (∀ c : Context, c.Plain → Context.ofSnapshot c.snapshot =
      if c.toJson.depth < 128 then .ok c else .error .malformed) ∧
    (∀ c d : Context, c.Plain → d.Plain → c.toJson.depth < 128 → d.toJson.depth < 128 →
      (c.snapshot = d.snapshot ↔ c = d)) ∧
    ∀ (text : String) (c : Context), Context.ofSnapshot text = .ok c → c.toJson.Whole →
      c.Plain ∧ c.toJson.depth < 128 ∧ Context.ofSnapshot c.snapshot = .ok c := by
  refine ⟨fun c h => h.ofSnapshot, ?_, ?_⟩
  · intro c d plainC plainD depthC depthD
    constructor
    · intro same
      have rebuilt := plainC.ofSnapshot
      rw [same, plainD.ofSnapshot, if_pos depthD, if_pos depthC] at rebuilt
      injection rebuilt with rebuilt
      exact rebuilt.symm
    · rintro rfl
      rfl
  · intro text c read whole
    obtain ⟨ordered, depth⟩ := of_ofSnapshot read
    have plain : c.Plain := ⟨ordered, whole⟩
    refine ⟨plain, depth, ?_⟩
    rw [plain.ofSnapshot, if_pos depth]

/-- Values of all kinds, with escapes and the least and the greatest integer. -/
def medley : Context :=
  ⟨.ofList [("list", .list [.int (-9223372036854775808), .int 18446744073709551615, .list []]),
    ("\"\\\n\x01é", .object [("", .null), ("k", .text "\x7f\t😀")])]⟩

/-- Arrays in each other. -/
def tower : Nat → Json
  | 0 => .bool true
  | n + 1 => .list [tower n]

theorem tower_plain (n : Nat) :
    (tower n).Ordered ∧ (tower n).Whole ∧ (tower n).depth = n := by
  induction n with
  | zero => exact ⟨trivial, trivial, rfl⟩
  | succ n ih =>
    obtain ⟨ordered, whole, depth⟩ := ih
    refine ⟨⟨ordered, trivial⟩, ⟨whole, trivial⟩, ?_⟩
    simp [tower, Json.depth, Json.depthItems, depth]

/-- A text with blanks, an escape that is not needed, and a key twice. -/
def loose : String := " \x7b \"b\" : [1 ] ,\t\"a\" : \"\\u0041\" , \"b\": -2 \x7d\n"

/-- The snapshot of what is read of a text, if that is a plain context. -/
def normalForm? (text : String) : Option String :=
  match Context.ofSnapshot text with
  | .ok c => if c.Plain then some c.snapshot else none
  | .error _ => none

theorem medley_rebuilt :
    medley.Plain ∧ Context.ofSnapshot medley.snapshot = .ok medley ∧
    Context.ofSnapshot (Context.mk (.ofList [("key", tower 127)])).snapshot = .error .malformed ∧
    (medley.snapshot ≠ (Context.mk (.ofList [("key", tower 2)])).snapshot) ∧
    ∃ c, Context.ofSnapshot loose = .ok c ∧ c.snapshot = "\x7b\"a\":\"A\",\"b\":-2\x7d" ∧
      Context.ofSnapshot c.snapshot = .ok c := by
  obtain ⟨rebuilt, faithful, normal⟩ := ofSnapshot_snapshot
  have plain : medley.Plain := by decide +kernel
  have shallow : medley.toJson.depth < 128 := by decide +kernel
  have single (n : Nat) : (Context.mk (.ofList [("key", tower n)])).Plain ∧
      (Context.mk (.ofList [("key", tower n)])).toJson.depth = n + 1 := by
    obtain ⟨ordered, whole, depth⟩ := tower_plain n
    refine ⟨⟨⟨List.pairwise_singleton _ _, ordered, trivial⟩, whole, trivial⟩, ?_⟩
    change max (tower n).depth 0 + 1 = n + 1
    rw [depth, Nat.max_zero]
  refine ⟨plain, ?_, ?_, ?_, ?_⟩
  · rw [rebuilt medley plain, if_pos shallow]
  · obtain ⟨towerPlain, deep⟩ := single 127
    rw [rebuilt _ towerPlain, if_neg]
    rw [deep]
    decide
  -- equal snapshots would make equal contexts, and these two have different keys
  · obtain ⟨towerPlain, flat⟩ := single 2
    rw [ne_eq, faithful medley _ plain towerPlain shallow (flat ▸ by decide)]
    intro same
    have keys := congrArg Context.keys same
    revert keys
    decide +kernel
  · have form : normalForm? loose = some "\x7b\"a\":\"A\",\"b\":-2\x7d" := by decide +kernel
    rw [normalForm?] at form
    cases read : Context.ofSnapshot loose with
    | error e =>
      rw [read] at form
      cases form
    | ok c =>
      rw [read] at form
      by_cases whole : c.Plain
      · obtain ⟨-, -, again⟩ := normal loose c read whole.whole
        have snapshot : c.snapshot = "\x7b\"a\":\"A\",\"b\":-2\x7d" := by simpa [whole] using form
        exact ⟨c, rfl, snapshot, again⟩
      · simp [whole] at form

end Context

end Runbook
