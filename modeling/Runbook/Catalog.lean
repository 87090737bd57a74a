/-!
# Catalogs: maps from names, in name order

* `Catalog α` — a list of entries in strictly ascending order of their names.
  The order is part of the type, so two catalogs with the same entries are
  equal.
* `Catalog.get?` is the view; `insert`, `erase` and `filter` are described by
  what they do to it.

Names are compared by code points, which orders them as their UTF-8 bytes do.
-/

namespace Runbook

/-- Entries by name, in ascending order of the names. -/
structure Catalog (α : Type) where
  /-- the entries -/
  entries : List (String × α)
  /-- names ascend strictly -/
  sorted : entries.Pairwise fun a b => a.1 < b.1

namespace Catalog

variable {α : Type}

/-- Catalogs with the same entries are equal. -/
theorem ext {a b : Catalog α} (h : a.entries = b.entries) : a = b := by
  cases a; cases b; cases h; rfl

instance [DecidableEq α] : DecidableEq (Catalog α) := fun a b =>
  decidable_of_iff (a.entries = b.entries) ⟨ext, fun h => h ▸ rfl⟩

/-- No entries. -/
def empty : Catalog α := ⟨[], .nil⟩

instance : Inhabited (Catalog α) := ⟨empty⟩

/-- The names, in ascending order. -/
def names (c : Catalog α) : List String := c.entries.map Prod.fst

/-- The entry of that name. -/
def get? (c : Catalog α) (name : String) : Option α := c.entries.lookup name

/-- Whether there is an entry of that name. -/
def contains (c : Catalog α) (name : String) : Bool := (c.get? name).isSome

/-! ## Changes -/

/-- Put an entry into its place in a list of entries; one of the same name is
replaced. -/
def insertEntry (name : String) (a : α) : List (String × α) → List (String × α)
  | [] => [(name, a)]
  | (n, b) :: rest =>
    if name < n then (name, a) :: (n, b) :: rest
    else if name = n then (name, a) :: rest
    else (n, b) :: insertEntry name a rest

theorem mem_insertEntry {name : String} {a : α} {entries : List (String × α)}
    {e : String × α} (h : e ∈ insertEntry name a entries) :
    e = (name, a) ∨ e ∈ entries := by
  induction entries with
  | nil => simpa [insertEntry] using h
  | cons d rest ih =>
    obtain ⟨n, b⟩ := d
    rw [insertEntry] at h
    split at h
    · simpa using h
    · split at h
      · rcases List.mem_cons.1 h with h | h
        · exact .inl h
        · exact .inr (List.mem_cons_of_mem _ h)
      · rcases List.mem_cons.1 h with h | h
        · exact .inr (h ▸ List.mem_cons_self)
        · exact (ih h).imp id (List.mem_cons_of_mem _)

theorem sorted_insertEntry (name : String) (a : α) {entries : List (String × α)}
    (h : entries.Pairwise fun a b => a.1 < b.1) :
    (insertEntry name a entries).Pairwise fun a b => a.1 < b.1 := by
  induction entries with
  | nil => simp [insertEntry]
  | cons d rest ih =>
    obtain ⟨n, b⟩ := d
    obtain ⟨hn, hrest⟩ := List.pairwise_cons.1 h
    rw [insertEntry]
    split
    next hlt =>
      refine List.pairwise_cons.2 ⟨fun e he => ?_, h⟩
      rcases List.mem_cons.1 he with rfl | he
      · exact hlt
      · exact String.lt_trans hlt (hn e he)
    next hge =>
      split
      next heq =>
        subst heq
        exact List.pairwise_cons.2 ⟨hn, hrest⟩
      next hne =>
        refine List.pairwise_cons.2 ⟨fun e he => ?_, ih hrest⟩
        rcases mem_insertEntry he with rfl | he
        · exact String.not_le.1 fun hle => hne (String.le_antisymm hle (String.not_lt.1 hge))
        · exact hn e he

/-- Put in an entry; one of the same name is replaced. -/
def insert (c : Catalog α) (name : String) (a : α) : Catalog α :=
  ⟨insertEntry name a c.entries, sorted_insertEntry name a c.sorted⟩

/-- Keep the entries that pass a test. -/
def filter (c : Catalog α) (keep : String → α → Bool) : Catalog α :=
  ⟨c.entries.filter fun e => keep e.1 e.2, c.sorted.filter _⟩

/-- Take out the entry of that name. -/
def erase (c : Catalog α) (name : String) : Catalog α := c.filter fun n _ => n != name

/-- Put in entries one after the other. -/
def ofList (entries : List (String × α)) : Catalog α :=
  entries.foldl (fun c e => c.insert e.1 e.2) empty

/-! ## What the view shows -/

@[simp] theorem get?_empty (name : String) : (empty : Catalog α).get? name = none := rfl

/-- Looking a name up in a list of entries, one entry at a time. -/
theorem lookup_cons (name other : String) (a : α) (rest : List (String × α)) :
    ((name, a) :: rest).lookup other = if other = name then some a else rest.lookup other := by
  by_cases h : other = name
  · rw [List.lookup_cons, beq_iff_eq.2 h, if_pos h]
  · rw [List.lookup_cons, beq_eq_false_iff_ne.2 h, if_neg h]

theorem lookup_insertEntry (name other : String) (a : α) (entries : List (String × α)) :
    (insertEntry name a entries).lookup other =
      if other = name then some a else entries.lookup other := by
  induction entries with
  | nil => simp [insertEntry, lookup_cons]
  | cons d rest ih =>
    obtain ⟨n, b⟩ := d
    rw [insertEntry]
    split
    next => rw [lookup_cons]
    next =>
      split
      next heq =>
        subst heq
        by_cases ho : other = name <;> simp [lookup_cons, ho]
      next hne =>
        rw [lookup_cons, lookup_cons, ih]
        by_cases ho : other = n
        · subst ho
          simp [Ne.symm hne]
        · simp [ho]

/-- Inserting changes the entry of that name and no other. -/
theorem get?_insert (c : Catalog α) (name other : String) (a : α) :
    (c.insert name a).get? other = if other = name then some a else c.get? other :=
  lookup_insertEntry name other a c.entries

@[simp] theorem get?_insert_self (c : Catalog α) (name : String) (a : α) :
    (c.insert name a).get? name = some a := by simp [get?_insert]

theorem get?_insert_of_ne (c : Catalog α) {name other : String} (a : α) (h : other ≠ name) :
    (c.insert name a).get? other = c.get? other := by simp [get?_insert, h]

/-- Filtering keeps an entry, or takes it out. -/
theorem get?_filter (c : Catalog α) (keep : String → α → Bool) (name : String) :
    (c.filter keep).get? name = (c.get? name).filter (keep name) := by
  obtain ⟨entries, sorted⟩ := c
  change (entries.filter fun e => keep e.1 e.2).lookup name = (entries.lookup name).filter _
  induction entries with
  | nil => rfl
  | cons d rest ih =>
    obtain ⟨n, b⟩ := d
    obtain ⟨least, sorted⟩ := List.pairwise_cons.1 sorted
    have rest' := ih sorted
    rw [List.filter_cons, lookup_cons]
    by_cases same : name = n
    · subst same
      have other : rest.lookup name = none :=
        List.lookup_eq_none_iff.2 fun e he => by simpa using String.ne_of_lt (least e he)
      by_cases kept : keep name b = true
      · simp [kept, Option.filter]
      · simp [kept, rest', other, Option.filter]
    · by_cases kept : keep n b = true
      · simpa [kept, lookup_cons, same] using rest'
      · simpa [kept, same] using rest'

/-- Erasing takes out the entry of that name and no other. -/
theorem get?_erase (c : Catalog α) (name other : String) :
    (c.erase name).get? other = if other = name then none else c.get? other := by
  rw [erase, get?_filter]
  split
  · next same =>
    subst same
    cases c.get? other <;> simp [Option.filter]
  · next ne => cases c.get? other <;> simp [Option.filter, ne]

@[simp] theorem get?_erase_self (c : Catalog α) (name : String) :
    (c.erase name).get? name = none := by simp [get?_erase]

/-- Erasing does nothing where there is no entry of that name. -/
theorem erase_eq_self {c : Catalog α} {name : String} (other : c.get? name = none) :
    c.erase name = c := by
  apply ext
  apply List.filter_eq_self.2
  intro e he
  have ne := List.lookup_eq_none_iff.1 other e he
  simpa [bne_comm] using ne

/-- The names are those of the entries. -/
theorem mem_names (c : Catalog α) {name : String} : name ∈ c.names ↔ c.contains name = true := by
  rw [names, contains, get?, List.lookup_isSome_iff, List.mem_map]
  simp

/-- They ascend strictly. -/
theorem sorted_names (c : Catalog α) : c.names.Pairwise (· < ·) :=
  List.pairwise_map.2 c.sorted

end Catalog

end Runbook
