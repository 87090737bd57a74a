import Runbook.Record.Codec

/-!
# Queries for stored runs

A query filters by business object, status and procedure, each of them
optional, and asks for one page of what matches. Pages are counted from 1.

The number of runs before a page is counted in 64 bits. It stays far below what
fits there, whatever page is asked for.
-/

namespace Runbook

/-- A query for runs, as it was asked. -/
structure RunQuery where
  /-- only runs on that business object -/
  bizId : Option String
  /-- only runs of that status -/
  status : Option Status
  /-- only runs of that procedure -/
  name : Option String
  /-- the page, from 1 -/
  page : Option UInt32
  /-- the number of runs on a page -/
  pageSize : Option UInt32
  deriving DecidableEq, Repr

namespace RunQuery

/-- The first page of all runs. -/
def everything : RunQuery := ⟨none, none, none, none, none⟩

instance : Inhabited RunQuery := ⟨everything⟩

/-- How many runs a page has if the query does not say. -/
def defaultPageSize : UInt32 := 20

/-- The largest page. -/
def maxPageSize : Nat := 500

/-- The page that is meant; a page 0 is page 1. -/
def effectivePage (q : RunQuery) : Nat := max 1 (q.page.getD 1).toNat

/-- The page size that is meant, brought between 1 and 500. -/
def effectivePageSize (q : RunQuery) : Nat :=
  min maxPageSize (max 1 (q.pageSize.getD defaultPageSize).toNat)

/-- The product of two words, or the largest word if the product is not one. -/
def saturatingMul (a b : UInt64) : UInt64 :=
  if a.toNat * b.toNat < UInt64.size then a * b else UInt64.ofNat (UInt64.size - 1)

/-- How many matching runs come before the page. -/
def offset (q : RunQuery) : Nat :=
  (saturatingMul (UInt64.ofNat (q.effectivePage - 1)) (UInt64.ofNat q.effectivePageSize)).toNat

/-- Whether a run passes the filters. -/
def accepts (q : RunQuery) (r : RunRecord) : Bool :=
  q.bizId.all (· == r.bizId) && q.status.all (· == r.status) && q.name.all (· == r.name)

/-- The runs of the page, out of all that match, for a store that can skip at
most so many. -/
def pageOf {α : Type} (q : RunQuery) (most : Nat) (matching : List α) : List α :=
  (matching.drop (min most q.offset)).take q.effectivePageSize

/-- An unsigned 32-bit word. -/
def wordShape : Shape UInt32 := (Shape.natural 32 "u32").map UInt32.ofNat

/-- The fields of a query. -/
def form : Form RunQuery :=
  RunQuery.mk <$> .optional "bizId" .string <*> .optional "status" Status.shape
    <*> .optional "name" .string <*> .optional "page" wordShape
    <*> .optional "pageSize" wordShape

/-- How a query is read. -/
def shape : Shape RunQuery := form.record "WorkflowQuery"

/-! ## Pages -/

variable (q : RunQuery)

theorem effectivePage_pos : 0 < q.effectivePage := Nat.le_max_left ..

theorem effectivePage_lt : q.effectivePage < UInt32.size :=
  Nat.max_lt.2 ⟨by decide, UInt32.toNat_lt_size _⟩

theorem effectivePageSize_pos : 0 < q.effectivePageSize :=
  Nat.lt_min.2 ⟨by decide, Nat.le_max_left ..⟩

theorem effectivePageSize_le : q.effectivePageSize ≤ maxPageSize := Nat.min_le_left ..

/-- A product that is a word is the product. -/
theorem toNat_saturatingMul {a b : UInt64} (fits : a.toNat * b.toNat < UInt64.size) :
    (saturatingMul a b).toNat = a.toNat * b.toNat := by
  rw [saturatingMul, if_pos fits, UInt64.toNat_mul, Nat.mod_eq_of_lt fits]

/-- The runs before a page are counted without loss. -/
theorem offset_eq : q.offset = (q.effectivePage - 1) * q.effectivePageSize := by
  have page := q.effectivePage_lt
  have size := q.effectivePageSize_le
  have bound : (q.effectivePage - 1) * q.effectivePageSize ≤ UInt32.size * maxPageSize :=
    Nat.mul_le_mul (by omega) size
  have page64 : (UInt64.ofNat (q.effectivePage - 1)).toNat = q.effectivePage - 1 :=
    UInt64.toNat_ofNat_of_lt' (Nat.lt_of_le_of_lt (Nat.sub_le ..) (Nat.lt_trans page (by decide)))
  have size64 : (UInt64.ofNat q.effectivePageSize).toNat = q.effectivePageSize :=
    UInt64.toNat_ofNat_of_lt' (Nat.lt_of_le_of_lt size (by decide))
  rw [offset, toNat_saturatingMul, page64, size64]
  rw [page64, size64]
  exact Nat.lt_of_le_of_lt bound (by decide)

theorem offset_le : q.offset ≤ UInt32.size * maxPageSize := by
  rw [offset_eq]
  exact Nat.mul_le_mul (Nat.le_trans (Nat.sub_le ..) (Nat.le_of_lt q.effectivePage_lt))
    q.effectivePageSize_le

/-- A store that can skip that many runs gives the page. -/
theorem pageOf_eq {α : Type} {most : Nat} (skips : UInt32.size * maxPageSize ≤ most)
    (matching : List α) : q.pageOf most matching =
      (matching.drop ((q.effectivePage - 1) * q.effectivePageSize)).take q.effectivePageSize := by
  rw [pageOf, Nat.min_eq_right (Nat.le_trans q.offset_le skips), offset_eq]

end RunQuery

end Runbook
