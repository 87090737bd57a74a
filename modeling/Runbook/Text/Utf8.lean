/-!
# Reading UTF-8

`Utf8.decode` reads bytes as characters. Bytes that are no character are
reported too: as many of them at a time as begin one, and at least one.
`Utf8.fault?` is the first place at which bytes are no character.
-/

namespace Runbook.Utf8

/-- The rest of a character that has begun: its bits so far, how many bytes it
still lacks, and the bounds of the next one. -/
structure Rest where
  /-- the bits so far -/
  bits : Nat
  /-- the bytes that are missing -/
  owed : Nat
  /-- the least next byte -/
  low : Nat
  /-- the greatest next byte -/
  high : Nat
  deriving DecidableEq, Repr

/-- Read a byte between two characters: what it completes, and what it begins. -/
def first (b : Nat) : List (Option Char) × Option Rest :=
  if b < 0x80 then ([some (Char.ofNat b)], none)
  else if 0xC2 ≤ b ∧ b ≤ 0xDF then ([], some ⟨b - 0xC0, 1, 0x80, 0xBF⟩)
  else if b = 0xE0 then ([], some ⟨0, 2, 0xA0, 0xBF⟩)
  else if b = 0xED then ([], some ⟨0xD, 2, 0x80, 0x9F⟩)
  else if 0xE1 ≤ b ∧ b ≤ 0xEF then ([], some ⟨b - 0xE0, 2, 0x80, 0xBF⟩)
  else if b = 0xF0 then ([], some ⟨0, 3, 0x90, 0xBF⟩)
  else if 0xF1 ≤ b ∧ b ≤ 0xF3 then ([], some ⟨b - 0xF0, 3, 0x80, 0xBF⟩)
  else if b = 0xF4 then ([], some ⟨4, 3, 0x80, 0x8F⟩)
  else ([none], none)

/-- Read a byte. -/
def next (b : Nat) : Option Rest → List (Option Char) × Option Rest
  | none => first b
  | some r =>
    if r.low ≤ b ∧ b ≤ r.high then
      let bits := r.bits * 64 + (b - 0x80)
      if r.owed ≤ 1 then ([some (Char.ofNat bits)], none)
      else ([], some ⟨bits, r.owed - 1, 0x80, 0xBF⟩)
    else
      let (cs, r) := first b
      (none :: cs, r)

/-- Read bytes; `none` stands for bytes that are no character. -/
def decodeFrom : Option Rest → List UInt8 → List (Option Char)
  | none, [] => []
  | some _, [] => [none]
  | r, b :: bs => (next b.toNat r).1 ++ decodeFrom (next b.toNat r).2 bs

/-- The characters that the bytes stand for. -/
def decode (bytes : List UInt8) : List (Option Char) := decodeFrom none bytes

/-- The text that the bytes stand for, if all of them belong to characters. -/
def text? (bytes : List UInt8) : Option String := ((decode bytes).mapM id).map String.ofList

/-- The text that the bytes stand for, with a mark in place of bytes that are no
character. -/
def text (bytes : List UInt8) : String :=
  String.ofList ((decode bytes).map fun c => c.getD '\ufffd')

/-! ## Faults -/

/-- A place at which bytes are no character. -/
structure Fault where
  /-- how many bytes stand before it -/
  index : Nat
  /-- how many bytes it takes; none if the bytes end within a character -/
  length : Option Nat
  deriving DecidableEq, Repr

/-- The wording of a fault. -/
def Fault.message : Fault → String
  | ⟨index, none⟩ => "incomplete utf-8 byte sequence from index " ++ toString index
  | ⟨index, some n⟩ =>
    "invalid utf-8 sequence of " ++ toString n ++ " bytes from index " ++ toString index

/-- The first fault, where `read` bytes from `index` on have begun a character. -/
def faultFrom (index read : Nat) : Option Rest → List UInt8 → Option Fault
  | none, [] => none
  | some _, [] => some ⟨index, none⟩
  | r, b :: bs =>
    match next b.toNat r with
    | ([], r) => faultFrom index (read + 1) r bs
    | (some _ :: _, r) => faultFrom (index + read + 1) 0 r bs
    | (none :: _, _) => some ⟨index, some (max read 1)⟩

/-- The first fault. -/
def fault? (bytes : List UInt8) : Option Fault := faultFrom 0 0 none bytes

end Runbook.Utf8
