import Runbook.Json.Shape

/-!
# Printed values are read back

The compact text of a value is read as that value, whatever follows it in the text.

* `Json.Whole` — all numbers in the value are integers of 64 bits.
* `Numeral.scan_toDigits`, `Draft.scanText_escaped` — numbers and strings.
* `Draft.value_chars` — values: the draft of a printed value is the value.
-/

namespace Runbook

/-- What two steps come to, the first one has come to as well. -/
theorem exists_of_bind_eq_ok {ε α β : Type} {x : Except ε α} {f : α → Except ε β} {b : β}
    (h : x >>= f = .ok b) : ∃ a, x = .ok a ∧ f a = .ok b := by
  cases x with
  | error e => cases h
  | ok a => exact ⟨a, rfl, h⟩

namespace Json

mutual

/-- Every number in the value is an integer from `-2 ^ 63` to `2 ^ 64 - 1`. -/
def Whole : Json → Prop
  | int i => Int64.minValue.toInt ≤ i ∧ i < UInt64.size
  | real _ => False
  | list xs => WholeItems xs
  | object ms => WholeMembers ms
  | _ => True

/-- So it is in every item. -/
def WholeItems : List Json → Prop
  | [] => True
  | x :: xs => Whole x ∧ WholeItems xs

/-- So it is in every member. -/
def WholeMembers : List (String × Json) → Prop
  | [] => True
  | (_, v) :: ms => Whole v ∧ WholeMembers ms

end

mutual

/-- That can be decided. -/
def decideWhole : (j : Json) → Decidable j.Whole
  | null | bool _ | text _ => .isTrue trivial
  | int _ => inferInstanceAs (Decidable (_ ∧ _))
  | real _ => .isFalse id
  | list xs => decideWholeItems xs
  | object ms => decideWholeMembers ms

/-- So it can of items. -/
def decideWholeItems : (xs : List Json) → Decidable (WholeItems xs)
  | [] => .isTrue trivial
  | x :: xs => @instDecidableAnd _ _ (decideWhole x) (decideWholeItems xs)

/-- So it can of members. -/
def decideWholeMembers : (ms : List (String × Json)) → Decidable (WholeMembers ms)
  | [] => .isTrue trivial
  | (_, v) :: ms => @instDecidableAnd _ _ (decideWhole v) (decideWholeMembers ms)

end

instance : DecidablePred Whole := decideWhole

/-! ## Numbers -/

/-- The text goes on with nothing that belongs to a number. -/
def Ends (rest : List Char) : Prop :=
  ∀ c ∈ rest.head?, c.isDigit = false ∧ c ≠ '.' ∧ c ≠ 'e' ∧ c ≠ 'E'

namespace Numeral

variable {n m : Nat} {ds rest : List Char}

/-- Digits are read as far as they go. -/
theorem scanDigits_append (some : ds ≠ []) (digits : ∀ c ∈ ds, c.isDigit = true)
    (ends : Ends rest) : scanDigits (ds ++ rest) = .ok (ds, rest) := by
  have front : rest.takeWhile Char.isDigit = [] ∧ rest.dropWhile Char.isDigit = rest := by
    cases rest with
    | nil => simp
    | cons c rest => simp [(ends c rfl).1]
  have whole : (ds ++ rest).takeWhile Char.isDigit = ds := by
    rw [List.takeWhile_append_of_pos digits, front.1, List.append_nil]
  have left : (ds ++ rest).dropWhile Char.isDigit = rest := by
    rw [List.dropWhile_append_of_pos digits, front.2]
  rw [scanDigits, whole, left]
  cases ds with
  | nil => exact absurd rfl some
  | cons c ds => rfl

/-- A number that is not zero does not begin with a zero. -/
theorem head?_toDigits_ne (positive : 0 < n) : (Nat.toDigits 10 n).head? ≠ some '0' := by
  induction n using Nat.strongRecOn with
  | ind n ih =>
    by_cases digit : n < 10
    · have nonzero : ∀ d < 10, 0 < d → d.digitChar ≠ '0' := by decide
      rw [Nat.toDigits_of_lt_base digit]
      simpa using nonzero n digit positive
    · have more : Nat.toDigits 10 n = Nat.toDigits 10 (n / 10) ++ [(n % 10).digitChar] :=
        Nat.toDigits_of_base_le (by omega) (by omega)
      have before := ih (n / 10) (by omega) (by omega)
      cases digits : Nat.toDigits 10 (n / 10) with
      | nil => exact absurd digits Nat.toDigits_ne_nil
      | cons c ds =>
        rw [digits] at before more
        simpa [more] using before

/-- So the digits of a number are read, since no number but zero begins with a zero. -/
theorem scanWhole_toDigits (n : Nat) (ends : Ends rest) :
    scanWhole (Nat.toDigits 10 n ++ rest) = .ok (Nat.toDigits 10 n, rest) := by
  have scanned := scanDigits_append Nat.toDigits_ne_nil
    (fun c => Nat.isDigit_of_mem_toDigits (b := 10) (n := n) (by decide) (by decide)) ends
  rw [scanWhole, scanned]
  by_cases positive : 0 < n
  · have head := head?_toDigits_ne positive
    cases digits : Nat.toDigits 10 n with
    | nil => rfl
    | cons c ds =>
      have nonzero : c ≠ '0' := by simpa [digits] using head
      cases ds with
      | nil => simp [bind, Except.bind]
      | cons d ds => simp [bind, Except.bind, nonzero]
  · obtain rfl : n = 0 := by omega
    rfl

/-- There is no point after it, -/
theorem scanFraction_of_ends (ends : Ends rest) : scanFraction rest = .ok (none, rest) := by
  cases rest with
  | nil => rfl
  | cons c rest =>
    have point := (ends c rfl).2.1
    simp [scanFraction, point]

/-- and no exponent, as neither of them can follow a value. -/
theorem scanExponent_of_ends (ends : Ends rest) : scanExponent rest = .ok (none, rest) := by
  cases rest with
  | nil => rfl
  | cons c rest =>
    obtain ⟨-, -, lower, upper⟩ := ends c rfl
    simp [scanExponent, lower, upper]

/-- A number behind a sign. -/
theorem scan_minus_toDigits (n : Nat) (ends : Ends rest) :
    scan ('-' :: (Nat.toDigits 10 n ++ rest)) =
      .ok (⟨true, Nat.toDigits 10 n, none, none⟩, rest) := by
  simp [scan, scanWhole_toDigits n ends, scanFraction_of_ends ends, scanExponent_of_ends ends,
    bind, Except.bind, pure, Except.pure]

/-- A number without a sign: a digit is none. -/
theorem scan_toDigits (n : Nat) (ends : Ends rest) :
    scan (Nat.toDigits 10 n ++ rest) = .ok (⟨false, Nat.toDigits 10 n, none, none⟩, rest) := by
  have whole := scanWhole_toDigits n ends
  cases digits : Nat.toDigits 10 n with
  | nil => exact absurd digits Nat.toDigits_ne_nil
  | cons c ds =>
    have digit : c.isDigit = true :=
      Nat.isDigit_of_mem_toDigits (b := 10) (n := n) (by decide) (by decide) (by simp [digits])
    have unsigned : c ≠ '-' := by
      rintro rfl
      simp at digit
    rw [digits] at whole
    simp only [List.cons_append] at whole ⊢
    simp [scan, unsigned, whole, scanFraction_of_ends ends, scanExponent_of_ends ends, bind,
      Except.bind, pure, Except.pure]

/-- With more digits a number does not become less. -/
theorem le_ofDigitChars (ds : List Char) (m : Nat) : m ≤ Nat.ofDigitChars 10 ds m := by
  induction ds generalizing m with
  | nil => exact Nat.le_refl _
  | cons c ds ih =>
    have later := ih (10 * m + (c.toNat - '0'.toNat))
    rw [Nat.ofDigitChars, List.foldl_cons]
    rw [Nat.ofDigitChars] at later
    omega

/-- Digits of a number that is a word are all taken. -/
theorem accumulate_of_le (fits : Nat.ofDigitChars 10 ds m ≤ wordMax) :
    accumulate m ds = (Nat.ofDigitChars 10 ds m, []) := by
  induction ds generalizing m with
  | nil => rfl
  | cons c ds ih =>
    have next : m * 10 + digitValue c = 10 * m + (c.toNat - '0'.toNat) := by
      rw [digitValue, Nat.mul_comm]
    have small := Nat.le_trans (le_ofDigitChars ds (10 * m + (c.toNat - '0'.toNat))) fits
    rw [accumulate, next, if_pos small]
    exact ih fits

/-- So a number that fits is read with all of its digits: if it fits, its first digits do. -/
theorem accumulate_toDigits (fits : n ≤ wordMax) :
    accumulate 0 (Nat.toDigits 10 n) = (n, []) := by
  have value : Nat.ofDigitChars 10 (Nat.toDigits 10 n) 0 = n :=
    Nat.ofDigitChars_toDigits (by decide) (by decide)
  rw [accumulate_of_le (value.symm ▸ fits), value]

/-- A number is the integer that was written. -/
theorem value_whole (negative : Bool) (fits : n ≤ wordMax) :
    value ⟨negative, Nat.toDigits 10 n, none, none⟩ = integerValue negative n := by
  simp [value, accumulate_toDigits fits]

end Numeral

/-- The text of an integer. -/
theorem toList_toString_natCast (n : Nat) : (toString (n : Int)).toList = Nat.toDigits 10 n := by
  change (n.repr).toList = _
  rw [Nat.toList_repr]

/-- A negative number is printed with a sign before its digits. -/
theorem toList_toString_negSucc (n : Nat) :
    (toString (Int.negSucc n)).toList = '-' :: Nat.toDigits 10 (n + 1) := by
  change ("-" ++ (n + 1).repr).toList = _
  rw [String.toList_append, Nat.toList_repr]
  rfl

/-- An integer is read as it was written. -/
theorem ofNumber_toString {i : Int} {rest : List Char} (low : Int64.minValue.toInt ≤ i)
    (high : i < UInt64.size) (ends : Ends rest) :
    Draft.ofNumber ((toString i).toList ++ rest) = (.int i, rest) := by
  cases i with
  | ofNat n =>
    have fits : n ≤ Numeral.wordMax := by
      have less : n < UInt64.size := Int.ofNat_lt.1 high
      rw [Numeral.wordMax]
      omega
    have value : Numeral.value ⟨false, Nat.toDigits 10 n, none, none⟩ = some (.int n) :=
      Numeral.value_whole false fits
    rw [Int.ofNat_eq_natCast, toList_toString_natCast, Draft.ofNumber, Numeral.scan_toDigits n ends]
    dsimp only
    rw [value]
  | negSucc n =>
    have least : Int64.minValue.toInt = -9223372036854775808 := by decide
    have word : Numeral.wordMax = 18446744073709551615 := by decide
    have value : Numeral.value ⟨true, Nat.toDigits 10 (n + 1), none, none⟩ =
        some (.int (Int.negSucc n)) := by
      rw [Numeral.value_whole true (by omega), Numeral.integerValue, if_pos rfl,
        if_neg (Nat.succ_ne_zero n), if_pos (by omega)]
      rfl
    rw [toList_toString_negSucc, List.cons_append, Draft.ofNumber,
      Numeral.scan_minus_toDigits (n + 1) ends]
    dsimp only
    rw [value]

end Json

namespace Draft

open Json

variable {c : Char} {cs s rest : List Char} {fuel : Nat}

/-! ## Strings -/

/-- What is printed as a hexadecimal digit is read as one. -/
theorem hexValue?_hexDigit : ∀ n < 16, hexValue? (hexDigit n) = some n := by decide

/-- Four characters have four bytes or more, so there is enough left to be read. -/
theorem four_le_byteCount (a b c d : Char) : 4 ≤ byteCount [a, b, c, d] := by
  have ha := a.utf8Size_pos
  have hb := b.utf8Size_pos
  have hc := c.utf8Size_pos
  have hd := d.utf8Size_pos
  simp only [byteCount, List.foldl_cons, List.foldl_nil]
  omega

/-- The escape of a control character. -/
theorem scanUnicode_control (control : c.toNat < 32) (s : List Char) :
    scanUnicode ('0' :: '0' :: hexDigit (c.toNat / 16) :: hexDigit (c.toNat % 16) :: s) =
      .ok (c, s) := by
  have high := hexValue?_hexDigit (c.toNat / 16) (by omega)
  have low := hexValue?_hexDigit (c.toNat % 16) (by omega)
  have zero : hexValue? '0' = some 0 := by decide
  have enough := four_le_byteCount '0' '0' (hexDigit (c.toNat / 16)) (hexDigit (c.toNat % 16))
  have unit : ((0 * 16 + 0) * 16 + c.toNat / 16) * 16 + c.toNat % 16 = c.toNat := by omega
  have scanned : scanHex ('0' :: '0' :: hexDigit (c.toNat / 16) :: hexDigit (c.toNat % 16) :: s) =
      .ok (c.toNat, s) := by
    rw [scanHex, if_neg (by simpa using enough)]
    simp only [zero, high, low, unit]
  have lowHalf : isLowSurrogate c.toNat = false := by
    simp only [isLowSurrogate, Bool.and_eq_false_iff, decide_eq_false_iff_not]
    omega
  have highHalf : isHighSurrogate c.toNat = false := by
    simp only [isHighSurrogate, Bool.and_eq_false_iff, decide_eq_false_iff_not]
    omega
  rw [scanUnicode, scanned]
  simp [bind, Except.bind, lowHalf, highHalf, pure, Except.pure]

/-- One character of a string, escaped or not. -/
theorem scanText_escapeChar (fuel : Nat) (c : Char) (s : List Char) :
    scanText (fuel + 1) (escapeChar c ++ s) =
      (scanText fuel s).map fun found => (c :: found.1, found.2) := by
  have scanned : (scanText fuel s >>= fun found => pure (c :: found.1, found.2)) =
      (scanText fuel s).map fun found => (c :: found.1, found.2) := by
    cases scanText fuel s <;> rfl
  have short (e : Char) (escape : shortEscape? e = some c) (unicode : e ≠ 'u') :
      scanText (fuel + 1) ('\\' :: e :: s) =
        (scanText fuel s >>= fun found => pure (c :: found.1, found.2)) := by
    rw [scanText]
    · simp [escape]
    · exact unicode
  -- each way to write a character is read in its own way
  rw [← scanned, escapeChar]
  split
  · next same => exact short '"' (by rw [same]; rfl) (by decide)
  · next quote =>
    split
    · next same => exact short '\\' (by rw [same]; rfl) (by decide)
    · next backslash =>
      split
      · next printable =>
        have control : ¬ c.toNat < 32 := by omega
        simp [scanText, quote, backslash, control]
      · next control =>
        split
        · next same => exact short 'b' (by rw [same]; rfl) (by decide)
        split
        · next same => exact short 't' (by rw [same]; rfl) (by decide)
        split
        · next same => exact short 'n' (by rw [same]; rfl) (by decide)
        split
        · next same => exact short 'f' (by rw [same]; rfl) (by decide)
        split
        · next same => exact short 'r' (by rw [same]; rfl) (by decide)
        · have unicode := scanUnicode_control (Nat.not_le.1 control) s
          simp [scanText, unicode, bind, Except.bind]

/-- The content of a printed string is read up to the closing quote. -/
theorem scanText_escaped (enough : cs.length < fuel) (rest : List Char) :
    scanText fuel (cs.flatMap escapeChar ++ '"' :: rest) = .ok (cs, rest) := by
  induction cs generalizing fuel with
  | nil =>
    obtain ⟨fuel, rfl⟩ := Nat.exists_eq_succ_of_ne_zero (Nat.ne_of_gt enough)
    simp [scanText]
  | cons c cs ih =>
    obtain ⟨fuel, rfl⟩ := Nat.exists_eq_succ_of_ne_zero (Nat.ne_of_gt (Nat.zero_lt_of_lt enough))
    have fewer : cs.length < fuel := by simpa using enough
    rw [List.flatMap_cons, List.append_assoc, scanText_escapeChar, ih fewer]
    rfl

/-- A text does not become shorter when it is escaped, which bounds how many steps it takes to read
it back. -/
theorem length_le_length_escaped (cs : List Char) :
    cs.length ≤ (cs.flatMap escapeChar).length := by
  induction cs with
  | nil => simp
  | cons c cs ih =>
    have one : 1 ≤ (escapeChar c).length := by
      rw [escapeChar]
      repeat' split
      all_goals simp
    simp only [List.flatMap_cons, List.length_append, List.length_cons]
    omega

/-- A string is read as it was printed. -/
theorem ofQuoted_escaped (t : String) (rest : List Char) :
    ofQuoted (t.toList.flatMap escapeChar ++ '"' :: rest) = (.text t, rest) := by
  have enough : t.toList.length <
      (t.toList.flatMap escapeChar ++ '"' :: rest).length + 1 := by
    have := length_le_length_escaped t.toList
    simp only [List.length_append, List.length_cons]
    omega
  rw [ofQuoted, scanText_escaped enough]
  simp

/-! ## Values -/

/-- Printed values have no blanks outside of texts. -/
theorem skipBlanks_cons (solid : isBlank c = false) (s : List Char) :
    skipBlanks (c :: s) = c :: s := by
  simp [skipBlanks, solid]

/-- A draft that was made of a value has no fault. -/
theorem isBroken_ofJson (j : Json) : (ofJson j).isBroken = false := by
  cases j <;> rfl

/-- A digit opens no other value. -/
theorem value_number (number : c = '-' ∨ c.isDigit = true) (fuel : Nat) (s : List Char) :
    value (fuel + 1) (c :: s) = ofNumber (c :: s) := by
  rcases number with rfl | digit
  · rfl
  · have solid : isBlank c = false := by
      rw [Bool.eq_false_iff]
      intro blank
      simp only [isBlank, Bool.or_eq_true, beq_iff_eq] at blank
      rcases blank with ((rfl | rfl) | rfl) | rfl <;> simp at digit
    have other (d : Char) (letter : d.isDigit = false) : c ≠ d := by
      rintro rfl
      simp [letter] at digit
    rw [value, skipBlanks_cons solid]
    simp [digit, other 'n' rfl, other 't' rfl, other 'f' rfl, other '"' rfl]

/-- A list that is not empty begins with its first item. -/
theorem value_list (solid : isBlank c = false) (opens : c ≠ ']') (fuel : Nat) (s : List Char) :
    value (fuel + 1) ('[' :: c :: s) = items fuel (c :: s) := by
  rw [value, skipBlanks_cons rfl]
  simp [skipBlanks_cons solid, opens]

/-- An object that is not empty begins with the text of its first key. -/
theorem value_object (fuel : Nat) (s : List Char) :
    value (fuel + 1) ('\x7b' :: '"' :: s) = members fuel ('"' :: s) := rfl

/-- The last item of an array. -/
theorem items_last {first : Draft} (here : value fuel s = (first, ']' :: rest))
    (well : first.isBroken = false) : items (fuel + 1) s = (.list [first] none, rest) := by
  rw [items, here]
  simp [well, skipBlanks_cons (c := ']') rfl]

/-- An item before others. -/
theorem items_more {first : Draft} {others : List Draft} {ending : Option Fault}
    {more : List Char} (here : value fuel s = (first, ',' :: more)) (well : first.isBroken = false)
    (later : items fuel more = (.list others ending, rest)) :
    items (fuel + 1) s = (.list (first :: others) ending, rest) := by
  rw [items, here]
  simp [well, skipBlanks_cons (c := ',') rfl, later]

/-- The last member of an object. -/
theorem members_last {k : String} {v : Draft} {more : List Char}
    (key : value fuel s = (.text k, ':' :: more)) (here : value fuel more = (v, '\x7d' :: rest))
    (well : v.isBroken = false) :
    members (fuel + 1) s = (.object [(.text k, v)] none, rest) := by
  rw [members, key]
  simp [skipBlanks_cons (c := ':') rfl, here, well, skipBlanks_cons (c := '\x7d') rfl]

/-- A member before others. -/
theorem members_more {k : String} {v : Draft} {more after : List Char}
    {others : List (Draft × Draft)} {ending : Option Fault}
    (key : value fuel s = (.text k, ':' :: more)) (here : value fuel more = (v, ',' :: after))
    (well : v.isBroken = false) (later : members fuel after = (.object others ending, rest)) :
    members (fuel + 1) s = (.object ((.text k, v) :: others) ending, rest) := by
  rw [members, key]
  simp [skipBlanks_cons (c := ':') rfl, here, well, skipBlanks_cons (c := ',') rfl, later]

/-- A printed string is read. -/
theorem value_printText (k : String) (fuel : Nat) (rest : List Char) :
    value (fuel + 1) (printText k ++ rest) = (.text k, rest) := by
  have quoted : printText k ++ rest = '"' :: (k.toList.flatMap escapeChar ++ '"' :: rest) := by
    simp [printText]
  rw [quoted]
  exact ofQuoted_escaped k rest

/-- A printed integer begins with a digit or a sign. -/
theorem exists_cons_toString (i : Int) :
    ∃ c s, (toString i).toList = c :: s ∧ (c = '-' ∨ c.isDigit = true) := by
  cases i with
  | ofNat n =>
    rw [Int.ofNat_eq_natCast, toList_toString_natCast]
    cases digits : Nat.toDigits 10 n with
    | nil => exact absurd digits Nat.toDigits_ne_nil
    | cons c ds =>
      refine ⟨c, ds, rfl, .inr ?_⟩
      exact Nat.isDigit_of_mem_toDigits (b := 10) (n := n) (by decide) (by decide)
        (by simp [digits])
  | negSucc n => exact ⟨'-', _, toList_toString_negSucc n, .inl rfl⟩

/-- A printed value opens with a character that is no blank and closes nothing. -/
theorem exists_cons_chars {j : Json} (whole : j.Whole) :
    ∃ c s, j.chars = c :: s ∧ isBlank c = false ∧ c ≠ ']' := by
  cases j with
  | null => exact ⟨_, _, rfl, by decide, by decide⟩
  | bool b => cases b <;> exact ⟨_, _, rfl, by decide, by decide⟩
  | int i =>
    obtain ⟨c, s, text, number⟩ := exists_cons_toString i
    have solid : ∀ d, (isBlank d = true ∨ d = ']') → d ≠ '-' ∧ d.isDigit = false := by
      intro d blank
      simp only [isBlank, Bool.or_eq_true, beq_iff_eq] at blank
      rcases blank with (((rfl | rfl) | rfl) | rfl) | rfl <;> decide
    refine ⟨c, s, text, ?_, ?_⟩
    · rw [Bool.eq_false_iff]
      intro blank
      obtain ⟨sign, digit⟩ := solid c (.inl blank)
      simp [sign, digit] at number
    · intro bracket
      obtain ⟨sign, digit⟩ := solid c (.inr bracket)
      simp [sign, digit] at number
  | real x => exact whole.elim
  | text t => exact ⟨_, _, rfl, by decide, by decide⟩
  | list xs => cases xs <;> exact ⟨_, _, rfl, by decide, by decide⟩
  | object ms => cases ms <;> exact ⟨_, _, rfl, by decide, by decide⟩

/-- What is left of a list has its closing bracket, at least, -/
theorem length_itemChars_pos (xs : List Json) : 0 < (itemChars xs).length := by
  cases xs <;> simp [itemChars]

/-- and what is left of an object has its closing brace. -/
theorem length_memberChars_pos (ms : List (String × Json)) : 0 < (memberChars ms).length := by
  cases ms <;> simp [memberChars]

/-- So a value in a list ends where it ends, whatever comes after the list, -/
theorem ends_itemChars (xs : List Json) (rest : List Char) : Ends (itemChars xs ++ rest) := by
  cases xs <;> simp [itemChars, Ends]

/-- and so does one in an object. -/
theorem ends_memberChars (ms : List (String × Json)) (rest : List Char) :
    Ends (memberChars ms ++ rest) := by
  cases ms <;> simp [memberChars, Ends]

mutual

/-- The draft of a printed value is the value. -/
theorem value_chars (j : Json) (whole : j.Whole) (fuel : Nat) (enough : j.chars.length ≤ fuel)
    {rest : List Char} (ends : Ends rest) : value fuel (j.chars ++ rest) = (ofJson j, rest) := by
  obtain ⟨c, s, chars, -⟩ := exists_cons_chars whole
  -- a value has at least one character, so there is fuel for it
  obtain ⟨fuel, rfl⟩ : ∃ n, fuel = n + 1 := by
    apply Nat.exists_eq_succ_of_ne_zero
    rintro rfl
    simp [chars] at enough
  match j with
  | .null => rfl
  | .bool true | .bool false => rfl
  | .int i =>
    obtain ⟨c, s, text, number⟩ := exists_cons_toString i
    have read := ofNumber_toString whole.1 whole.2 ends
    rw [text, List.cons_append] at read
    rw [Json.chars, text, List.cons_append, value_number number, read]
    rfl
  | .real x => exact whole.elim
  | .text t => exact value_printText t fuel rest
  | .list [] => rfl
  | .list (x :: xs) =>
    obtain ⟨c, s, first, solid, opens⟩ := exists_cons_chars whole.1
    have closing := length_itemChars_pos xs
    simp only [Json.chars, List.cons_append, List.length_cons, List.length_append] at enough ⊢
    obtain ⟨fuel, rfl⟩ : ∃ n, fuel = n + 1 := Nat.exists_eq_succ_of_ne_zero (by omega)
    have here := value_chars x whole.1 fuel (by omega) (ends_itemChars xs rest)
    have inside := items_chars xs whole.2 (by omega) here (isBroken_ofJson x)
    rw [first] at inside ⊢
    rw [List.append_assoc]
    exact (value_list solid opens _ _).trans inside
  | .object [] => rfl
  | .object ((k, v) :: ms) =>
    simp only [Json.chars, printText, List.cons_append, List.length_cons, List.length_append,
      List.append_assoc] at enough ⊢
    obtain ⟨fuel, rfl⟩ : ∃ n, fuel = n + 1 + 1 := ⟨fuel - 2, by omega⟩
    have key := value_printText k fuel (':' :: (v.chars ++ (memberChars ms ++ rest)))
    have here := value_chars v whole.1 (fuel + 1) (by omega) (ends_memberChars ms rest)
    have inside := members_chars ms whole.2 (by omega) key here (isBroken_ofJson v)
    simp only [printText, List.cons_append, List.append_assoc] at inside
    exact (value_object _ _).trans inside

/-- After the first item the others follow. -/
theorem items_chars (xs : List Json) (whole : WholeItems xs) {fuel : Nat}
    (enough : (itemChars xs).length ≤ fuel + 1) {first : Draft} {s rest : List Char}
    (here : value fuel s = (first, itemChars xs ++ rest)) (well : first.isBroken = false) :
    items (fuel + 1) s = (.list (first :: ofItems xs) none, rest) := by
  match xs with
  | [] => exact items_last here well
  | y :: ys =>
    have closing := length_itemChars_pos ys
    simp only [itemChars, List.cons_append, List.length_cons, List.length_append] at enough here
    obtain ⟨fuel, rfl⟩ : ∃ n, fuel = n + 1 := Nat.exists_eq_succ_of_ne_zero (by omega)
    have next := value_chars y whole.1 fuel (by omega) (ends_itemChars ys rest)
    have later := items_chars ys whole.2 (by omega) next (isBroken_ofJson y)
    rw [List.append_assoc] at here
    exact items_more here well later

/-- After the first member the others follow. -/
theorem members_chars (ms : List (String × Json)) (whole : WholeMembers ms) {fuel : Nat}
    (enough : (memberChars ms).length ≤ fuel + 1) {k : String} {v : Draft}
    {s more rest : List Char} (key : value fuel s = (.text k, ':' :: more))
    (here : value fuel more = (v, memberChars ms ++ rest)) (well : v.isBroken = false) :
    members (fuel + 1) s = (.object ((.text k, v) :: ofMembers ms) none, rest) := by
  match ms with
  | [] => exact members_last key here well
  | (l, w) :: ms =>
    have closing := length_memberChars_pos ms
    simp only [memberChars, printText, List.cons_append, List.length_cons, List.length_append,
      List.append_assoc] at enough here
    obtain ⟨fuel, rfl⟩ : ∃ n, fuel = n + 1 + 1 := ⟨fuel - 2, by omega⟩
    have next := value_printText l fuel (':' :: (w.chars ++ (memberChars ms ++ rest)))
    have value := value_chars w whole.1 (fuel + 1) (by omega) (ends_memberChars ms rest)
    have later := members_chars ms whole.2 (by omega) next value (isBroken_ofJson w)
    simp only [printText, List.cons_append, List.append_assoc] at later
    exact members_more key here well later

end

/-- The draft of a printed value is the value, and nothing follows. -/
theorem ofText_print {j : Json} (whole : j.Whole) : ofText j.print = (ofJson j, false) := by
  have ends : Ends [] := by simp [Ends]
  have read := value_chars j whole (2 * j.chars.length + 2) (by omega) ends
  rw [List.append_nil] at read
  simp only [ofText, Json.print, String.toList_ofList, read]
  rfl

end Draft

/-- What is read of a text is read of its draft, whatever comes after it. -/
theorem Json.exists_decode_of_read {α : Type} {shape : Shape α} {text : String} {a : α}
    (h : Json.read shape text = .ok a) :
    ∃ d, shape.decode (.text Json.nestingLimit) d = .ok a := by
  rw [Json.read] at h
  generalize Draft.ofText text = scanned at h
  obtain ⟨d, trailing⟩ := scanned
  obtain ⟨b, decoded, h⟩ := exists_of_bind_eq_ok h
  cases trailing with
  | true => cases h
  | false =>
    cases h
    exact ⟨d, decoded⟩

end Runbook
