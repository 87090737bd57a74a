import Runbook.Json.Number

/-!
# Drafts: JSON text up to its first fault

A reader that is told what to expect can find a value of the wrong kind before
it comes to a place where the text is not JSON at all, and the two are reported
differently. So text is first taken apart into a *draft*: the tree of what
stands there, with the first malformed place as a leaf. Nothing is judged yet.

* `Draft` — such a tree. Strings with unpaired surrogates and numbers that are
  too large are leaves of their own: they are errors to who reads them, and
  harmless to who skips them.
* `Draft.ofText` — the draft of a text, and whether anything but blanks follows.
* `Draft.skip` — what a reader meets that ignores the value.
-/

namespace Runbook

open Json

/-- The tree of a JSON text. After a fault nothing follows. -/
inductive Draft where
  /-- the null value -/
  | null
  /-- a truth value -/
  | bool (b : Bool)
  /-- an integer in range -/
  | int (i : Int)
  /-- any other number -/
  | real (x : Binary64)
  /-- a number that is too large -/
  | outsize
  /-- a string -/
  | text (s : String)
  /-- a string that cannot be read; `skip` is the fault for who ignores it -/
  | garbledText (read : Fault) (skip : Option Fault)
  /-- no value: the faults for who reads it and who ignores it -/
  | garbled (read : Fault) (skip : Fault)
  /-- the null value, cut short or misspelt after its first letter -/
  | garbledNull (f : Fault)
  /-- the text ends where a value should stand -/
  | absent
  /-- an array, with the fault that stands in place of its closing bracket -/
  | list (items : List Draft) (ending : Option Fault)
  /-- an object, with the fault that stands in place of its closing brace -/
  | object (members : List (Draft × Draft)) (ending : Option Fault)
  deriving Inhabited

namespace Draft

/-! ## Blanks and words -/

/-- Whether a character may stand between tokens. -/
def isBlank (c : Char) : Bool := c == ' ' || c == '\n' || c == '\t' || c == '\r'

/-- The text from its first character that is not blank. -/
def skipBlanks (s : List Char) : List Char := s.dropWhile isBlank

/-- What is left of the text after a word. -/
def scanWord : List Char → List Char → Except Fault (List Char)
  | [], s => .ok s
  | _ :: _, [] => .error .unfinished
  | w :: ws, c :: s => if w = c then scanWord ws s else .error .malformed

/-! ## Strings -/

/-- The value of a hexadecimal digit. -/
def hexValue? (c : Char) : Option Nat :=
  if c.isDigit then some (digitValue c)
  else if 'a' ≤ c ∧ c ≤ 'f' then some (c.toNat - 'a'.toNat + 10)
  else if 'A' ≤ c ∧ c ≤ 'F' then some (c.toNat - 'A'.toNat + 10)
  else none

/-- How many bytes the characters take in UTF-8. -/
def byteCount (s : List Char) : Nat := s.foldl (fun n c => n + c.utf8Size) 0

/-- Four hexadecimal digits. With fewer than four bytes left the text is
unfinished, whatever they are. -/
def scanHex (s : List Char) : Except Fault (Nat × List Char) :=
  if byteCount (s.take 4) < 4 then .error .unfinished
  else match s with
    | a :: b :: c :: d :: rest =>
      match hexValue? a, hexValue? b, hexValue? c, hexValue? d with
      | some a, some b, some c, some d => .ok (((a * 16 + b) * 16 + c) * 16 + d, rest)
      | _, _, _, _ => .error .malformed
    | _ => .error .malformed

/-- The character that a short escape stands for. -/
def shortEscape? (c : Char) : Option Char :=
  if c = '"' then some '"'
  else if c = '\\' then some '\\'
  else if c = '/' then some '/'
  else if c = 'b' then some '\x08'
  else if c = 'f' then some '\x0c'
  else if c = 'n' then some '\n'
  else if c = 'r' then some '\r'
  else if c = 't' then some '\t'
  else none

/-- Whether a code unit opens a surrogate pair. -/
def isHighSurrogate (n : Nat) : Bool := 0xD800 ≤ n && n ≤ 0xDBFF

/-- Whether a code unit closes a surrogate pair. -/
def isLowSurrogate (n : Nat) : Bool := 0xDC00 ≤ n && n ≤ 0xDFFF

/-- The character of the escape whose backslash and `u` have been read. A
surrogate must be the first of a pair of escapes. -/
def scanUnicode (s : List Char) : Except Fault (Char × List Char) := do
  let (high, s) ← scanHex s
  if isLowSurrogate high then .error .malformed
  else if isHighSurrogate high then
    match s with
    | [] | ['\\'] => .error .unfinished
    | '\\' :: 'u' :: s => do
      let (low, s) ← scanHex s
      if isLowSurrogate low then
        return (Char.ofNat (0x10000 + (high - 0xD800) * 0x400 + (low - 0xDC00)), s)
      else .error .malformed
    | _ => .error .malformed
  else return (Char.ofNat high, s)

/-- The characters of a string up to its closing quote, and what follows it.
The fuel bounds the number of characters. -/
def scanText : Nat → List Char → Except Fault (List Char × List Char)
  | 0, _ | _, [] => .error .unfinished
  | fuel + 1, c :: s =>
    if c = '"' then .ok ([], s)
    else if c = '\\' then
      match s with
      | [] => .error .unfinished
      | 'u' :: s => do
        let (c, s) ← scanUnicode s
        let (cs, rest) ← scanText fuel s
        return (c :: cs, rest)
      | e :: s =>
        match shortEscape? e with
        | some c => do
          let (cs, rest) ← scanText fuel s
          return (c :: cs, rest)
        | none => .error .malformed
    else if c.toNat < 0x20 then .error .malformed
    else do
      let (cs, rest) ← scanText fuel s
      return (c :: cs, rest)

/-- What follows the closing quote of a string whose content is ignored. -/
def skipText : Nat → List Char → Except Fault (List Char)
  | 0, _ | _, [] => .error .unfinished
  | fuel + 1, c :: s =>
    if c = '"' then .ok s
    else if c = '\\' then
      match s with
      | [] => .error .unfinished
      | 'u' :: s => do
        let (_, s) ← scanHex s
        skipText fuel s
      | e :: s => if (shortEscape? e).isSome then skipText fuel s else .error .malformed
    else if c.toNat < 0x20 then .error .malformed
    else skipText fuel s

/-! ## Values -/

/-- The rest of a word that stands for a value, or what it is if cut short or
misspelt. -/
def ofWord (word : List Char) (value : Draft) (garbled : Fault → Draft) (s : List Char) :
    Draft × List Char :=
  match scanWord word s with
  | .ok rest => (value, rest)
  | .error fault => (garbled fault, [])

/-- No value, with one fault for who reads it and who ignores it. -/
def noValue (f : Fault) : Draft := .garbled f f

/-- A number. Who ignores it takes a number that is cut short for malformed. -/
def ofNumber (s : List Char) : Draft × List Char :=
  match Numeral.scan s with
  | .error fault => (.garbled fault .malformed, [])
  | .ok (numeral, rest) =>
    match numeral.value with
    | some (.int i) => (.int i, rest)
    | some (.real x) => (.real x, rest)
    | _ => (.outsize, rest)

/-- A string whose opening quote has been read. -/
def ofQuoted (s : List Char) : Draft × List Char :=
  match scanText (s.length + 1) s with
  | .ok (cs, rest) => (.text (String.ofList cs), rest)
  | .error fault =>
    match skipText (s.length + 1) s with
    | .ok rest => (.garbledText fault none, rest)
    | .error other => (.garbledText fault (some other), [])

/-- Whether nothing can be read after this draft. -/
def isBroken : Draft → Bool
  | garbled .. | garbledNull _ | absent => true
  | garbledText _ (some _) | list _ (some _) | object _ (some _) => true
  | _ => false

mutual

/-- The draft of the value at the front of the text, and what follows it. The
fuel bounds the number of tokens. -/
def value : Nat → List Char → Draft × List Char
  | 0, _ => (.absent, [])
  | fuel + 1, s =>
    match skipBlanks s with
    | [] => (.absent, [])
    | c :: s =>
      if c = 'n' then ofWord ['u', 'l', 'l'] .null .garbledNull s
      else if c = 't' then ofWord ['r', 'u', 'e'] (.bool true) noValue s
      else if c = 'f' then ofWord ['a', 'l', 's', 'e'] (.bool false) noValue s
      else if c = '"' then ofQuoted s
      else if c = '-' ∨ c.isDigit then ofNumber (c :: s)
      -- a bracket may be closed at once, but not behind a comma
      else if c = '[' then
        match skipBlanks s with
        | ']' :: rest => (.list [] none, rest)
        | [] => (.list [] (some .unfinished), [])
        | s => items fuel s
      else if c = '\x7b' then
        match skipBlanks s with
        | '\x7d' :: rest => (.object [] none, rest)
        | [] => (.object [] (some .unfinished), [])
        | s => members fuel s
      else (noValue .malformed, [])

/-- The draft of an array from its first item on. After a comma anything counts
as an item. -/
def items : Nat → List Char → Draft × List Char
  | 0, _ => (.list [] (some .unfinished), [])
  | fuel + 1, s =>
    let (first, s) := value fuel s
    if first.isBroken then (.list [first] (some .malformed), [])
    else match skipBlanks s with
      | [] => (.list [first] (some .unfinished), [])
      | ',' :: s =>
        match items fuel s with
        | (.list others ending, rest) => (.list (first :: others) ending, rest)
        | other => other
      | ']' :: rest => (.list [first] none, rest)
      | _ => (.list [first] (some .malformed), [])

/-- The draft of an object from its first member on. A key that is no string
ends it. -/
def members : Nat → List Char → Draft × List Char
  | 0, _ => (.object [] (some .unfinished), [])
  | fuel + 1, s =>
    let (key, s) := value fuel s
    let broken (v : Draft) : Draft × List Char := (.object [(key, v)] (some .malformed), [])
    match key with
    | .text _ | .garbledText _ none =>
      match skipBlanks s with
      | [] => broken .absent
      | ':' :: s =>
        let (v, s) := value fuel s
        if v.isBroken then broken v
        else match skipBlanks s with
          | [] => (.object [(key, v)] (some .unfinished), [])
          | ',' :: s =>
            match members fuel s with
            | (.object others ending, rest) => (.object ((key, v) :: others) ending, rest)
            | other => other
          | '\x7d' :: rest => (.object [(key, v)] none, rest)
          | _ => (.object [(key, v)] (some .malformed), [])
      | _ => broken (noValue .malformed)
    | _ => broken (noValue .malformed)

end

/-- The draft of a text, and whether more than blanks follows the value. -/
def ofText (text : String) : Draft × Bool :=
  let s := text.toList
  let (draft, rest) := value (2 * s.length + 2) s
  (draft, !(skipBlanks rest).isEmpty)

/-! ## Ignoring a value -/

mutual

/-- The first fault that a reader meets who ignores the value. -/
def skip : Draft → Option Fault
  | garbled _ f | garbledNull f => some f
  | absent => some .unfinished
  | garbledText _ f => f
  | list items ending => (skipItems items).or ending
  | object members ending => (skipMembers members).or ending
  | _ => none

/-- The first fault in ignored items. -/
def skipItems : List Draft → Option Fault
  | [] => none
  | d :: ds => (skip d).or (skipItems ds)

/-- The first fault in ignored members. A key must be a string. -/
def skipMembers : List (Draft × Draft) → Option Fault
  | [] => none
  | (k, v) :: ms => (skipKey k).or ((skip v).or (skipMembers ms))

/-- The fault of an ignored key. -/
def skipKey : Draft → Option Fault
  | text _ => none
  | garbledText _ f => f
  | absent => some .unfinished
  | _ => some .malformed

end

/-! ## Drafts of values -/

mutual

/-- The draft of a well-formed value. -/
def ofJson : Json → Draft
  | .null => null
  | .bool b => bool b
  | .int i => int i
  | .real x => real x
  | .text s => text s
  | .list xs => list (ofItems xs) none
  | .object ms => object (ofMembers ms) none

/-- The drafts of items. -/
def ofItems : List Json → List Draft
  | [] => []
  | x :: xs => ofJson x :: ofItems xs

/-- The drafts of members. -/
def ofMembers : List (String × Json) → List (Draft × Draft)
  | [] => []
  | (k, v) :: ms => (text k, ofJson v) :: ofMembers ms

end

end Draft

end Runbook
