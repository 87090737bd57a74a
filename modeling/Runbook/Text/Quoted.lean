import Runbook.Text.Hidden

/-!
# Strings quoted in messages

`Text.quote` writes a string between quotes so that each of its characters
shows: the common controls by a letter, other hidden characters by their number
in braces.
-/

namespace Runbook.Text

/-- The characters that stand for `c` in a quoted string. -/
def quoteChar (c : Char) : List Char :=
  if c = '\x00' then ['\\', '0']
  else if c = '\t' then ['\\', 't']
  else if c = '\r' then ['\\', 'r']
  else if c = '\n' then ['\\', 'n']
  else if c = '"' then ['\\', '"']
  else if c = '\\' then ['\\', '\\']
  else if isHidden c then ['\\', 'u', '\x7b'] ++ Nat.toDigits 16 c.toNat ++ ['\x7d']
  else [c]

/-- The string in quotes. -/
def quote (s : String) : String :=
  String.ofList ('"' :: s.toList.flatMap quoteChar ++ ['"'])

end Runbook.Text
