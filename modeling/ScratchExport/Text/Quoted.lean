import ScratchExport.Text.Literal
import ScratchExport.Text.Printable

/-!
# Quoted texts

A text inside a list or record is shown between single quotes, or between double quotes when it
holds a single quote and no double one. Backslashes and the chosen quote take a backslash, and what
cannot be printed is shown by its code point.
-/

namespace ScratchExport.Text

/-- The quote in which a text is shown. -/
def quoteMark (cs : List Char) : Char :=
  if cs.contains '\'' && !cs.contains '"' then '"' else '\''

/-- One character of a text shown between the quotes `mark`. -/
def showChar (mark c : Char) : List Char :=
  if c == mark || c == '\\' then ['\\', c]
  else if c == '\n' then ['\\', 'n']
  else if c == '\r' then ['\\', 'r']
  else if c == '\t' then ['\\', 't']
  else if printable.contains c then [c]
  else if c.toNat < 0x100 then '\\' :: 'x' :: hexDigits 2 c.toNat
  else if c.toNat < 0x10000 then '\\' :: 'u' :: hexDigits 4 c.toNat
  else '\\' :: 'U' :: hexDigits 8 c.toNat

/-- A text between quotes. -/
def quoted (s : String) : String :=
  let cs := s.toList
  let mark := quoteMark cs
  String.ofList (mark :: cs.flatMap (showChar mark) ++ [mark])

end ScratchExport.Text
