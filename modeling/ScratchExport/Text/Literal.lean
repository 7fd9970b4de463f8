/-!
# String literals

A text is written as a string literal between double quotes. Quotes and backslashes take a
backslash, the controls below U+0020 take a short or a `\u` escape, and every other character stands
for itself.
-/

namespace ScratchExport.Text

/-- Lower-case hexadecimal digits, with zeros in front up to `width`. -/
def hexDigits (width n : Nat) : List Char :=
  let digits := Nat.toDigits 16 n
  List.replicate (width - digits.length) '0' ++ digits

/-- One character inside a string literal. -/
def escapeChar (c : Char) : List Char :=
  if c == '"' then ['\\', '"']
  else if c == '\\' then ['\\', '\\']
  else if c == '\n' then ['\\', 'n']
  else if c == '\r' then ['\\', 'r']
  else if c == '\t' then ['\\', 't']
  else if c == '\x08' then ['\\', 'b']
  else if c == '\x0c' then ['\\', 'f']
  else if c.toNat < 0x20 then '\\' :: 'u' :: hexDigits 4 c.toNat
  else [c]

/-- The characters of a string literal. -/
def literalChars (cs : List Char) : List Char :=
  '"' :: cs.flatMap escapeChar ++ ['"']

/-- The string literal of a text. -/
def literal (s : String) : String :=
  String.ofList (literalChars s.toList)

end ScratchExport.Text
