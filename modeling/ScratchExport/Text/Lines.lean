/-!
# Lines of a text

A line ends at a line feed, a carriage return (alone or before a line feed), a vertical tab, a form
feed, one of the separators U+001C to U+001E, a next-line character, or a line or paragraph
separator. The end itself belongs to no line, and a text that stops right after a line end has no
further, empty line.
-/

namespace ScratchExport.Text

/-- The characters that end a line. -/
def isLineEnd (c : Char) : Bool :=
  let n := c.toNat
  (10 ≤ n && n ≤ 13) || (28 ≤ n && n ≤ 30) || n == 0x85 || n == 0x2028 || n == 0x2029

/-- Put a character in front of the first line; without lines it starts one. -/
def consLine (c : Char) : List (List Char) → List (List Char)
  | [] => [[c]]
  | line :: rest => (c :: line) :: rest

/-- The lines of a text, without their ends. -/
def lines : List Char → List (List Char)
  | [] => []
  | '\r' :: '\n' :: rest => [] :: lines rest
  | c :: rest => if isLineEnd c then [] :: lines rest else consLine c (lines rest)

/-- The pieces between the characters that satisfy `p`; there is always one more piece than such
characters. -/
def splitWhere (p : Char → Bool) : List Char → List (List Char)
  | [] => [[]]
  | c :: rest => if p c then [] :: splitWhere p rest else consLine c (splitWhere p rest)

/-- Join lines with a separator between them. -/
def joinWith (sep : List Char) : List (List Char) → List Char
  | [] => []
  | [line] => line
  | line :: rest => line ++ sep ++ joinWith sep rest

end ScratchExport.Text
