import ScratchExport.Text.Lines

/-!
# Identifiers from author names

An author's name becomes an identifier by joining its words in camel case. A word is a run of ASCII
letters and digits, apostrophes aside, so the identifier is ASCII whatever the name contains. A name
without words becomes `_`, and one whose first word starts with a digit takes `_` in front.
-/

namespace ScratchExport.Name

/-- The words of a name: its runs of ASCII letters and digits, apostrophes left out. -/
def words (cs : List Char) : List (List Char) :=
  (Text.splitWhere (!·.isAlphanum) (cs.filter (· != '\''))).filter (!·.isEmpty)

/-- A word with a capital at the front and small letters after it. -/
def capitalize : List Char → List Char
  | [] => []
  | c :: rest => c.toUpper :: rest.map Char.toLower

/-- The words in camel case, the first one with a capital only if `upper`. -/
def joinWords (upper : Bool) : List (List Char) → List Char
  | [] => []
  | first :: rest =>
    (if upper then capitalize first else first.map Char.toLower) ++ rest.flatMap capitalize

/-- The identifier of an author's name. -/
def camelCaseChars (upper : Bool) (cs : List Char) : List Char :=
  match joinWords upper (words cs) with
  | [] => ['_']
  | c :: rest => if c.isDigit then '_' :: c :: rest else c :: rest

/-- The identifier of an author's name, with a capital at the front if `upper`. -/
def camelCase (name : String) (upper : Bool) : String :=
  String.ofList (camelCaseChars upper name.toList)

end ScratchExport.Name
