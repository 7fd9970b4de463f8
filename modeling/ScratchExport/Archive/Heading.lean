import ScratchExport.Json.Reader
import ScratchExport.Project.Block
import ScratchExport.Text.Blank
import ScratchExport.Text.Case

/-!
# Headings of custom blocks

The code of a custom block is its heading: labels and, between them, placeholders `%s`, `%n` and
`%b` for the values it takes. A placeholder behind a backslash is part of the label. `parts` splits
a heading; labels are trimmed and blank ones dropped. The names and defaults of the placeholders are
kept beside the code, as two JSON lists that may be of any length.
-/

namespace ScratchExport.Archive

/-- A part of a heading. -/
inductive Part where
  | label (text : String)
  | slot (letter : Char)
  deriving DecidableEq

namespace Part

/-- A part as it is written. -/
def text : Part → String
  | .label s => s
  | .slot letter => String.ofList ['%', letter]

end Part

/-- The letters of placeholders. -/
def isSlotLetter (c : Char) : Bool :=
  c == 'n' || c == 's' || c == 'b'

/-- The label that a stretch of text makes, unless it is blank. -/
def labelOf (stretch : List Char) : List Part :=
  match Text.trim stretch with
  | [] => []
  | cs => [.label (String.ofList cs)]

/-- The parts of a heading of which the current stretch, last character first, has been read
already. -/
def splitFrom (stretch : List Char) : List Char → List Part
  | '%' :: c :: rest =>
    if isSlotLetter c && stretch.head? != some '\\' then labelOf stretch.reverse ++
      .slot c :: splitFrom [] rest
    else splitFrom ('%' :: stretch) (c :: rest)
  | c :: rest => splitFrom (c :: stretch) rest
  | [] => labelOf stretch.reverse

/-- The parts of a heading, in order. -/
def parts (heading : String) : List Part :=
  splitFrom [] heading.toList

/-- The arguments that the parts of a heading declare, each part given as it is written. Each
placeholder takes the next name and the next default while there are any. -/
def declared : List String → (names defaults : List Value) → List Argument
  | [], _, _ => []
  | part :: rest, names, defaults =>
    if part == "%s" || part == "%n" || part == "%b" then
      let name := names.headD (.text "")
      let default := defaults.headD .null
      (if part == "%b" then ⟨.boolean, name, .bool (default.isText "true")⟩
        else ⟨.numberOrString, name, default⟩)
        :: declared rest names.tail defaults.tail
    else ⟨.label, .text part, .null⟩ :: declared rest names defaults

/-- The members of a list that is written as JSON in a field. -/
def jsonMembers (mutation : Value) (key : String) : Except Fault (List Value) := do
  (← Json.readValue (← mutation.get key (.text "[]"))).members

/-- The inputs of a definition that its prototype gives. -/
def prototypeInputs (mutation : Value) : Except Fault (List (String × Input)) := do
  let code ← mutation.get "proccode" (.text "")
  let names ← jsonMembers mutation "argumentnames"
  let defaults ← jsonMembers mutation "argumentdefaults"
  match code with
  | .text heading =>
    let warp := Text.lower (← mutation.get "warp" (.text "false")).display == "true"
    return [("PROCCODE", .plain "string" code),
      ("ARGUMENTS", .arguments (declared ((parts heading).map Part.text) names defaults)),
      ("WARP", .plain "boolean" (.bool warp))]
  | _ => .error .notText

end ScratchExport.Archive
