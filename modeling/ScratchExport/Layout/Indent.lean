import ScratchExport.Layout.Scan
import ScratchExport.Text.Blank

/-!
# Indentation by brackets

Each line is indented once for every earlier line that still has an open bracket, after the closing
brackets at its own front are matched. Lines inside a block comment or a template string keep their
indentation. The state between lines is the stack of lines with open brackets and what the last line
left unfinished.
-/

namespace ScratchExport.Layout

/-- How one level of indentation is written. -/
structure Options where
  indentWidth : Int := 2
  useTabs : Bool := false

/-- One level of indentation. -/
def Options.unit (o : Options) : List Char :=
  if o.useTabs then ['\t'] else List.replicate o.indentWidth.toNat ' '

/-- The number of open brackets of each line that has some, the latest line first. -/
abbrev OpenLines := List Nat

/-- Close the bracket that was opened last. -/
def closeOne : OpenLines → OpenLines
  | [] => []
  | n :: rest => if n ≤ 1 then rest else (n - 1) :: rest

/-- Close a number of brackets, the latest first. -/
def closeMany : Nat → OpenLines → OpenLines
  | 0, stack => stack
  | n + 1, stack => closeMany n (closeOne stack)

/-- Close the brackets that a line closes, then open those that it leaves open. -/
def applyBrackets (stack : OpenLines) (b : Brackets) : OpenLines :=
  let stack := closeMany b.closed stack
  if b.opened == 0 then stack else b.opened :: stack

/-- How many closing brackets stand at the front of a line, blanks between them aside. -/
def leadingClosers : List Char → Nat
  | [] => 0
  | c :: rest =>
    if isCloser c then leadingClosers rest + 1
    else if c == ' ' || c == '\t' then leadingClosers rest
    else 0

/-- What the lines so far leave for the next one. -/
structure State where
  stack : OpenLines
  carry : Carry

/-- Nothing is open. -/
def State.start : State :=
  ⟨[], .clean⟩

/-- A line with its indentation, and the state after it. -/
def indentLine (o : Options) (s : State) (raw : List Char) : List Char × State :=
  let line := Text.trim raw
  if line.isEmpty then ([], s)
  else if s.carry.inComment || s.carry.quote == some '\x60' then
    let (carry, b) := scan s.carry line
    (Text.trimEnd raw, ⟨applyBrackets s.stack b, carry⟩)
  else
    let leading := leadingClosers line
    let stack := closeMany leading s.stack
    let (carry, b) := scan s.carry (line.drop leading)
    ((List.replicate stack.length o.unit).flatten ++ line, ⟨applyBrackets stack b, carry⟩)

/-- Lines with their indentation. -/
def indentLines (o : Options) : State → List (List Char) → List (List Char)
  | _, [] => []
  | s, raw :: rest =>
    let (line, s) := indentLine o s raw
    line :: indentLines o s rest

end ScratchExport.Layout
