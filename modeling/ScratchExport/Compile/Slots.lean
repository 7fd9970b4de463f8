import ScratchExport.Literal.Color
import ScratchExport.Project.Basic
import ScratchExport.Shape

/-!
# Reading slots without compiling them

What the inputs of a block say as they stand: the choice of a menu, a literal number, a reference to
data. These decide which phrase a block compiles to.
-/

namespace ScratchExport

/-- The named inputs of a block. -/
abbrev Slots := List (String × Input)

/-- The value of a menu block: its first input that holds no blocks. -/
def Slots.menuValue (slots : Slots) : Value :=
  (slots.findSome? fun (_, input) => input.literal?).getD .null

namespace Input

/-- The choice that a menu slot holds; a reporter in the slot leaves it open. -/
def choice : Input → Except Fault Value
  | .block (some b) =>
    if b.kind.has (·.isMenu) then do return .text (← Literal.spoken (Slots.menuValue b.inputs))
    else .ok (.text "")
  | .reference _ ref => .ok ref.name
  | input => do return .text (← Literal.spoken input.content)

/-- The number that a slot holds as a literal, unless it is an unsafe integer. -/
def literalNumber (input : Input) : Except Fault (Option Binary64) :=
  match input with
  | .block _ | .stack _ => .ok none
  | _ =>
    if input.word == "color" then .ok none
    else do return (← Literal.number? input.content).filter (!Literal.isUnsafeInteger ·)

/-- A slot that holds a block. -/
def hasBlock : Input → Bool
  | .block (some _) => true
  | _ => false

/-- A menu slot with a reporter in it. -/
def isOpenMenu : Input → Bool
  | .block (some b) => !b.kind.has (·.isMenu)
  | _ => false

/-- The data that a slot refers to. A slot that holds something else refers to data of that name. -/
def dataRef? : Input → Except Fault (Option DataRef)
  | .reference _ ref => .ok (some ref)
  | input => match input.content with
    | .null => .ok none
    | v => do return some ⟨.null, .text (← Literal.spoken v)⟩

end Input

namespace Slots

variable (slots : Slots)

/-- The choice of a menu; an absent slot has an empty one. -/
def choice (slot : String) : Except Fault Value :=
  match slots.lookup slot with
  | some input => input.choice
  | none => .ok (.text "")

/-- A literal number. -/
def literalNumber (slot : String) : Except Fault (Option Binary64) :=
  match slots.lookup slot with
  | some input => input.literalNumber
  | none => .ok none

/-- Whether a slot holds a block. -/
def hasBlock (slot : String) : Bool :=
  ((slots.lookup slot).map (·.hasBlock)).getD false

/-- Whether a reporter fills a menu slot. -/
def isOpenMenu (slot : String) : Bool :=
  ((slots.lookup slot).map (·.isOpenMenu)).getD false

/-- The data that a slot refers to. -/
def dataRef? (slot : String) : Except Fault (Option DataRef) :=
  match slots.lookup slot with
  | some input => input.dataRef?
  | none => .ok none

/-- The value in a slot, or `default` when the slot is absent or holds blocks. -/
def literal (slot : String) (default : Value) : Value :=
  ((slots.lookup slot).bind (·.literal?)).getD default

end Slots

end ScratchExport
