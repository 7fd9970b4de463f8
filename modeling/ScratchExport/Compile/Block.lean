import ScratchExport.Compile.Control
import ScratchExport.Compile.Data
import ScratchExport.Compile.Looks
import ScratchExport.Compile.Operator
import ScratchExport.Compile.Procedure
import ScratchExport.Compile.Sensing

/-!
# Compiling blocks

The recursion over blocks is in one place: the inputs of a block are turned into readers, its plan
is made from the inputs as they stand, and the plan is carried out with the readers.
-/

namespace ScratchExport.Compile

/-- A block whose opcode has only menus and no counterpart otherwise. -/
def extension (isMenu : Bool) (slots : Slots) (label : String) : Plan :=
  if isMenu then .literal slots.menuValue else .placeholder label

/-- What becomes of a block of a known opcode. -/
def opcodePlan (ctx : Context) (slots : Slots) (desired : Shape) (locals : Name.Space) :
    Opcode → Except Fault Plan
  | .motion op => motion ctx slots op
  | .looks op => looks ctx slots op
  | .audio op => audio ctx slots op
  | .event op => event ctx slots op
  | .control op => control ctx slots locals op
  | .sensing op => sensing ctx slots op
  | .operator op => operator slots desired op
  | .data op => data ctx slots desired op
  | .procedure op => procedure ctx slots op
  | .pen op => pen slots op
  | .music op => .ok (extension (Opcode.music op).isMenu slots op.label)
  | .video op => .ok (extension (Opcode.video op).isMenu slots op.label)
  | .robot op => .ok (extension (Opcode.robot op).isMenu slots op.label)

/-- What becomes of a block. -/
def plan (ctx : Context) (kind : BlockKind) (slots : Slots) (desired : Shape)
    (locals : Name.Space) : Except Fault Plan :=
  match kind with
  | .known op => opcodePlan ctx slots desired locals op
  | .unknown label => do return .placeholder (← label.asKey).display

/-- Statements, one behind the other; an empty one leaves no trace. -/
def joinStatements (statements : List String) : String :=
  "\n".intercalate ((statements.filter (!·.isEmpty)).map Literal.terminate)

mutual
/-- The fragment of a block for a shape. -/
def blockFragment (ctx : Context) : Block → Read
  | .mk kind inputs _ => fun desired locals => do
    let plan ← plan ctx kind inputs desired locals
    plan.fragment ctx inputs (readers ctx inputs) desired locals

/-- The readers of named inputs. -/
def readers (ctx : Context) : List (String × Input) → Readers
  | [] => []
  | (name, input) :: rest =>
    (name, ⟨inputFragment ctx input, inputItems ctx input⟩) :: readers ctx rest

/-- The fragment of an input for a shape. -/
def inputFragment (ctx : Context) : Input → Read
  | .block (some b) => blockFragment ctx b
  | .block none => fun desired _ => .ofExcept (literalFragment .null desired)
  | .stack (some bs) =>
    fun _ locals => do return ⟨joinStatements (← stackSources ctx bs locals), .stack⟩
  | .stack none => fun _ _ => pure ⟨"", .stack⟩
  | .plain kind v => fun desired _ =>
    if kind == "color" then do return ⟨← Literal.Color.source v, .any⟩
    else .ofExcept (literalFragment v desired)
  | .reference _ ref => fun desired _ => .ofExcept (literalFragment ref.name desired)
  | .arguments items =>
    fun desired _ => .ofExcept (literalFragment (Input.arguments items).content desired)
  | .values items =>
    fun desired _ => .ofExcept (literalFragment (Input.values items).content desired)

/-- The readers of the inputs that a call passes. -/
def inputItems (ctx : Context) : Input → List Read
  | .values items => itemReads ctx items
  | .plain .. | .reference .. | .block _ | .stack _ | .arguments _ => []

def itemReads (ctx : Context) : List Input → List Read
  | [] => []
  | x :: rest => inputFragment ctx x :: itemReads ctx rest

/-- The sources of a stack of blocks, in order. -/
def stackSources (ctx : Context) : List Block → Name.Space → Noted (List String)
  | [], _ => pure []
  | b :: rest, locals => do
    let f ← blockFragment ctx b .stack locals
    let others ← stackSources ctx rest locals
    return Source.coerce f.source f.shape .stack :: others
end

/-- The source of a block as a shape. -/
def blockSource (ctx : Context) (b : Block) (desired : Shape) : Noted String := do
  let f ← blockFragment ctx b desired ctx.locals
  return Source.coerce f.source f.shape desired

/-- The source of the input in a slot of a block, as a shape. -/
def slotSource (ctx : Context) (b : Block) (slot : String) (desired : Shape) : Noted String :=
  (readers ctx b.inputs).source slot desired ctx.locals

/-- The statements of a stack of blocks. -/
def stackSource (ctx : Context) (bs : List Block) : Noted String := do
  return joinStatements (← stackSources ctx bs ctx.locals)

end ScratchExport.Compile
