import ScratchExport.Project.Block
import ScratchExport.Text.Lines

/-!
# Scripts

A script is a stack of blocks; when the first one is a hat it stands above the body. A script
without a name of its own is named after its first block. A definition hat makes the script a
procedure with a code, arguments and perhaps the wish to run without screen refresh (`isWarp`).
-/

namespace ScratchExport

/-- A stack of blocks with its name and place. -/
structure Script where
  blocks : List Block
  name : Value
  x : Value
  y : Value

/-- The procedure arguments in a slot's content. -/
def Block.arguments (b : Block) : Except Fault (List Argument) :=
  match b.input? "ARGUMENTS" with
  | some (.arguments items) => .ok items
  | _ => do
    match ← (b.literal "ARGUMENTS" (.list [])).members with
    | [] => return []
    | _ => .error .notAnInput

namespace Script

/-- The text after the first underscore. -/
def afterUnderscore (s : String) : String :=
  String.ofList ((s.toList.dropWhile (· != '_')).drop 1)

/-- The labels of a procedure's heading, joined. -/
def headingName (arguments : List Argument) : Except Fault String := do
  let labels ← (arguments.filter (·.kind == .label)).mapM fun a => match a.name with
    | .text s => .ok s
    | _ => .error Fault.notText
  return "_".intercalate labels

/-- The name of a script without a name of its own. -/
def defaultName (blocks : List Block) : Except Fault String :=
  match blocks with
  | [] => .ok "script"
  | first :: _ =>
    match first.kind with
    | .known (.event .whenFlagClicked) => .ok "when_green_flag_clicked"
    | .known (.event .whenBroadcastReceived) =>
      .ok ("when_i_receive_" ++ (first.literal "BROADCAST_OPTION" (.text "")).display)
    | .known (.event .whenKeyPressed) =>
      .ok ("when_key_" ++ (first.literal "KEY_OPTION" (.text "")).display ++ "_pressed")
    | .known (.procedure .definition) => do headingName (← first.arguments)
    | kind => do return afterUnderscore (← kind.label.asName)

/-- A script, named after its first block unless it has a name. -/
def make (blocks : List Block) (name x y : Value) : Except Fault Script :=
  match name with
  | .null => do return ⟨blocks, .text (← defaultName blocks), x, y⟩
  | _ => .ok ⟨blocks, name, x, y⟩

/-- The hat of a script. -/
def hat? (s : Script) : Option Block :=
  s.blocks.head?.filter (·.isHat)

/-- The blocks below the hat. -/
def body (s : Script) : List Block :=
  if s.hat?.isSome then s.blocks.drop 1 else s.blocks

/-- The hat of a procedure definition. -/
def definition? (s : Script) : Option Block :=
  s.hat?.filter (·.kind.is (.procedure .definition))

def isProcedure (s : Script) : Bool :=
  s.definition?.isSome

/-- The code by which a procedure is called. -/
def proccode (s : Script) : Value :=
  match s.definition? with
  | some hat => hat.literal "PROCCODE" .null
  | none => .null

/-- The arguments that a procedure declares. -/
def arguments (s : Script) : Except Fault (List Argument) :=
  match s.definition? with
  | some hat => hat.arguments
  | none => .ok []

/-- A procedure that runs without screen refresh. -/
def isWarp (s : Script) : Bool :=
  match s.definition? with
  | some hat => (hat.literal "WARP" (.bool false)).truthy
  | none => false

/-- All blocks of a script, nested ones included, depth first. -/
def nested (s : Script) : List Block :=
  nestedStack s.blocks

/-- All blocks of a script, unless a call among them is malformed. -/
def walk (s : Script) : Except Fault (List Block) :=
  match stackWalkFault? s.blocks with
  | some fault => .error fault
  | none => .ok s.nested

end Script

end ScratchExport
