import ScratchExport.Opcode.Traits
import ScratchExport.Value.Text

/-!
# Blocks

A block has an opcode and named inputs. An input is a plain value of some kind, a reference to a
variable or list, a nested block, a nested stack of blocks, the arguments that a procedure
definition declares, or the inputs that a procedure call passes. `Block.nested` lists a block and
all blocks inside it, depth first.
-/

namespace ScratchExport

/-- A reference from a block to a variable or list. -/
structure DataRef where
  id : Value
  name : Value

/-- Variables and lists. -/
inductive DataKind where
  | variable
  | list
  deriving DecidableEq

/-- The word for a kind of data. -/
def DataKind.word : DataKind → String
  | .variable => "variable"
  | .list => "list"

/-- What a part of a procedure's heading is: text, or a slot for a value. -/
inductive ArgumentKind where
  | label
  | numberOrString
  | boolean
  deriving DecidableEq

/-- The word for a kind of argument. -/
def ArgumentKind.word : ArgumentKind → String
  | .label => "label"
  | .numberOrString => "numberOrString"
  | .boolean => "boolean"

/-- A part of a procedure's heading. -/
structure Argument where
  kind : ArgumentKind
  name : Value
  default : Value

/-- The opcode of a block, or the label it has instead of a known one. -/
inductive BlockKind where
  | known (op : Opcode)
  | unknown (label : Value)

namespace BlockKind

/-- The kind of a block with a given label. -/
def ofLabel (label : Value) : BlockKind :=
  match label with
  | .text s => match Opcode.ofLabel? s with
    | some op => .known op
    | none => .unknown label
  | _ => .unknown label

/-- The label of a block. -/
def label : BlockKind → Value
  | .known op => .text op.label
  | .unknown label => label

/-- Whether the opcode is known and has a trait. -/
def has (kind : BlockKind) (trait : Opcode → Bool) : Bool :=
  match kind with
  | .known op => trait op
  | .unknown _ => false

/-- Whether this is a given opcode. -/
def is (kind : BlockKind) (op : Opcode) : Bool :=
  kind.has (· == op)

end BlockKind

mutual
/-- A block. -/
inductive Block where
  | mk (kind : BlockKind) (inputs : List (String × Input)) (id : String)

/-- What a slot of a block holds. -/
inductive Input where
  | plain (kind : String) (value : Value)
  | reference (kind : DataKind) (ref : DataRef)
  | block (child : Option Block)
  | stack (children : Option (List Block))
  | arguments (items : List Argument)
  | values (items : List Input)
end

namespace DataRef

/-- The description of a reference. -/
def describe (ref : DataRef) : String :=
  "DataRef(id=" ++ ref.id.quoted ++ ", name=" ++ ref.name.quoted ++ ")"

end DataRef

namespace Argument

/-- The description of an argument. -/
def describe (a : Argument) : String :=
  "ProcedureArgument(type=" ++ Text.quoted a.kind.word ++ ", name=" ++ a.name.quoted
    ++ ", default=" ++ a.default.quoted ++ ")"

end Argument

namespace Input

/-- The word for the kind of an input. -/
def word : Input → String
  | .plain kind _ => kind
  | .reference kind _ => kind.word
  | .block _ => "block"
  | .stack _ => "blocks"
  | .arguments _ => "customBlockArguments"
  | .values _ => "customBlockInputValues"

def isBlock : Input → Bool
  | .block _ => true
  | _ => false

def isStack : Input → Bool
  | .stack _ => true
  | _ => false

end Input

mutual
/-- The description of a block. -/
def Block.describe : Block → String
  | .mk kind inputs id => "Block(opcode=" ++ kind.label.quoted ++ ", inputs=\x7b"
      ++ ", ".intercalate (describeInputs inputs) ++ "\x7d, id=" ++ Text.quoted id ++ ")"

def describeInputs : List (String × Input) → List String
  | [] => []
  | (name, input) :: rest => (Text.quoted name ++ ": " ++ input.describe) :: describeInputs rest

/-- The description of an input. -/
def Input.describe : Input → String
  | .plain kind value => describeAs (Text.quoted kind) value.quoted
  | .reference kind ref => describeAs (Text.quoted kind.word) ref.describe
  | .block none => describeAs "'block'" "None"
  | .block (some b) => describeAs "'block'" b.describe
  | .stack none => describeAs "'blocks'" "None"
  | .stack (some bs) => describeAs "'blocks'" ("[" ++ ", ".intercalate (describeBlocks bs) ++ "]")
  | .arguments items =>
    describeAs "'customBlockArguments'" ("[" ++ ", ".intercalate (items.map (·.describe)) ++ "]")
  | .values items =>
    describeAs "'customBlockInputValues'" ("[" ++ ", ".intercalate (describeItems items) ++ "]")
where
  describeAs (kind value : String) : String :=
    "BlockInput(type=" ++ kind ++ ", value=" ++ value ++ ")"

def describeBlocks : List Block → List String
  | [] => []
  | b :: rest => b.describe :: describeBlocks rest

def describeItems : List Input → List String
  | [] => []
  | x :: rest => x.describe :: describeItems rest
end

namespace Input

/-- What an input holds, read as a value. Blocks, references and arguments are no data and are
described. -/
def content : Input → Value
  | .plain _ value => value
  | .reference _ ref => .described ref.describe
  | .block none | .stack none => .null
  | .block (some b) => .described b.describe
  | .stack (some bs) => .list (bs.map fun b => .described b.describe)
  | .arguments items => .list (items.map fun a => .described a.describe)
  | .values items => .list (items.map fun x => .described x.describe)

/-- The value of an input that holds no blocks. -/
def literal? (input : Input) : Option Value :=
  if input.isBlock || input.isStack then none else some input.content

end Input

namespace Block

def kind : Block → BlockKind
  | .mk kind _ _ => kind

def inputs : Block → List (String × Input)
  | .mk _ inputs _ => inputs

def id : Block → String
  | .mk _ _ id => id

/-- The input in a slot. -/
def input? (b : Block) (slot : String) : Option Input :=
  b.inputs.lookup slot

/-- The value in a slot, or `default` when the slot is absent or holds blocks. -/
def literal (b : Block) (slot : String) (default : Value) : Value :=
  ((b.input? slot).bind (·.literal?)).getD default

def isHat (b : Block) : Bool :=
  b.kind.has (·.isHat)

end Block

mutual
/-- A block and the blocks inside it, depth first. -/
def Block.nested : Block → List Block
  | .mk kind inputs id => .mk kind inputs id :: nestedInputs inputs

def nestedInputs : List (String × Input) → List Block
  | [] => []
  | (_, input) :: rest => input.nested ++ nestedInputs rest

/-- The blocks inside an input. Among the inputs of a call only single blocks count. -/
def Input.nested : Input → List Block
  | .block (some b) => b.nested
  | .stack (some bs) => nestedStack bs
  | .values items => nestedItems items
  | .plain .. | .reference .. | .block none | .stack none | .arguments _ => []

def nestedStack : List Block → List Block
  | [] => []
  | b :: rest => b.nested ++ nestedStack rest

def nestedItems : List Input → List Block
  | [] => []
  | .block (some b) :: rest => b.nested ++ nestedItems rest
  | _ :: rest => nestedItems rest
end

/-- Why the members of a plain value cannot be the inputs of a call, if it has to have some. -/
def callItemsFault? (v : Value) : Option Fault :=
  if !v.truthy then none
  else match v.members with
    | .ok [] => none
    | .ok _ => some .notAnInput
    | .error fault => some fault

mutual
/-- The first fault that a walk through the blocks inside a block meets: a call whose inputs are no
inputs. -/
def Block.walkFault? : Block → Option Fault
  | .mk _ inputs _ => inputsWalkFault? inputs

def inputsWalkFault? : List (String × Input) → Option Fault
  | [] => none
  | (_, input) :: rest => match input.walkFault? with
    | some fault => some fault
    | none => inputsWalkFault? rest

def Input.walkFault? : Input → Option Fault
  | .plain kind v => if kind == "customBlockInputValues" then callItemsFault? v else none
  | .block (some b) => b.walkFault?
  | .stack (some bs) => stackWalkFault? bs
  | .values items => itemsWalkFault? items
  | .reference .. | .block none | .stack none | .arguments _ => none

def stackWalkFault? : List Block → Option Fault
  | [] => none
  | b :: rest => match b.walkFault? with
    | some fault => some fault
    | none => stackWalkFault? rest

def itemsWalkFault? : List Input → Option Fault
  | [] => none
  | .block (some b) :: rest => match b.walkFault? with
    | some fault => some fault
    | none => itemsWalkFault? rest
  | _ :: rest => itemsWalkFault? rest
end

end ScratchExport
