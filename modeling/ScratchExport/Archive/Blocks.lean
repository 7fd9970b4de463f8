import ScratchExport.Archive.Heading
import ScratchExport.Assoc
import ScratchExport.Literal.Color
import ScratchExport.Noted
import ScratchExport.Project.Script

/-!
# Tables of blocks

A target keeps its blocks in a flat table. An entry names the block below it (`next`) and those in
its slots. `Blocks.scripts` rebuilds the scripts: one for each entry at top level, a chain of blocks
with chains in their slots. A shadow block, which only holds a default or a menu's choice, is not
kept as a block: what it holds goes into the slots of its parent.

References are followed with a budget, one unit for each. In a table without circular references no
path is longer than the table, so the budget of one more than its size is never used up.
-/

namespace ScratchExport.Archive

/-- Reading a project: notes, faults, and the number of the next block that has no entry of
its own. -/
abbrev Reading := StateT Nat Noted

namespace Reading

/-- A new id for a block without an entry. -/
def freshId : Reading String := do
  let n ← getModify (· + 1)
  return "block_" ++ toString n

/-- Take a note for the log. -/
def trace (message : String) : Reading Unit :=
  Noted.note .loader .trace message

end Reading

/-! ### Primitives

A slot may hold a value in place of a reference: a list of its kind, a number, and what it is made
of. -/

/-- The reference that a primitive makes. -/
def primitiveRef (v : Value) : Except Fault DataRef := do
  let id ← v.itemOrNull 2
  return ⟨id, ← v.item 1⟩

/-- The input that a primitive stands for. -/
def primitive (v : Value) : Reading Input := do
  let kind ← (← v.item 0).asKey
  let is (n : Int) : Bool := kind.same (.int n)
  if [4, 5, 6, 7].any is then return .plain "number" (← v.item 1)
  else if is 8 then return .plain "angle" (← v.item 1)
  else if is 9 then return .plain "color" (Literal.Color.ofText (← v.item 1))
  else if is 11 then return .plain "broadcast" (← v.item 1)
  else if is 12 then
    let ref ← primitiveRef v
    return .block
      (some (.mk (.known (.data .variable)) [("VARIABLE", .reference .variable ref)]
      (← Reading.freshId)))
  else if is 13 then
    let ref ← primitiveRef v
    return .block
      (some (.mk (.known (.data .listContents)) [("LIST", .reference .list ref)]
      (← Reading.freshId)))
  else return .plain "string" (← v.itemOrNull 1)

/-! ### Fields and calls -/

/-- The kind of input that a field of a block becomes. -/
def fieldKind (kind : BlockKind) (name : String) : String :=
  match kind with
  | .known op => match op.field? with
    | some (field, word) => if field == name then word else "string"
    | none => "string"
  | .unknown _ => "string"

/-- The input that a field becomes. -/
def fieldInput (word : String) (content : Value) : Except Fault Input := do
  let reference (kind : DataKind) : Except Fault Input := do
    let id ← content.itemOrNull 1
    return .reference kind ⟨id, ← content.item 0⟩
  if word == DataKind.variable.word then reference .variable
  else if word == DataKind.list.word then reference .list
  else return .plain word (← content.item 0)

/-- The inputs that the fields of an entry become. -/
def fieldInputs (entry : Value) : Except Fault (List (String × Input)) := do
  let kind := BlockKind.ofLabel (← (← entry.require "opcode").asKey)
  (← (← entry.get "fields" (.record [])).fields).mapM fun (name, content) => do
    return (name, ← fieldInput (fieldKind kind name) content)

/-- What a call passes for an argument id. -/
def callArgument (inputs : List (String × Input)) (id : Value) : Except Fault Input := do
  match ← id.asKey with
  | .text s => return (inputs.lookup s).getD (.plain "string" .null)
  | _ => return .plain "string" .null

/-- The inputs of a call: the code of the procedure, and what is passed for its argument ids. -/
def callInputs (entry : Value) (inputs : List (String × Input)) :
    Except Fault (List (String × Input)) := do
  let mutation ← entry.get "mutation" (.record [])
  let ids ← jsonMembers mutation "argumentids"
  let values ← ids.mapM (callArgument inputs)
  return [("PROCCODE", .plain "string" (← mutation.get "proccode" (.text ""))),
    ("INPUTS", .values values)]

/-! ### The table -/

/-- The table of blocks of a target, by id. -/
structure Blocks where
  /-- The name of the target. -/
  owner : Value
  entries : List (String × Value)

namespace Blocks

variable (table : Blocks)

/-- The entry that an id refers to. -/
def entry? (id : Value) : Option (String × Value) :=
  match id with
  | .text s => match table.entries.lookup s with
    | some (.record fields) => some (s, .record fields)
    | _ => none
  | _ => none

/-- A block that only holds a default: a shadow with nothing below it. -/
def isShadow (fields : List (String × Value)) : Bool :=
  ((fields.lookup "shadow").getD .null).truthy && (match (fields.lookup "next").getD .null with
    | .null => true
    | _ => false)

/-- The shadow that an id refers to. -/
def shadow? (id : String) : Option Value :=
  match table.entries.lookup id with
  | some (.record fields) => if isShadow fields then some (.record fields) else none
  | _ => none

/-- The input that a chain of blocks in a slot becomes. -/
def chainInput (slot : String) (blocks : List Block) : Input :=
  if slot == "SUBSTACK" || slot == "SUBSTACK2" || 1 < blocks.length then .stack (some blocks)
  else .block blocks.head?

/-- Add what a slot holds to the inputs read so far, where `chain` follows a reference to a chain of
blocks and `inline` takes over what a shadow holds. -/
def readSlot (chain : Value → Reading (List Block))
    (inline : Value → List (String × Input) → Reading (List (String × Input))) (slot : String)
    (content : Value) (inputs : List (String × Input)) : Reading (List (String × Input)) :=
  match content with
  | .text id => match table.shadow? id with
    | some shadow => inline shadow inputs
    | none => do return Assoc.set slot (chainInput slot (← chain content)) inputs
  | .null => return Assoc.set slot (.plain "string" .null) inputs
  | .list (_ :: _) => do return Assoc.set slot (← primitive content) inputs
  | _ => return inputs

/-- Add what the slots of an entry hold. The active content of a slot is its second member. -/
def readSlots (chain : Value → Reading (List Block))
    (inline : Value → List (String × Input) → Reading (List (String × Input)))
    (entry : Value) (inputs : List (String × Input)) : Reading (List (String × Input)) := do
  let slots ← (← entry.get "inputs" (.record [])).fields
  slots.foldlM (fun inputs (slot, content) => do
    table.readSlot chain inline slot (← content.itemOrNull 1) inputs) inputs

mutual
/-- The chain of blocks that starts at an id. -/
def chain : Nat → Value → Reading (List Block)
  | _, .null => return []
  | 0, _ => Noted.fail .cyclicBlocks
  | budget + 1, id => do
    match table.entry? (← id.asKey) with
    | none =>
      Reading.trace (table.owner.display ++ ": dangling block reference " ++ id.display)
      return []
    | some (id, entry) =>
      let kind := BlockKind.ofLabel (← entry.require "opcode")
      let inputs ← table.readSlots (chain budget) (inline budget) entry []
      let inputs := Assoc.update inputs (← fieldInputs entry)
      let inputs ← if kind.is (.procedure .call) then (callInputs entry inputs : Reading _) else
        pure inputs
      let rest ← chain budget (← entry.get "next" .null)
      return .mk kind inputs id :: rest

/-- Add what a shadow holds to the inputs of its parent. -/
def inline : Nat → Value → List (String × Input) → Reading (List (String × Input))
  | 0, _, _ => Noted.fail .cyclicBlocks
  | budget + 1, shadow, inputs => do
    let kind := BlockKind.ofLabel (← shadow.require "opcode")
    if kind.is (.procedure .prototype) then
      return Assoc.update inputs (← prototypeInputs (← shadow.get "mutation" (.record [])))
    else
      let inputs ← table.readSlots (chain budget) (inline budget) shadow inputs
      return Assoc.update inputs (← fieldInputs shadow)
end

/-- The budget that suffices for a table without circular references. -/
def budget : Nat :=
  table.entries.length + 1

/-- The script that starts at an entry: an entry at top level that is no shadow. -/
def script? (id : String) (entry : Value) : Reading (Option Script) := do
  match entry with
  | .record _ =>
    if !(← entry.get "topLevel" .null).truthy ||
      (← entry.get "shadow" .null).truthy then return none
    let blocks ← table.chain table.budget (.text id)
    return some (← Script.make blocks .null (← entry.get "x" (.int 0)) (← entry.get "y" (.int 0)))
  | _ =>
    Reading.trace (table.owner.display ++ ": skipping loose primitive " ++ id)
    return none

/-- The scripts of a table, in the order of their entries. -/
def scripts : Reading (List Script) := do
  return (← table.entries.mapM fun (id, entry) => table.script? id entry).filterMap id

end Blocks

end ScratchExport.Archive
