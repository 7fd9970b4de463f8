import ScratchExport.Name.Table
import ScratchExport.Project.Basic

/-!
# The texts of a project

Which texts stand in a value, in a block with everything inside it, and among the identifiers of a
name table. The opcodes of known blocks are not listed: they are the same in every project.
-/

namespace ScratchExport

mutual
/-- The texts in a value; the keys of a record are among them. -/
def Value.texts : Value → List String
  | .text s | .described s => [s]
  | .list items => Value.itemTexts items
  | .record fields => Value.fieldTexts fields
  | .null | .bool _ | .int _ | .float _ | .rgb .. => []

def Value.itemTexts : List Value → List String
  | [] => []
  | v :: rest => v.texts ++ Value.itemTexts rest

def Value.fieldTexts : List (String × Value) → List String
  | [] => []
  | (key, v) :: rest => key :: v.texts ++ Value.fieldTexts rest
end

/-- The texts of a reference. -/
def DataRef.texts (ref : DataRef) : List String :=
  ref.id.texts ++ ref.name.texts

/-- The texts of an argument. -/
def Argument.texts (a : Argument) : List String :=
  a.name.texts ++ a.default.texts

/-- The texts of an unknown label. -/
def BlockKind.texts : BlockKind → List String
  | .known _ => []
  | .unknown label => label.texts

mutual
/-- The texts in a block and in the blocks inside it. -/
def Block.texts : Block → List String
  | .mk kind inputs id => kind.texts ++ (slotTexts inputs ++ [id])

def slotTexts : List (String × Input) → List String
  | [] => []
  | (slot, input) :: rest => slot :: (input.texts ++ slotTexts rest)

/-- The texts in an input. -/
def Input.texts : Input → List String
  | .plain kind v => kind :: v.texts
  | .reference _ ref => ref.texts
  | .block none | .stack none => []
  | .block (some b) => b.texts
  | .stack (some bs) => stackTexts bs
  | .arguments items => items.flatMap (·.texts)
  | .values items => passedTexts items

def stackTexts : List Block → List String
  | [] => []
  | b :: rest => b.texts ++ stackTexts rest

def passedTexts : List Input → List String
  | [] => []
  | x :: rest => x.texts ++ passedTexts rest
end

namespace Name

/-- The identifiers of a target: its class, its data, its methods and their parameters. -/
def TargetNames.identifiers (t : TargetNames) : List String :=
  t.className :: t.data.map (·.2) ++ t.scripts ++ t.warpVariants.map (·.2) ++
    t.params.flatMap (·.map (·.2))

/-- The identifiers of all targets. -/
def Table.identifiers (table : Table) : List String :=
  table.targets.flatMap (·.identifiers)

end Name

/-! ### Where a text stands -/

theorem mem_slotTexts {slots : List (String × Input)} {slot : String} {input : Input}
    (h : (slot, input) ∈ slots) {s : String} (hs : s ∈ input.texts) : s ∈ slotTexts slots := by
  induction slots with
  | nil => cases h
  | cons entry rest ih =>
    obtain ⟨name, first⟩ := entry
    rw [slotTexts, List.mem_cons, List.mem_append]
    rcases List.mem_cons.1 h with heq | h
    · cases heq; exact .inr (.inl hs)
    · exact .inr (.inr (ih h))

theorem mem_stackTexts {bs : List Block} {b : Block} (h : b ∈ bs) {s : String} (hs : s ∈ b.texts) :
    s ∈ stackTexts bs := by
  induction bs with
  | nil => cases h
  | cons first rest ih =>
    rw [stackTexts, List.mem_append]
    rcases List.mem_cons.1 h with rfl | h
    · exact .inl hs
    · exact .inr (ih h)

theorem mem_passedTexts {items : List Input} {x : Input} (h : x ∈ items) {s : String}
    (hs : s ∈ x.texts) : s ∈ passedTexts items := by
  induction items with
  | nil => cases h
  | cons first rest ih =>
    rw [passedTexts, List.mem_append]
    rcases List.mem_cons.1 h with rfl | h
    · exact .inl hs
    · exact .inr (ih h)

end ScratchExport
