import ScratchExport.Proofs.Assoc
import ScratchExport.Proofs.Render

/-!
# Induction over block trees

The compiler goes through a block once: inputs become readers, and the plan of the block is carried
out with them. So what holds of the outcome of every part holds of the outcome of the whole as soon
as each of these steps keeps it. `Steps` collects the steps, for a property of outcomes and for
conditions on the blocks and inputs of the tree, and `Steps.block` is the induction.

The conditions are asked of each member of the tree. `Block.innerInputs` lists the inputs, those
that a call passes included, and the blocks are the ones that these inputs hold.
-/

namespace ScratchExport

mutual
/-- The inputs of a block and the inputs inside them. -/
def Block.innerInputs : Block → List Input
  | .mk _ inputs _ => innerSlots inputs

def innerSlots : List (String × Input) → List Input
  | [] => []
  | (_, x) :: rest => x.withInner ++ innerSlots rest

/-- An input and the inputs inside it. -/
def Input.withInner : Input → List Input
  | .block (some b) => .block (some b) :: b.innerInputs
  | .stack (some bs) => .stack (some bs) :: innerStack bs
  | .values items => .values items :: innerItems items
  | .plain kind v => [.plain kind v]
  | .reference kind ref => [.reference kind ref]
  | .block none => [.block none]
  | .stack none => [.stack none]
  | .arguments items => [.arguments items]

def innerStack : List Block → List Input
  | [] => []
  | b :: rest => b.innerInputs ++ innerStack rest

def innerItems : List Input → List Input
  | [] => []
  | x :: rest => x.withInner ++ innerItems rest
end

/-- The blocks that an input holds. -/
def Input.blocks : Input → List Block
  | .block (some b) => [b]
  | .stack (some bs) => bs
  | _ => []

/-- The inputs that a call passes in an input. -/
def Input.items : Input → List Input
  | .values items => items
  | _ => []

/-- A block and all blocks inside it. -/
def Block.withInner (b : Block) : List Block :=
  b :: b.innerInputs.flatMap (·.blocks)

theorem Input.mem_withInner (x : Input) : x ∈ x.withInner := by
  rcases x with _ | _ | (_ | b) | (_ | bs) | _ | _ <;> rw [withInner] <;>
    exact List.mem_cons_self ..

theorem mem_innerSlots {slots : List (String × Input)} {slot : String} {x y : Input}
    (h : (slot, x) ∈ slots) (hy : y ∈ x.withInner) : y ∈ innerSlots slots := by
  induction slots with
  | nil => cases h
  | cons entry rest ih =>
    obtain ⟨name, first⟩ := entry
    rw [innerSlots, List.mem_append]
    rcases List.mem_cons.1 h with heq | h
    · cases heq; exact .inl hy
    · exact .inr (ih h)

theorem mem_innerStack {bs : List Block} {b : Block} {x : Input} (h : b ∈ bs)
    (hx : x ∈ b.innerInputs) : x ∈ innerStack bs := by
  induction bs with
  | nil => cases h
  | cons first rest ih =>
    rw [innerStack, List.mem_append]
    rcases List.mem_cons.1 h with rfl | h
    · exact .inl hx
    · exact .inr (ih h)

/-- What is inside a block of an input is inside the input. -/
theorem Input.mem_withInner_of_blocks {x y : Input} {b : Block} (hb : b ∈ x.blocks)
    (hy : y ∈ b.innerInputs) : y ∈ x.withInner := by
  rcases x with _ | _ | (_ | c) | (_ | bs) | _ | _
  case block.some =>
    rw [List.mem_singleton.1 hb] at hy
    rw [withInner]
    exact List.mem_cons_of_mem _ hy
  case stack.some =>
    rw [withInner]
    exact List.mem_cons_of_mem _ (mem_innerStack hb hy)
  all_goals cases hb

namespace Compile

theorem inputItems_eq (ctx : Context) (x : Input) :
    inputItems ctx x = x.items.map (inputFragment ctx) := by
  cases x with
  | values items => rw [inputItems, itemReads_eq]; rfl
  | _ => rw [inputItems]; rfl

/-- What a reader gives has the property. -/
def Read.All (Q : Except Fault Fragment → Prop) (read : Read) : Prop :=
  ∀ desired locals, Q (read desired locals).result

/-- The same for every input, and for every input that a call passes. -/
def Readers.All (Q : Except Fault Fragment → Prop) (readers : Readers) : Prop :=
  ∀ entry ∈ readers, entry.2.read.All Q ∧ ∀ read ∈ entry.2.items, Read.All Q read

namespace Readers.All
variable {Q : Except Fault Fragment → Prop} {readers : Readers}

theorem fragment (h : readers.All Q) (hnull : ∀ shape, Q (literalFragment .null shape))
    (slot : String) (shape : Shape) (locals : Name.Space) :
    Q (readers.fragment slot shape locals).result := by
  unfold Readers.fragment
  split
  · next reader hreader => exact (h _ (Assoc.mem_of_lookup hreader)).1 shape locals
  · exact hnull shape

theorem argument (h : readers.All Q) (hnull : ∀ shape, Q (literalFragment .null shape))
    (position : Nat) (locals : Name.Space) : Q (readers.argument position locals).result := by
  unfold Readers.argument
  split
  · next read hread =>
    obtain ⟨reader, hreader, hitem⟩ := Option.bind_eq_some_iff.1 hread
    exact (h _ (Assoc.mem_of_lookup hreader)).2 read (List.mem_of_getElem? hitem) .any locals
  · exact hnull .any

end Readers.All

/-- The value that an input is compiled from, unless it holds blocks or a colour. -/
def written? : Input → Option Value
  | .plain kind v => if kind == "color" then none else some v
  | .reference _ ref => some ref.name
  | .block none => some .null
  | .arguments items => some (Input.arguments items).content
  | .values items => some (Input.values items).content
  | .block (some _) | .stack _ => none

/-- Each step of compiling keeps the property `Q` of outcomes, in trees whose blocks satisfy `P` and
whose inputs satisfy `J`. -/
structure Steps (ctx : Context) (P : Block → Prop) (J : Input → Prop)
    (Q : Except Fault Fragment → Prop) : Prop where
  ofLiteral : ∀ x v, J x → written? x = some v → ∀ desired, Q (literalFragment v desired)
  ofColor : ∀ v, J (.plain "color" v) → Q (do return ⟨← Literal.Color.source v, .any⟩)
  ofStack : ∀ bs, (∀ b ∈ bs, (blockFragment ctx b).All Q) → ∀ locals,
    Q (do return ⟨joinStatements (← (stackSources ctx bs locals).result), .stack⟩)
  ofBlock : ∀ b, P b → (∀ x ∈ b.innerInputs, J x) → (readers ctx b.inputs).All Q →
    (blockFragment ctx b).All Q

namespace Steps
variable {ctx : Context} {P : Block → Prop} {J : Input → Prop} {Q : Except Fault Fragment → Prop}

/-- The inputs, and the blocks that they hold, satisfy the conditions. -/
abbrev Meets (P : Block → Prop) (J : Input → Prop) (inputs : List Input) : Prop :=
  ∀ x ∈ inputs, J x ∧ ∀ b ∈ x.blocks, P b

mutual
theorem block (h : Steps ctx P J Q) :
    ∀ b : Block, P b → Meets P J b.innerInputs → (blockFragment ctx b).All Q
  | .mk kind inputs id, hb, hinner =>
    h.ofBlock (.mk kind inputs id) hb (fun x hx => (hinner x hx).1) (slots h inputs hinner)

theorem slots (h : Steps ctx P J Q) :
    ∀ inputs : Slots, Meets P J (innerSlots inputs) → (readers ctx inputs).All Q
  | [], _ => by rw [readers]; exact fun _ h => nomatch h
  | (name, x) :: rest, hinner => by
    rw [innerSlots, Meets, List.forall_mem_append] at hinner
    rw [readers]
    exact List.forall_mem_cons.2 ⟨⟨input h x hinner.1, items h x hinner.1⟩, slots h rest hinner.2⟩

theorem input (h : Steps ctx P J Q) :
    ∀ x : Input, Meets P J x.withInner → (inputFragment ctx x).All Q
  | .block (some b), hx => by
    rw [Input.withInner, Meets, List.forall_mem_cons] at hx
    rw [inputFragment]
    exact block h b (hx.1.2 b (List.mem_singleton_self b)) hx.2
  | .stack (some bs), hx => by
    rw [Input.withInner, Meets, List.forall_mem_cons] at hx
    rw [inputFragment]
    intro desired locals
    rw [Noted.result_bind]
    exact h.ofStack bs (stack h bs hx.1.2 hx.2) locals
  | .stack none, _ => by
    rw [inputFragment]
    have hempty := h.ofStack [] (fun _ h => nomatch h)
    simp only [stackSources] at hempty
    exact fun _ locals => hempty locals
  | .plain kind v, hx => by
    rw [inputFragment]
    intro desired locals
    have hJ := (hx _ (Input.mem_withInner _)).1
    dsimp only
    split_ifs with hkind
    · rw [Noted.result_bind]
      rw [beq_iff_eq.1 hkind] at hJ
      exact h.ofColor v hJ
    · exact h.ofLiteral _ v hJ (if_neg hkind) desired
  | .block none, hx | .reference _ _, hx | .arguments _, hx | .values _, hx => by
    rw [inputFragment]
    exact fun desired _ => h.ofLiteral _ _ (hx _ (Input.mem_withInner _)).1 rfl desired

theorem items (h : Steps ctx P J Q) :
    ∀ x : Input, Meets P J x.withInner → ∀ read ∈ inputItems ctx x, Read.All Q read
  | .values xs, hx => by
    rw [Input.withInner, Meets, List.forall_mem_cons] at hx
    rw [inputItems]
    exact reads h xs hx.2
  | .plain .., _ | .reference .., _ | .block _, _ | .stack _, _ | .arguments _, _ => by
    rw [inputItems]
    exact fun _ h => nomatch h

theorem reads (h : Steps ctx P J Q) : ∀ xs : List Input, Meets P J (innerItems xs) →
    ∀ read ∈ itemReads ctx xs, Read.All Q read
  | [], _ => by rw [itemReads]; exact fun _ h => nomatch h
  | x :: rest, hx => by
    rw [innerItems, Meets, List.forall_mem_append] at hx
    rw [itemReads]
    exact List.forall_mem_cons.2 ⟨input h x hx.1, reads h rest hx.2⟩

theorem stack (h : Steps ctx P J Q) :
    ∀ bs : List Block, (∀ b ∈ bs, P b) → Meets P J (innerStack bs) →
    ∀ b ∈ bs, (blockFragment ctx b).All Q
  | [], _, _ => fun _ h => nomatch h
  | b :: rest, hbs, hinner => by
    rw [innerStack, Meets, List.forall_mem_append] at hinner
    rw [List.forall_mem_cons] at hbs
    exact List.forall_mem_cons.2 ⟨block h b hbs.1 hinner.1, stack h rest hbs.2 hinner.2⟩
end

end Steps

end Compile

end ScratchExport
