import ScratchExport.Proofs.BlockTable
import ScratchExport.Proofs.Outcome

/-!
# What the reader writes into a block

The inputs of a block have names: a slot that keeps its own, what a shadow in a slot brings along,
the fields. `slotWrites` lists the names that the slots give, with the content of those that hold
one. `WellWritten` tables write no name twice into one block, and a call in them passes each of its
slots once.

A walk looks for blocks in each input. Of what a call passes it looks at single blocks only, so a
call hides what it holds as a stack (`perm_passed`).
-/

namespace ScratchExport

/-! ### Walking inputs -/

theorem nestedInputs_eq_flatMap (inputs : List (String × Input)) :
    nestedInputs inputs = inputs.flatMap fun e => e.2.nested := by
  induction inputs with
  | nil => rfl
  | cons e rest ih => rw [nestedInputs, ih, List.flatMap_cons]

theorem inputsWalkFault?_eq_none {inputs : List (String × Input)} :
    inputsWalkFault? inputs = none ↔ ∀ e ∈ inputs, e.2.walkFault? = none := by
  induction inputs with
  | nil => simp [inputsWalkFault?]
  | cons e rest ih =>
    rw [inputsWalkFault?, List.forall_mem_cons, ← ih]
    cases e.2.walkFault? with
    | none => simp
    | some fault => simp

/-- The blocks that a call shows of one input that it passes. -/
def Input.shown (x : Input) : List Block :=
  nestedItems [x]

theorem nestedItems_eq_flatMap (items : List Input) :
    nestedItems items = items.flatMap Input.shown := by
  induction items with
  | nil => rfl
  | cons x rest ih =>
    rw [List.flatMap_cons, ← ih]
    unfold Input.shown
    cases x with
    | block content =>
      cases content with
      | none => simp [nestedItems]
      | some b => simp [nestedItems]
    | _ => simp [nestedItems]

theorem itemsWalkFault?_eq_none {items : List Input} (h : ∀ x ∈ items, x.walkFault? = none) :
    itemsWalkFault? items = none := by
  induction items with
  | nil => rfl
  | cons x rest ih =>
    obtain ⟨hx, hrest⟩ := List.forall_mem_cons.1 h
    cases x with
    | block content =>
      cases content with
      | none => exact ih hrest
      | some b =>
        rw [Input.walkFault?] at hx
        rw [itemsWalkFault?, hx]
        exact ih hrest
    | _ => exact ih hrest

/-- An input without blocks. -/
structure Input.Blockless (x : Input) : Prop where
  nested : x.nested = []
  shown : x.shown = []
  fine : x.walkFault? = none

theorem Input.Blockless.plain {kind : String} (hkind : kind ≠ "customBlockInputValues")
    (v : Value) : (Input.plain kind v).Blockless where
  nested := by rw [Input.nested]
  shown := rfl
  fine := by rw [Input.walkFault?, if_neg (by simpa using hkind)]

theorem Input.Blockless.reference (kind : DataKind) (ref : DataRef) :
    (Input.reference kind ref).Blockless where
  nested := by rw [Input.nested]
  shown := rfl
  fine := by rw [Input.walkFault?]

theorem Input.Blockless.arguments (items : List Argument) : (Input.arguments items).Blockless where
  nested := by rw [Input.nested]
  shown := rfl
  fine := by rw [Input.walkFault?]

/-! ### What a call passes -/

/-- The blocks that a call shows of the input of a name. -/
def shownAt (inputs : List (String × Input)) (name : String) : List Block :=
  ((inputs.lookup name).map Input.shown).getD []

theorem flatMap_ite_perm {α : Type} (names : List String) (k : String) (first : List α)
    {g : String → List α} (hg : g k = []) :
    (names.flatMap fun s => if s == k then first else g s).Perm
      ((List.replicate (names.count k) first).flatten ++ names.flatMap g) := by
  induction names with
  | nil => exact .refl _
  | cons s rest ih =>
    rw [List.flatMap_cons, List.flatMap_cons, List.count_cons]
    by_cases hs : s = k
    · subst hs
      simp only [beq_self_eq_true, ↓reduceIte, List.replicate_succ, List.flatten_cons, hg,
        List.nil_append, List.append_assoc]
      exact ih.append_left first
    · rw [if_neg (by simpa using hs), if_neg (by simpa using hs), Nat.add_zero]
      exact (ih.append_left (g s)).trans (List.perm_append_comm_assoc ..)

/-- A call that passes once each of the inputs in which it holds blocks shows the same blocks as its
inputs. -/
theorem perm_passed {names : List String} {inputs : List (String × Input)}
    (hnodup : (inputs.map (·.1)).Nodup) (h : ∀ e ∈ inputs, e.2.shown = [] ∨ names.count e.1 = 1) :
    (names.flatMap (shownAt inputs)).Perm (inputs.flatMap fun e => e.2.shown) := by
  induction inputs with
  | nil =>
    have hnil : names.flatMap (shownAt []) = [] := List.flatMap_eq_nil_iff.2 fun name _ => rfl
    rw [hnil]
    exact .refl _
  | cons e rest ih =>
    obtain ⟨hnew, hrest⟩ := List.nodup_cons.1 hnodup
    obtain ⟨hfirst, hlater⟩ := List.forall_mem_cons.1 h
    have hnone : shownAt rest e.1 = [] := by
      have hlookup : rest.lookup e.1 = none := by
        rw [List.lookup_eq_none_iff]
        intro p hp
        exact bne_iff_ne.2 fun heq => hnew (List.mem_map.2 ⟨p, hp, heq.symm⟩)
      rw [shownAt, hlookup]
      rfl
    have hat : shownAt (e :: rest) = fun s => if s == e.1 then e.2.shown else shownAt rest s := by
      funext s
      rw [shownAt, Assoc.lookup_cons_eq e.1 e.2 rest]
      split
      · rfl
      · rfl
    rw [hat, List.flatMap_cons]
    refine (flatMap_ite_perm names e.1 e.2.shown hnone).trans (.append ?_ (ih hrest hlater))
    rcases hfirst with hempty | hcount
    · rw [hempty]
      simp
    · rw [hcount]
      simp

namespace Archive

/-! ### Names -/

def fieldNames (entry : Value) : List String :=
  (((entry.get "fields" (.record [])).toOption.bind fun v => v.fields.toOption).getD []).map (·.1)

/-- The names that a call lists as its arguments. -/
def argumentNames (entry : Value) : List String :=
  let ids := (entry.get "mutation" (.record [])).toOption.bind fun v =>
    (jsonMembers v "argumentids").toOption
  (ids.getD []).filterMap idOf?

/-- Slots that hold a stack whatever is in them. -/
def isStackSlot (slot : String) : Bool :=
  slot == "SUBSTACK" || slot == "SUBSTACK2"

/-- A name that is written, and the content of the slot if it is the name of one. -/
abbrev Write := String × Option Value

namespace Blocks
variable (table : Blocks)

/-- What a slot writes, where `inlined` is what a shadow in it writes. -/
def slotWrite (inlined : Value → List Write) (slot : String) (content : Value) : List Write :=
  match content with
  | .text id => match table.shadow? id with
    | some shadow => inlined shadow
    | none => [(slot, some content)]
  | .null | .list (_ :: _) => [(slot, some content)]
  | _ => []

/-- What a shadow writes into its parent. Shadows in it are followed to a depth. -/
def inlineWrites : Nat → Value → List Write
  | 0, _ => []
  | depth + 1, shadow =>
    if hasKind (.procedure .prototype) shadow then [("PROCCODE", none), ("ARGUMENTS", none),
      ("WARP", none)]
    else ((slotsOf shadow).flatMap fun s => table.slotWrite (inlineWrites depth) s.1 s.2)
      ++ (fieldNames shadow).map (·, none)

/-- What the slots of an entry write. -/
def slotWrites (depth : Nat) (entry : Value) : List Write :=
  (slotsOf entry).flatMap fun s => table.slotWrite (table.inlineWrites depth) s.1 s.2

/-- An entry with another one below it. -/
def continues (id : String) : Bool :=
  (((table.object? id).map nextIds).getD []).any fun below => (table.object? below).isSome

/-- The entries that become blocks: those that are no shadows, and shadows that stand below
a block. -/
def blockEntries : List (String × Value) :=
  table.entries.filter fun e => (table.shadow? e.1).isNone || table.entries.any fun above =>
    e.1 ∈ nextIds above.2

/-- The entries of calls. -/
def callEntries : List (String × Value) :=
  table.blockEntries.filter fun e => hasKind (.procedure .call) e.2

/-- No name is written twice into one block, and a call passes each of its slots once and
no chains. -/
structure WellWritten : Prop where
  names : ∀ e ∈ table.blockEntries,
    ((table.slotWrites table.budget e.2).map (·.1) ++ fieldNames e.2).Nodup
  passes : ∀ e ∈ table.callEntries, ∀ w ∈ table.slotWrites table.budget e.2, w.2.isSome = true →
    (argumentNames e.2).count w.1 = 1
  single : ∀ e ∈ table.callEntries, ∀ w ∈ table.slotWrites table.budget e.2,
    ∀ below ∈ w.2.bind idOf?, table.continues below = false

instance : Decidable table.WellWritten :=
  decidable_of_iff (_ ∧ _ ∧ _)
    ⟨fun h => ⟨h.1, h.2.1, h.2.2⟩, fun h => ⟨h.names, h.passes, h.single⟩⟩

/-- No call holds a block in a slot for a stack. -/
def NoStackArguments : Prop :=
  ∀ e ∈ table.callEntries, ∀ w ∈ table.slotWrites table.budget e.2, ∀ below ∈ w.2.bind idOf?,
    (table.object? below).isSome = true → isStackSlot w.1 = false

instance : Decidable table.NoStackArguments :=
  inferInstanceAs (Decidable (∀ _ ∈ _, _))

variable {table}

theorem mem_blockEntries {id : String} {entry : Value} (hid : table.object? id = some entry)
    (h : table.shadow? id = none ∨ ∃ above ∈ table.entries, id ∈ nextIds above.2) :
    (id, entry) ∈ table.blockEntries := by
  refine List.mem_filter.2 ⟨mem_entries_of_object? hid, ?_⟩
  rw [Bool.or_eq_true, Option.isNone_iff_eq_none, List.any_eq_true]
  simpa using h

/-! ### Depth -/

theorem flatMap_slotWrite_sublist {f g : Value → List Write} (h : ∀ v, (f v).Sublist (g v))
    (slots : List (String × Value)) :
    (slots.flatMap fun s => table.slotWrite f s.1 s.2).Sublist (slots.flatMap fun s =>
      table.slotWrite g s.1 s.2) := by
  induction slots with
  | nil => exact .slnil
  | cons s rest ih =>
    rw [List.flatMap_cons, List.flatMap_cons]
    refine .append ?_ ih
    unfold slotWrite
    split
    · split
      · exact h _
      · exact .refl _
    · exact .refl _
    · exact .refl _
    · exact .refl _

theorem inlineWrites_sublist_succ (depth : Nat) (shadow : Value) :
    (table.inlineWrites depth shadow).Sublist (table.inlineWrites (depth + 1) shadow) := by
  induction depth generalizing shadow with
  | zero => exact List.nil_sublist _
  | succ depth ih =>
    rw [inlineWrites, inlineWrites]
    split
    · exact .refl _
    · exact (flatMap_slotWrite_sublist ih _).append (.refl _)

/-- Following shadows further only adds to what is written. -/
theorem slotWrites_sublist {depth depth' : Nat} (h : depth ≤ depth') (entry : Value) :
    (table.slotWrites depth entry).Sublist (table.slotWrites depth' entry) := by
  induction h with
  | refl => exact .refl _
  | step _ ih => exact ih.trans (flatMap_slotWrite_sublist (inlineWrites_sublist_succ _) _)

end Blocks

end Archive

end ScratchExport
