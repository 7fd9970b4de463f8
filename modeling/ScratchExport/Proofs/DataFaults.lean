import ScratchExport.Proofs.BlockReading
import ScratchExport.Proofs.Render

/-!
# The faults of data

Reading data that is not as it should be stops with many faults, but never with the one that is kept
for circles of blocks (`Fault.OfData`). So where that fault can come from is left to the reader of
block tables alone. Reading takes the names of blocks from a counter, and `Reading.FaultsIn` holds
whatever the counter is.
-/

namespace ScratchExport

namespace Archive

namespace Reading

/-- Whatever the counter, if the computation stops, then with a fault in `F`. -/
def FaultsIn {α : Type} (F : Fault → Prop) (x : Reading α) : Prop :=
  ∀ n, Outcome.FaultsIn F (x.run n).result

namespace FaultsIn
variable {α β : Type} {F : Fault → Prop} {x : Reading α} {e : Except Fault α}

theorem pure (a : α) : FaultsIn F (Pure.pure a : Reading α) :=
  fun _ => .ok _

theorem bind {f : α → Reading β} (hx : FaultsIn F x)
    (hf : ∀ n a m, (x.run n).result = .ok (a, m) → FaultsIn F (f a)) : FaultsIn F (x >>= f) := by
  intro n fault h
  cases hrun : (x.run n).result with
  | error first =>
    have hstop : ((x >>= f).run n).result = .error first := by
      show (x.run n >>= fun p => (f p.1).run p.2).result = _
      rw [Noted.bind_of_error hrun]
    exact Except.error.inj (hstop.symm.trans h) ▸ hx n first hrun
  | ok next =>
    rw [bind_of_ok hrun] at h
    exact hf n next.1 next.2 hrun next.2 fault h

theorem lift (h : Outcome.FaultsIn F e) : FaultsIn F (liftM e : Reading α) := by
  intro n fault hfault
  cases e with
  | error first =>
    cases hfault
    exact h _ rfl
  | ok a => cases hfault

theorem lift_bind {f : α → Reading β} (he : Outcome.FaultsIn F e)
    (hf : ∀ a, e = .ok a → FaultsIn F (f a)) : FaultsIn F ((liftM e : Reading α) >>= f) :=
  (lift he).bind fun _ a _ ha => hf a (lift_eq_ok ha).1

theorem foldlM {f : β → α → Reading β} {as : List α} (h : ∀ a ∈ as, ∀ b, FaultsIn F (f b a))
    (b : β) : FaultsIn F (as.foldlM f b) := by
  induction as generalizing b with
  | nil => exact pure b
  | cons a rest ih =>
    obtain ⟨ha, hrest⟩ := List.forall_mem_cons.1 h
    rw [List.foldlM_cons]
    exact (ha b).bind fun _ b' _ _ => ih hrest b'

theorem mapM {f : α → Reading β} {as : List α} (h : ∀ a ∈ as, FaultsIn F (f a)) :
    FaultsIn F (as.mapM f) := by
  induction as with
  | nil => exact pure []
  | cons a rest ih =>
    obtain ⟨ha, hrest⟩ := List.forall_mem_cons.1 h
    rw [List.mapM_cons]
    exact ha.bind fun _ _ _ _ => (ih hrest).bind fun _ _ _ _ => pure _

end FaultsIn

end Reading

end Archive

/-! ### Faults of data -/

/-- A fault that is not about circles of blocks. -/
abbrev Fault.OfData (fault : Fault) : Prop :=
  fault ≠ .cyclicBlocks

open Outcome (FaultsIn)

namespace Value
variable (v : Value)

theorem asKey_faults : FaultsIn Fault.OfData v.asKey := by
  unfold asKey
  split_ifs
  · exact .ok v
  · exact .error (by decide)

theorem asName_faults : FaultsIn Fault.OfData v.asName := by
  cases v with
  | text s => exact .ok s
  | _ => exact .error (by decide)

theorem fields_faults : FaultsIn Fault.OfData v.fields := by
  cases v with
  | record fields => exact .ok fields
  | _ => exact .error (by decide)

theorem get_faults (key : String) (default : Value) : FaultsIn Fault.OfData (v.get key default) :=
  v.fields_faults.bind fun _ _ => .pure _

theorem require_faults (key : String) : FaultsIn Fault.OfData (v.require key) := by
  refine v.fields_faults.bind fun fields _ => ?_
  cases fields.lookup key with
  | none => exact .error (by decide)
  | some x => exact .ok x

theorem members_faults : FaultsIn Fault.OfData v.members := by
  cases v with
  | list | text | record | rgb => exact .ok _
  | _ => exact .error (by decide)

theorem item_faults (i : Nat) : FaultsIn Fault.OfData (v.item i) := by
  unfold item
  split
  · exact .error (by decide)
  · refine v.members_faults.bind fun members _ => ?_
    cases members[i]? with
    | none => exact .error (by decide)
    | some x => exact .ok x

theorem itemOrNull_faults (i : Nat) : FaultsIn Fault.OfData (v.itemOrNull i) := by
  have hsize : FaultsIn Fault.OfData v.size := v.members_faults.bind fun _ _ => .pure _
  refine hsize.bind fun size _ => ?_
  split_ifs
  · exact v.item_faults i
  · exact .pure _

end Value

theorem Json.readValue_faults (v : Value) : FaultsIn Fault.OfData (readValue v) := by
  unfold readValue
  split
  · next s =>
    cases read? s with
    | none => exact .error (by decide)
    | some v => exact .ok v
  · exact .error (by decide)

namespace Archive

theorem jsonMembers_faults (mutation : Value) (key : String) :
    FaultsIn Fault.OfData (jsonMembers mutation key) :=
  (mutation.get_faults _ _).bind fun _ _ => (Json.readValue_faults _).bind fun v _ =>
    v.members_faults

theorem fieldInput_faults (word : String) (content : Value) :
    FaultsIn Fault.OfData (fieldInput word content) := by
  have href (kind : DataKind) : FaultsIn Fault.OfData (do
      let id ← content.itemOrNull 1
      return Input.reference kind ⟨id, ← content.item 0⟩) :=
    (content.itemOrNull_faults 1).bind fun _ _ => (content.item_faults 0).bind fun _ _ => .pure _
  unfold fieldInput
  dsimp only
  split_ifs
  · exact href .variable
  · exact href .list
  · exact (content.item_faults 0).bind fun _ _ => .pure _

theorem fieldInputs_faults (entry : Value) : FaultsIn Fault.OfData (fieldInputs entry) :=
  (entry.require_faults _).bind fun label _ => label.asKey_faults.bind fun _ _ =>
    (entry.get_faults _ _).bind fun content _ => content.fields_faults.bind fun _ _ =>
      .mapM fun _ _ => (fieldInput_faults _ _).bind fun _ _ => .pure _

theorem callInputs_faults (entry : Value) (inputs : List (String × Input)) :
    FaultsIn Fault.OfData (callInputs entry inputs) := by
  have hargument (id : Value) : FaultsIn Fault.OfData (callArgument inputs id) := by
    refine id.asKey_faults.bind fun key _ => ?_
    cases key <;> exact .pure _
  exact (entry.get_faults _ _).bind fun mutation _ => (jsonMembers_faults _ _).bind fun _ _ =>
    (FaultsIn.mapM fun id _ => hargument id).bind fun _ _ =>
      (mutation.get_faults _ _).bind fun _ _ => .pure _

theorem prototypeInputs_faults (mutation : Value) :
    FaultsIn Fault.OfData (prototypeInputs mutation) := by
  refine (mutation.get_faults _ _).bind fun code _ => (jsonMembers_faults _ _).bind fun _ _ =>
    (jsonMembers_faults _ _).bind fun _ _ => ?_
  cases code with
  | text heading => exact (mutation.get_faults _ _).bind fun _ _ => .pure _
  | _ => exact .error (by decide)

theorem primitive_faults (v : Value) : (primitive v).FaultsIn Fault.OfData := by
  have hplain {kind : String} {f : Value → Value} {e : Except Fault Value}
      (he : FaultsIn Fault.OfData e) :
      (do return Input.plain kind (f (← e)) : Reading Input).FaultsIn Fault.OfData :=
    .lift_bind he fun _ _ => .pure _
  have href : FaultsIn Fault.OfData (primitiveRef v) :=
    (v.itemOrNull_faults 2).bind fun _ _ => (v.item_faults 1).bind fun _ _ => .pure _
  have hblock {kind : BlockKind} {slot : String} {data : DataKind} : (do
      let ref ← primitiveRef v
      return Input.block (some (.mk kind [(slot, .reference data ref)] (← Reading.freshId))) :
        Reading Input).FaultsIn Fault.OfData :=
    .lift_bind href fun _ _ => .bind (fun _ => .ok _) fun _ _ _ _ => .pure _
  unfold primitive
  refine .lift_bind (v.item_faults 0) fun first _ => .lift_bind first.asKey_faults fun kind _ => ?_
  dsimp only
  split_ifs
  · exact hplain (f := fun w => w) (v.item_faults 1)
  · exact hplain (f := fun w => w) (v.item_faults 1)
  · exact hplain (v.item_faults 1)
  · exact hplain (f := fun w => w) (v.item_faults 1)
  · exact hblock
  · exact hblock
  · exact hplain (f := fun w => w) (v.itemOrNull_faults 1)

end Archive

theorem Block.arguments_faults (b : Block) : FaultsIn Fault.OfData b.arguments := by
  unfold Block.arguments
  split
  · exact .ok _
  · refine (Value.members_faults _).bind fun members _ => ?_
    cases members with
    | nil => exact .pure _
    | cons first rest => exact .error (by decide)

theorem Script.defaultName_faults (blocks : List Block) :
    FaultsIn Fault.OfData (defaultName blocks) := by
  have hheading (arguments : List Argument) : FaultsIn Fault.OfData (headingName arguments) := by
    refine FaultsIn.bind (.mapM fun a _ => ?_) fun _ _ => .pure _
    split
    · exact .ok _
    · exact .error (by decide)
  unfold defaultName
  split
  · exact .ok _
  · next first rest =>
    split
    · exact .ok _
    · exact .ok _
    · exact .ok _
    · exact first.arguments_faults.bind fun arguments _ => hheading arguments
    · exact (Value.asName_faults _).bind fun _ _ => .pure _

end ScratchExport
