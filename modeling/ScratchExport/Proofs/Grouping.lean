import ScratchExport.Proofs.ClosedPlans
import ScratchExport.Proofs.Totality

/-!
# Operators group as their blocks do

Nothing that is compiled leaves a bracket or a quote open (`steps_closed`), so an operand that is
not atomic can be put in brackets, and one that is atomic has no operator outside brackets and
quotes. The source of an operator block then has only the block's own operator there, and reading it
cannot group the operands in another way.
-/

namespace ScratchExport

namespace Name

theorem TargetsFree.of_mem {isStage : Bool} {targets : List Target} {all : List TargetNames}
    {names : TargetNames} (h : TargetsFree isStage targets all) (hn : names ∈ all) :
    ∃ (isStage : Bool) (t : Target),
    names.CollisionFree (if isStage then stageMembers else spriteMembers) t := by
  induction targets generalizing isStage all with
  | nil =>
    cases all with
    | nil => cases hn
    | cons head others => exact False.elim h
  | cons first rest ih =>
    cases all with
    | nil => cases hn
    | cons head others =>
      rcases List.mem_cons.1 hn with rfl | hn
      · exact ⟨isStage, first, h.1⟩
      · exact ih h.2 hn

theorem TargetNames.CollisionFree.isIdentifier {members : List String} {t : Target}
    {names : TargetNames} (h : names.CollisionFree members t)
    (hclass : IsIdentifier names.className) {s : String} (hs : s ∈ names.identifiers) :
    IsIdentifier s := by
  simp only [identifiers, List.cons_append, List.mem_cons, List.mem_append] at hs
  rcases hs with rfl | ((hs | hs) | hs) | hs
  · exact hclass
  · exact h.data.clear.identifier s hs
  · exact h.methods.identifier s (List.mem_append_left _ hs)
  · exact h.methods.identifier s (List.mem_append_right _ hs)
  · obtain ⟨params, hparams, hs⟩ := List.mem_flatMap.1 hs
    obtain ⟨script, hpair⟩ := Compile.exists_mem_zip h.params.flip hparams
    obtain ⟨arguments, -, hassigns⟩ := List.forall₂_zip h.params.flip hpair
    exact hassigns.clear.identifier s hs

theorem Table.isIdentifier_of_mem {p : Project} {table : Table} (h : assign p = .ok table)
    {s : String} (hs : s ∈ table.identifiers) : IsIdentifier s := by
  obtain ⟨hclasses, htargets⟩ := collisionFree_of_assign h
  obtain ⟨names, hnames, hs⟩ := List.mem_flatMap.1 hs
  obtain ⟨isStage, t, hfree⟩ := htargets.of_mem hnames
  exact hfree.isIdentifier (hclasses.identifier _ (List.mem_map_of_mem hnames)) hs

end Name

namespace Compile
open Outcome (Ensures)
open Source (IsBare IsOperand IsTopOperator)

variable {ctx : Context}

/-! ### Blocks and inputs -/

theorem isName_bare (hidentifiers : ∀ s ∈ ctx.names.identifiers, Name.IsIdentifier s) {s : String}
    (h : IsName ctx s) : IsBare s := by
  rcases h.isIdentifier hidentifiers with h | rfl
  · exact Source.isBare_identifier h
  · exact .ofList (by decide)

theorem steps_closed (hctx : ctx.Named) (hnames : ∀ s, IsName ctx s → IsBare s) :
    Steps ctx Block.BareWords Input.WellShaped (Ensures · Fragment.Closed) where
  ofLiteral _ v _ _ desired := literalFragment_closed v desired
  ofColor v hv := .bind fun s hs => .pure (colorSource_closed (hv rfl) s hs)
  ofStack bs hbs locals :=
    .bind fun sources h =>
      .pure (joinStatements_closed (sourceLaw_leads.stackSources hbs locals sources h))
  ofBlock b hb hinner hreaders := by
    obtain ⟨kind, inputs, id⟩ := b
    exact (planLaw_closed hnames hinner hb.label hb.choice).block hctx hreaders id

/-! ### Operators -/

/-- How an operator with two operands is written: its sign, the slots of the operands and the shape
they have. -/
structure Dyad where
  sign : String
  left : String
  right : String
  shape : Shape

/-- The operators that are written between their operands, but for those that compare. -/
def dyad? : Operator → Option Dyad
  | .add => some ⟨"+", "NUM1", "NUM2", .numberNotNaN⟩
  | .subtract => some ⟨"-", "NUM1", "NUM2", .numberNotNaN⟩
  | .multiply => some ⟨"*", "NUM1", "NUM2", .numberNotNaN⟩
  | .divide => some ⟨"/", "NUM1", "NUM2", .numberNotNaN⟩
  | .mod => some ⟨"%", "NUM1", "NUM2", .numberNotNaN⟩
  | .and => some ⟨"&&", "OPERAND1", "OPERAND2", .boolean⟩
  | .or => some ⟨"||", "OPERAND1", "OPERAND2", .boolean⟩
  | .join => some ⟨"+", "STRING1", "STRING2", .string⟩
  | _ => none

theorem dyad_sign {op : Operator} {form : Dyad} (h : dyad? op = some form) :
    ∀ c ∈ (" " ++ form.sign ++ " ").toList, Source.isOperator c = true := by
  unfold dyad? at h
  split at h <;> cases h <;> exact List.all_eq_true.1 (by decide)

theorem operator_eq_binary {slots : Slots} {op : Operator} {form : Dyad}
    (h : dyad? op = some form) : Ensures (operator slots .any op) fun p =>
      ∃ shape, p = binary form.left form.right form.sign form.shape shape := by
  unfold dyad? at h
  split at h <;> cases h
  case h_4 | h_5 => exact .bind fun _ _ => .bind fun _ _ => .pure ⟨_, rfl⟩
  all_goals exact .ok ⟨_, rfl⟩

/-- The source of an operator block: its operands in brackets where they need them, and its sign
between them. -/
theorem blockSource_operator {op : Operator} {form : Dyad} (h : dyad? op = some form)
    {inputs : Slots} {id : String} :
    Ensures (blockSource ctx (.mk (.known (.operator op)) inputs id) .any).result fun source =>
      ∃ left right,
      ((readers ctx inputs).source form.left form.shape ctx.locals).result = .ok left ∧
      ((readers ctx inputs).source form.right form.shape ctx.locals).result = .ok right ∧
      source = Source.paren left ++ (" " ++ form.sign ++ " ") ++ Source.paren right := by
  rw [blockSource, Noted.result_bind]
  refine .bind fun f hf => .pure ?_
  obtain ⟨p, hplan, hf⟩ := blockFragment_eq_ok.1 hf
  obtain ⟨shape, rfl⟩ := operator_eq_binary h p hplan
  obtain ⟨source, hsource, rfl⟩ := Plan.fragment_phrase_eq_ok.1 hf
  obtain ⟨_, _, hbefore, hsecond, rfl⟩ := Phrase.render_append.1 hsource
  obtain ⟨_, _, hfirst, hsign, rfl⟩ := Phrase.render_append.1 hbefore
  rw [Phrase.render, Noted.result_bind] at hfirst hsecond
  obtain ⟨left, hleft, hfirst⟩ := Outcome.bind_eq_ok.1 hfirst
  obtain ⟨right, hright, hsecond⟩ := Outcome.bind_eq_ok.1 hsecond
  cases hfirst
  cases hsecond
  cases hsign
  refine ⟨left, right, hleft, hright, ?_⟩
  cases shape <;> rfl

/-- The source of an operator block is its sign between two operands, each of them atomic and
closed, so no operator outside brackets and quotes is any but the block's own. There is such source
unless a number in the block is too large. -/
theorem operator_source_groups (project : Project) (names : Name.Table)
    (hnames : Name.assign project = .ok names) (targetIndex scriptIndex : Nat) (warp : Bool)
    (ctx : Context) (hctx : Context.make project names targetIndex scriptIndex warp = .ok ctx)
    (op : Operator) (form : Dyad) (hform : dyad? op = some form) (b : Block)
    (hkind : b.kind = .known (.operator op)) (hinputs : ∀ x ∈ b.innerInputs, x.WellShaped)
    (hwords : ∀ c ∈ b.withInner, c.BareWords) :
    (∀ source, (blockSource ctx b .any).result = .ok source → ∃ left right,
      (slotSource ctx b form.left form.shape).result = .ok left ∧
      (slotSource ctx b form.right form.shape).result = .ok right ∧
      source = Source.paren left ++ (" " ++ form.sign ++ " ") ++ Source.paren right ∧
      IsOperand (Source.paren left) ∧ IsOperand (Source.paren right) ∧
      ∀ i, IsTopOperator source i ↔ (Source.paren left).length ≤ i ∧
        i < (Source.paren left).length + (" " ++ form.sign ++ " ").length) ∧
    ((∀ c ∈ b.withInner, c.WellShaped) → (∀ v ∈ b.literals, ¬ v.TooLarge) →
      ∃ source, (blockSource ctx b .any).result = .ok source) := by
  refine ⟨fun source hsource => ?_, fun hblocks hmoderate => ?_⟩
  · obtain ⟨kind, inputs, id⟩ := b
    cases hkind
    obtain ⟨left, right, hleft, hright, rfl⟩ := blockSource_operator hform source hsource
    have hsteps : Steps ctx Block.BareWords Input.WellShaped (Ensures · Fragment.Closed) := by
      refine steps_closed (Context.named_of_make hctx) fun s hs => isName_bare (fun s hs => ?_) hs
      rw [(Context.make_eq_ok_fields hctx).1] at hs
      exact Name.Table.isIdentifier_of_mem hnames hs
    have hreaders : (readers ctx inputs).All (Ensures · Fragment.Closed) := by
      refine hsteps.slots inputs fun x hx => ⟨hinputs x hx, fun c hc => hwords c ?_⟩
      exact List.mem_cons_of_mem _ (List.mem_flatMap.2 ⟨x, hx, hc⟩)
    have hoperand (slot source : String)
        (h : ((readers ctx inputs).source slot form.shape ctx.locals).result = .ok source) :
        IsOperand (Source.paren source) :=
      Source.isOperand_paren (Readers.source_closed hreaders slot form.shape ctx.locals source h)
    have hl := hoperand form.left left hleft
    have hr := hoperand form.right right hright
    exact ⟨left, right, hleft, hright, rfl, hl, hr,
      Source.isTopOperator_iff hl hr (dyad_sign hform)⟩
  · rcases (blockSource_ends hnames hctx ⟨hblocks, hinputs⟩ .any).ok_or_tooLarge with ⟨source, h,
      -⟩ | ⟨-, v, hv, hlarge⟩
    · exact ⟨source, h⟩
    · exact absurd hlarge (hmoderate v hv)

/-- A difference inside a difference, with a text that reads like one and a block of
unknown label. -/
def nestedDifference : Block :=
  .mk (.known (.operator .subtract))
    [("NUM1", .block (some (.mk (.known (.operator .join))
        [("STRING1", .plain "string" (.text ") - (")),
          ("STRING2", .plain "color" (.text "#0000ff"))] "a"))),
      ("NUM2", .block (some (.mk (.known (.operator .subtract))
        [("NUM1", .block (some (.mk (.unknown (.text "wedo_getDistance")) [] "b"))),
          ("NUM2", .plain "number" (.int (-1)))] "c")))] "d"

theorem nestedDifference_groups :
    ∃ names ctx source left right, Name.assign Name.clashingProject = .ok names ∧
    Context.make Name.clashingProject names 1 1 true = .ok ctx ∧
    (∀ x ∈ nestedDifference.innerInputs, x.WellShaped) ∧
    (∀ c ∈ nestedDifference.withInner, c.BareWords) ∧
    (blockSource ctx nestedDifference .any).result = .ok source ∧
    source = Source.paren left ++ (" " ++ "-" ++ " ") ++ Source.paren right ∧
    IsOperand (Source.paren left) ∧ IsOperand (Source.paren right) ∧
    ∀ i, IsTopOperator source i ↔ (Source.paren left).length ≤ i ∧
      i < (Source.paren left).length + (" " ++ "-" ++ " ").length := by
  obtain ⟨names, hnames⟩ : ∃ names, Name.assign Name.clashingProject = .ok names := ⟨_, rfl⟩
  obtain ⟨ctx, hctx⟩ : ∃ ctx, Context.make Name.clashingProject names 1 1 true = .ok ctx := by
    cases hnames
    exact ⟨_, rfl⟩
  have hinputs : ∀ x ∈ nestedDifference.innerInputs, x.WellShaped := by
    simp [nestedDifference, Block.innerInputs, innerSlots, Input.withInner, Input.WellShaped]
    exact .text _
  have hwords : ∀ c ∈ nestedDifference.withInner, c.BareWords := by
    have hknown {op : Operator} {inputs : Slots} {id : String}
        (h : (BlockKind.known (.operator op)).wordSlot? = none) :
        (Block.mk (.known (.operator op)) inputs id).BareWords := by
      refine ⟨fun v hv => ?_, fun slot hslot => ?_⟩
      · cases hv
      · cases h.symm.trans hslot
    have hunknown : (Block.mk (.unknown (.text "wedo_getDistance")) [] "b").BareWords := by
      refine ⟨fun v hv => ?_, fun slot hslot => ?_⟩
      · cases hv
        exact .ofList (by decide)
      · cases hslot
    simp [nestedDifference, Block.withInner, Block.innerInputs, innerSlots, Input.withInner,
      Input.blocks, hunknown]
    exact ⟨hknown rfl, hknown rfl, hknown rfl⟩
  have hblocks : ∀ c ∈ nestedDifference.withInner, c.WellShaped := by
    simp [nestedDifference, Block.withInner, Block.innerInputs, innerSlots, Input.withInner,
      Input.blocks, Block.WellShaped, Block.kind]
  have hmoderate : ∀ v ∈ nestedDifference.literals, ¬ v.TooLarge := by
    have hsmall : ¬ Binary64.Exceeds 1 := by unfold Binary64.Exceeds; decide +kernel
    simp [nestedDifference, Block.literals, Block.innerInputs, innerSlots, Input.withInner,
      Input.literalValue?, Value.TooLarge, hsmall]
    refine ⟨fun n hn => ?_, fun n hn => ?_⟩ <;> cases hn
  obtain ⟨hgroups, hreturns⟩ := operator_source_groups _ names hnames 1 1 true ctx hctx .subtract
    ⟨"-", "NUM1", "NUM2", .numberNotNaN⟩ rfl nestedDifference rfl hinputs hwords
  obtain ⟨source, hsource⟩ := hreturns hblocks hmoderate
  obtain ⟨left, right, -, -, heq, hleft, hright, htop⟩ := hgroups source hsource
  exact ⟨names, ctx, source, left, right, hnames, hctx, hinputs, hwords, hsource, heq, hleft,
    hright, htop⟩

end Compile

end ScratchExport
