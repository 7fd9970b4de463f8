import ScratchExport.Proofs.CallProtocol
import ScratchExport.Proofs.Faults
import ScratchExport.Proofs.Opcodes

/-!
# Compiling well-shaped blocks

The compiler has an answer for every tree of well-shaped inputs, whatever the opcodes in it and
whatever is left out: it gives source, unless a number in the tree is too large for a double.
Nothing else can stop it: of the reasons why a block does not become anything, a well-shaped one has
only this (`stops_tooLarge`). The induction over the tree is that of `Steps`.
-/

namespace ScratchExport.Compile
open Outcome (Settles Ends)

variable {H : Prop} {ctx : Context} {kind : BlockKind} {slots : Slots} {readers : Readers}
  {locals inner : Name.Space}

/-! ### Phrases and plans -/

theorem Readers.source_ends (hreaders : readers.All (Ends H)) (slot : String) (shape : Shape)
    (locals : Name.Space) : Ends H (readers.source slot shape locals).result := by
  unfold Readers.source
  rw [Noted.result_bind]
  exact (hreaders.fragment null_ends slot shape locals).bind fun _ _ => .pure trivial

section
variable (hslots : ∀ x ∈ innerSlots slots, x.Admitted H)
include hslots

theorem spoken_missed_ends {name : Value} (h : IsMissed slots name) :
    Ends H (Literal.spoken name) := by
  cases h with
  | choice hchoice =>
    obtain ⟨s, rfl⟩ := (Slots.choice_settles hslots _).result _ hchoice
    exact .ok trivial
  | reference href =>
    obtain ⟨s, hs⟩ := (Slots.dataRef?_settles hslots _).result _ href _ rfl
    rw [hs]
    exact .ok trivial
  | procedure => exact Literal.spoken_ends (Slots.literal_moderate hslots "PROCCODE" False.elim)
  | nothing => exact .ok trivial

variable (hstops : ∀ fault, Stops ctx kind slots fault → fault = .tooLarge ∧ H)
include hstops

theorem Phrase.render_ends (hreaders : readers.All (Ends H)) {p : Phrase} {a b : Seam}
    (hp : p.Fits ctx kind slots locals a b) : Ends H (p.render slots readers inner).result := by
  induction p generalizing a b with
  | text s | name s | effect s | literal s | number x => exact .ok trivial
  | append p q ihp ihq =>
    obtain ⟨m, hp, hq⟩ := hp
    rw [render, Noted.result_bind]
    refine (ihp hp).bind fun a _ => ?_
    rw [Noted.result_bind]
    exact (ihq hq).bind fun b _ => .pure trivial
  | after p q ihp ihq =>
    obtain ⟨m, hp, hq⟩ := hp
    rw [render, Noted.result_bind]
    refine (ihq hq).bind fun b _ => ?_
    rw [Noted.result_bind]
    exact (ihp hp).bind fun a _ => .pure trivial
  | stop fault =>
    obtain ⟨rfl, h⟩ := hstops fault hp
    exact .tooLarge h
  | input slot shape => exact Readers.source_ends hreaders slot shape inner
  | operand slot shape =>
    rw [render, Noted.result_bind]
    exact (Readers.source_ends hreaders slot shape inner).bind fun _ _ => .pure trivial
  | color slot =>
    rw [render]
    split
    · next v hv =>
      have hadmitted := Slots.admitted_of_lookup hslots hv
      exact Literal.Color.source_ends (hadmitted.wellShaped rfl) (hadmitted.moderate v rfl)
    · rw [Noted.result_bind]
      exact (Readers.source_ends hreaders slot .any inner).bind fun _ _ => .pure trivial
  | argument position =>
    rw [render, Noted.result_bind]
    exact (hreaders.argument null_ends position inner).bind fun _ _ => .pure trivial
  | body slot taken =>
    rw [render, Noted.result_bind]
    exact (Readers.source_ends hreaders slot .stack taken).bind fun _ _ => .pure trivial

theorem Plan.fragment_ends {plan : Plan} {desired : Shape} (hreaders : readers.All (Ends H))
    (hplan : plan.Fits ctx kind slots locals) :
    Ends H (plan.fragment ctx slots readers desired inner).result := by
  cases plan with
  | phrase p shape =>
    rw [fragment, Noted.result_bind]
    exact (p.render_ends hslots hstops hreaders hplan).bind fun _ _ => .pure trivial
  | literal v =>
    rw [show v = slots.menuValue from hplan]
    exact literalFragment_ends (Slots.menuValue_moderate hslots) desired
  | placeholder label => exact .ok trivial
  | missing what name =>
    rw [fragment, Noted.result_bind]
    refine Settles.bind (.ok trivial) fun _ (_ : True) => ?_
    rw [Noted.result_bind]
    exact (spoken_missed_ends hslots hplan.2).bind fun _ _ => .pure trivial
  | stray name source shape => exact .ok trivial

end

/-! ### Trees -/

theorem passed_wellShaped {id : String}
    (hb : (Block.mk (.known (.procedure .call)) slots id).WellShaped) :
    ∃ given, passed slots = .ok given ∧ ∀ i fault, given i ≠ .stop fault := by
  unfold passed
  split
  · exact ⟨_, rfl, fun _ _ h => by cases h⟩
  · next hother =>
    -- Only an absent slot is left.
    have habsent : slots.lookup "INPUTS" = none := by
      cases h : slots.lookup "INPUTS" with
      | none => rfl
      | some x =>
        obtain ⟨items, rfl⟩ := hb x h
        exact absurd h (hother items)
    have hempty : slots.literal "INPUTS" (.list []) = .list [] := by
      rw [Slots.literal, habsent]; rfl
    rw [hempty]
    exact ⟨_, rfl, fun _ _ h => by cases h⟩

section
variable (harguments : ∀ script ∈ ctx.target.scripts, ∃ arguments, script.arguments = .ok arguments)
include harguments

/-- A well-shaped block stops for a number that is too large, and for nothing else. -/
theorem stops_tooLarge {id : String} (hb : (Block.mk kind slots id).WellShaped)
    (hslots : ∀ x ∈ innerSlots slots, x.Admitted H) {fault : Fault}
    (h : Stops ctx kind slots fault) : fault = .tooLarge ∧ H := by
  cases h with
  | choice h => exact (Slots.choice_settles hslots _).faults fault h
  | number h => exact (Slots.literalNumber_ends hslots _).faults fault h
  | reference h => exact (Slots.dataRef?_settles hslots _).faults fault h
  | key h hkey | effect h hkey =>
    obtain ⟨s, rfl⟩ := (Slots.choice_settles hslots _).result _ h
    cases hkey
  | label h hkey =>
    subst h
    obtain ⟨s, rfl⟩ := hb
    cases hkey
  | parameter h hkey =>
    have hisKey : (slots.literal "VALUE" .null).isKey = true := by
      unfold BlockKind.isReporter at h
      split at h
      · exact hb
      · exact hb
      · cases h
    rw [Value.asKey, if_pos hisKey] at hkey
    cases hkey
  | passed h hpassed =>
    subst h
    obtain ⟨given, hok, -⟩ := passed_wellShaped hb
    rw [hok] at hpassed
    cases hpassed
  | argument h hpassed hgiven =>
    subst h
    obtain ⟨given, hok, hwritten⟩ := passed_wellShaped hb
    rw [hok] at hpassed
    cases hpassed
    exact absurd hgiven (hwritten _ _)
  | callee h hnone =>
    obtain ⟨arguments, hok⟩ := harguments _ h
    rw [hok] at hnone
    cases hnone

theorem steps_ends : Steps ctx Block.WellShaped (Input.Admitted H) (Ends H) where
  ofLiteral _ _ hx hv desired := literalFragment_ends (hx.written hv) desired
  ofColor v hv :=
    (Literal.Color.source_ends (hv.wellShaped rfl) (hv.moderate v rfl)).bind fun _ _ =>
      .pure trivial
  ofStack bs hbs locals := by
    have hsources : Ends H (stackSources ctx bs locals).result := by
      induction bs with
      | nil => rw [stackSources]; exact .ok trivial
      | cons b rest ih =>
        rw [List.forall_mem_cons] at hbs
        rw [stackSources, Noted.result_bind]
        refine (hbs.1 .stack locals).bind fun f _ => ?_
        rw [Noted.result_bind]
        exact (ih hbs.2).bind fun _ _ => .pure trivial
    exact hsources.bind fun _ _ => .pure trivial
  ofBlock b hb hinner hreaders desired locals := by
    obtain ⟨kind, slots, id⟩ := b
    have hstops : ∀ fault, Stops ctx kind slots fault → fault = .tooLarge ∧ H := fun _ =>
      stops_tooLarge harguments hb hinner
    have hplan : Settles H (plan ctx kind slots desired locals) (Plan.Fits ctx kind slots locals) :=
      have hbecomes := plan_becomes kind desired locals
      ⟨hbecomes.result, fun fault h => hstops fault (hbecomes.faults fault h)⟩
    rw [blockFragment, Noted.result_bind]
    exact hplan.bind fun p hp => Plan.fragment_ends hinner hstops hreaders hp

end

theorem arguments_ok {project : Project} {names : Name.Table}
    (hnames : Name.assign project = .ok names) {targetIndex scriptIndex : Nat} {warp : Bool}
    (hctx : Context.make project names targetIndex scriptIndex warp = .ok ctx) :
    ∀ script ∈ ctx.target.scripts, ∃ arguments, script.arguments = .ok arguments := by
  obtain ⟨htarget, htargetNames, -⟩ := Context.make_eq_ok hctx
  obtain ⟨_, hfree⟩ := (Name.Table.collisionFree_of_assign hnames).targets.at htarget htargetNames
  intro script hscript
  obtain ⟨params, hpair⟩ := exists_mem_zip hfree.params hscript
  obtain ⟨arguments, hok, -⟩ := List.forall₂_zip hfree.params hpair
  exact ⟨arguments, hok⟩

theorem blockSource_ends {project : Project} {names : Name.Table}
    (hnames : Name.assign project = .ok names) {targetIndex scriptIndex : Nat} {warp : Bool}
    (hctx : Context.make project names targetIndex scriptIndex warp = .ok ctx) {b : Block}
    (hb : b.WellShapedTree) (desired : Shape) :
    Ends (∃ v ∈ b.literals, v.TooLarge) (blockSource ctx b desired).result := by
  have hinner :
      Steps.Meets Block.WellShaped (Input.Admitted (∃ v ∈ b.literals, v.TooLarge)) b.innerInputs :=
      fun x hx => by
    refine ⟨⟨hb.inputs x hx, fun v hv hlarge => ⟨v, List.mem_filterMap.2 ⟨x, hx, hv⟩, hlarge⟩⟩,
      fun c hc => ?_⟩
    exact hb.blocks c (List.mem_cons_of_mem _ (List.mem_flatMap.2 ⟨x, hx, hc⟩))
  have hends :=
    (steps_ends (arguments_ok hnames hctx)).block b (hb.blocks b (List.mem_cons_self ..)) hinner
  rw [blockSource, Noted.result_bind]
  exact (hends desired ctx.locals).bind fun _ _ => .pure trivial

/-- A tree of well-shaped blocks and inputs is compiled to source of any shape, with and without
screen refresh. The one way to fail is a number in the tree that is too large for a double. -/
theorem blockSource_total (project : Project) (names : Name.Table)
    (hnames : Name.assign project = .ok names) (targetIndex scriptIndex : Nat) (warp : Bool)
    (ctx : Context) (hctx : Context.make project names targetIndex scriptIndex warp = .ok ctx)
    (b : Block) (hb : b.WellShapedTree) (desired : Shape) :
    (∃ source, (blockSource ctx b desired).result = .ok source) ∨
      ((blockSource ctx b desired).result = .error .tooLarge ∧ ∃ v ∈ b.literals, v.TooLarge) :=
  (blockSource_ends hnames hctx hb desired).ok_or_tooLarge.imp_left fun ⟨source, h, _⟩ =>
    ⟨source, h⟩

/-- A tree with a colour, a call that passes a stack, a block of unknown label and a numeral in base
16. -/
def mixedTree : Block :=
  .mk (.known (.operator .add))
    [("NUM1", .block (some (.mk (.known (.sensing .touchingColor))
        [("COLOR", .plain "color" (.rgb 255 0 9))] "a"))),
      ("NUM2", .block (some (.mk (.known (.procedure .call))
        [("PROCCODE", .plain "string" (.text "g")),
          ("INPUTS", .values [.stack (some [.mk (.unknown (.text "wedo_motorOn")) [] "b"]),
            .plain "number" (.text " 0x1F "),
            .reference .list ⟨.null, .text "to-string"⟩])] "c")))] "d"

/-- A step of a length that no double has. -/
def longStep : Block :=
  .mk (.known (.motion .moveSteps)) [("STEPS", .plain "number" (.int (2 ^ 1024)))] "a"

theorem mixedTree_total : ∃ names ctx, Name.assign Name.clashingProject = .ok names ∧
    Context.make Name.clashingProject names 1 1 true = .ok ctx ∧
    (mixedTree.WellShapedTree ∧ (∀ v ∈ mixedTree.literals, ¬ v.TooLarge) ∧
      ∃ source, (blockSource ctx mixedTree .number).result = .ok source) ∧
    longStep.WellShapedTree ∧ (blockSource ctx longStep .stack).result = .error .tooLarge ∧
      ∃ v ∈ longStep.literals, v.TooLarge := by
  obtain ⟨names, hnames⟩ : ∃ names, Name.assign Name.clashingProject = .ok names := ⟨_, rfl⟩
  obtain ⟨ctx, hctx, hlong⟩ : ∃ ctx, Context.make Name.clashingProject names 1 1 true = .ok ctx ∧
      (blockSource ctx longStep .stack).result = .error .tooLarge := by
    cases hnames
    exact ⟨_, rfl, by decide +kernel⟩
  have htree : mixedTree.WellShapedTree := by
    constructor
    · simp [mixedTree, Block.withInner, Block.innerInputs, innerSlots, Input.withInner, innerItems,
        innerStack, Input.blocks, Block.WellShaped, Block.kind, Block.input?, Block.inputs]
      rintro x ⟨⟩
      exact ⟨_, rfl⟩
    · simp [mixedTree, Block.innerInputs, innerSlots, Input.withInner, innerItems, innerStack,
        Input.WellShaped]
      exact .rgb 255 0 9
  have hmoderate : ∀ v ∈ mixedTree.literals, ¬ v.TooLarge := by
    simp [mixedTree, Block.literals, Block.innerInputs, innerSlots, Input.withInner, innerItems,
      innerStack, Input.literalValue?, Value.TooLarge]
    refine ⟨fun n hn => ?_, fun n hn => ?_, fun n hn => ?_⟩
    · cases hn
    · have hsmall : ¬ Binary64.Exceeds 31 := by unfold Binary64.Exceeds; decide +kernel
      have hn : some 31 = some n := hn
      rwa [← Option.some.inj hn]
    · cases hn
  have hstep : longStep.WellShapedTree := by
    constructor
    · simp [-Int.reducePow, longStep, Block.withInner, Block.innerInputs, innerSlots,
        Input.withInner, Input.blocks, Block.WellShaped, Block.kind]
    · simp [-Int.reducePow, longStep, Block.innerInputs, innerSlots, Input.withInner,
        Input.WellShaped]
  refine ⟨names, ctx, hnames, hctx, ⟨htree, hmoderate, ?_⟩, hstep, hlong, ?_⟩
  · rcases blockSource_total _ names hnames 1 1 true ctx hctx mixedTree htree .number with h
      | ⟨-, v, hv, hlarge⟩
    · exact h
    · exact absurd hlarge (hmoderate v hv)
  · rcases blockSource_total _ names hnames 1 1 true ctx hctx longStep hstep .stack with
      ⟨source, h⟩ | ⟨-, h⟩
    · rw [hlong] at h
      cases h
    · exact h

end ScratchExport.Compile
