import ScratchExport.Proofs.Grouping
import ScratchExport.Proofs.MarkerCount
import ScratchExport.Proofs.Placement

/-!
# Degraded output is reported once

A block without counterpart and a reference to something missing are marked in the source, and each
mark comes with a warning. `Noted.Tells` relates what a computation returns to the number of its
warnings; it follows the steps of the computation, and the number of markers in source follows the
pieces that it is put together from. So the two numbers are the same for everything that is compiled
(`warnings_eq_markers`).

Two things can bring them apart. An author's text may look like a marker, so no text may open a
comment. And a reporter of an argument that the script does not have is reported, but a plain value
stands in for it: the reporters that are compiled have to name parameters. Which blocks are compiled
is said by `Compiled`, since a plan need not read all inputs of its block.
-/

namespace ScratchExport

/-! ### Warnings of a computation -/

/-- What the computation returns, if anything, and the number of its warnings are related. -/
def Noted.Tells {α : Type} (Q : Nat → α → Prop) (x : Noted α) : Prop :=
  ∀ a, x.result = .ok a → Q x.warnings.length a

namespace Noted.Tells
open Outcome (Ensures)

variable {α β : Type} {P : Nat → α → Prop} {Q : Nat → β → Prop} {x : Noted α} {f : α → Noted β}

theorem pure {a : α} (h : P 0 a) : Tells P (Pure.pure a) := by
  intro b hb
  cases hb
  exact h

theorem ofExcept {e : Except Fault α} (h : Ensures e (P 0)) : Tells P (.ofExcept e) :=
  h

theorem fail (fault : Fault) : Tells P (.fail fault) :=
  fun _ h => nomatch h

/-- The warnings of a sequence are those of its two steps. -/
theorem bind (hx : Tells P x) (hf : ∀ n a, P n a → Tells (fun k b => Q (n + k) b) (f a)) :
    Tells Q (x >>= f) := by
  intro b hb
  obtain ⟨a, ha, hb, hnotes⟩ := bind_result_eq_ok hb
  have hcount : (x >>= f).warnings.length = x.warnings.length + (f a).warnings.length := by
    simp only [warnings, hnotes, List.filter_append, List.map_append, List.length_append]
  rw [hcount]
  exact hf _ a (hx a ha) b hb

theorem map {g : α → β} (hx : Tells P x) (hg : ∀ n a, P n a → Q n (g a)) :
    Tells Q (do return g (← x)) :=
  hx.bind fun n a h => .pure (hg n a h)

theorem warn (ctx : Compile.Context) (message : String) :
    Tells (fun n _ => n = 1) (ctx.warn message) :=
  fun _ _ => rfl

end Noted.Tells

/-! ### Blocks inside blocks -/

/-- The inputs of a block, and those that it passes as a call. -/
def Block.heldInputs (b : Block) : List Input :=
  b.inputs.flatMap fun entry => entry.2 :: entry.2.items

theorem Input.sizeOf_lt_of_mem_blocks {x : Input} {b : Block} (h : b ∈ x.blocks) :
    sizeOf b < sizeOf x := by
  unfold blocks at h
  split at h
  · rw [List.mem_singleton.1 h]
    simp only [Input.block.sizeOf_spec, Option.some.sizeOf_spec]
    omega
  · have := List.sizeOf_lt_of_mem h
    simp only [Input.stack.sizeOf_spec, Option.some.sizeOf_spec]
    omega
  · cases h

theorem Block.sizeOf_lt_of_mem_heldInputs {b : Block} {x : Input} (h : x ∈ b.heldInputs) :
    sizeOf x < sizeOf b := by
  obtain ⟨kind, inputs, id⟩ := b
  obtain ⟨⟨slot, y⟩, hy, hx⟩ := List.mem_flatMap.1 h
  have hslot : sizeOf (slot, y) < sizeOf inputs := List.sizeOf_lt_of_mem hy
  have hle : sizeOf x ≤ sizeOf y := by
    rcases List.mem_cons.1 hx with rfl | hx
    · exact le_rfl
    · cases y with
      | values items =>
        have := List.sizeOf_lt_of_mem (show x ∈ items from hx)
        simp only [Input.values.sizeOf_spec]
        omega
      | _ => cases hx
  simp only [Prod.mk.sizeOf_spec] at hslot
  simp only [Block.mk.sizeOf_spec]
  omega

/-- Induction over blocks: a block comes behind the blocks that its inputs hold. -/
theorem Block.induction {P : Block → Prop}
    (h : ∀ b, (∀ x ∈ b.heldInputs, ∀ c ∈ x.blocks, P c) → P b) (b : Block) : P b := by
  induction hn : sizeOf b using Nat.strong_induction_on generalizing b with
  | _ n ih =>
    subst hn
    refine h b fun x hx c hc => ih _ ?_ c rfl
    exact (Input.sizeOf_lt_of_mem_blocks hc).trans (sizeOf_lt_of_mem_heldInputs hx)

namespace Compile
open Marks (Calm Counted)
open Noted (Tells)
open Outcome (Ensures)
open TextLaw (Clear)

variable {ctx : Context} {slots : Slots} {locals inner : Name.Space} {want : Shape} {x : Input}

/-! ### Markers in source -/

theorem counted_terminate {n : Nat} {s : String} (h : Counted false false n s) :
    Counted false false n (Literal.terminate s) := by
  have hempty : Calm false false "" := .empty false
  have hsemicolon : Calm false false ";" := .ofList (by decide)
  rcases terminate_eq s with heq | heq
  · rw [heq]; exact h
  · have hs := Counted.between hempty h hsemicolon
    rwa [String.empty_append, ← heq] at hs

theorem eq_zero_of_counted_empty {n : Nat} (h : Counted false false n "") : n = 0 :=
  h.markers_eq.symm

theorem counted_joinStatements {m n : Nat} {s : String} {rest : List String}
    (hs : Counted false false m s) (hrest : Counted false false n (joinStatements rest)) :
    Counted false false (m + n) (joinStatements (s :: rest)) := by
  have hline : Calm false false "\n" := .ofList (by decide)
  rcases joinStatements_cons s rest with ⟨heq, rfl⟩ | ⟨heq, hempty⟩ | heq
  · rw [heq, eq_zero_of_counted_empty hs, Nat.zero_add]
    exact hrest
  · rw [hempty] at hrest
    rw [heq, eq_zero_of_counted_empty hrest]
    exact counted_terminate hs
  · rw [heq]
    exact ((counted_terminate hs).append hline.counted).append hrest

theorem sourceLaw_counted (n : Nat) : SourceLaw (Counted false false n) := by
  intro w hw s hs
  have hcalm : ∀ w ∈ wrappings, Calm false false w.1 ∧ Calm false false w.2 := by
    simp only [wrappings, List.forall_mem_cons]
    and_intros
    all_goals first | exact .ofList (by decide) | exact List.forall_mem_nil _
  exact .between (hcalm w hw).1 hs (hcalm w hw).2

theorem counted_literalFragment {v : Value} (h : Clear Calm v.texts) (desired : Shape) :
    Ensures (literalFragment v desired) (Counted false false 0 ·.source) := by
  refine literalFragment_ensures (fun s hs => ?_) (fun b => ?_)
    (fun x => (Marks.calm_numberLiteral x).counted) desired
  · exact (Marks.calm_literal (Marks.textLaw.spoken h s hs)).narrow.counted
  · cases b <;> exact Calm.counted (.ofList (by decide))

theorem counted_noUsername : Counted false false 0 noUsername :=
  .fixed 0 0 rfl rfl rfl

theorem counted_todo : Counted false false 1 "/* TODO: Implement " :=
  .fixed 1 0 rfl rfl rfl

theorem counted_missing : Counted false false 1 "/* Missing " :=
  .fixed 0 1 rfl rfl rfl

theorem counted_placeholderSource {label : String} (h : Calm false true label) :
    Counted false false 1 (Plan.placeholderSource label) := by
  have hclose : Calm true false " */ null" := .fixed rfl
  exact (counted_todo.append h.commentText.counted).append hclose.counted

theorem counted_missingSource {what spoken : String} (hwhat : what ∈ missingWords)
    (h : Calm false true spoken) : Counted false false 1 (Plan.missingSource what spoken) := by
  have hwhat : Calm false false what := by
    simp only [missingWords, List.mem_cons, List.not_mem_nil, or_false] at hwhat
    rcases hwhat with rfl | rfl | rfl | rfl <;> exact .ofList (by decide)
  have hblank : Calm false false " " := .ofList (by decide)
  have hname := (Marks.calm_literal h).narrow.commentText.counted
  have hclose : Calm false false " */ 0" := .ofList (by decide)
  exact (((counted_missing.append hwhat.counted).append hblank.counted).append hname).append
    hclose.counted

/-! ### Inputs -/

/-- Source with as many markers as there are warnings. -/
abbrev Matches (n : Nat) (f : Fragment) : Prop :=
  Counted false false n f.source

theorem stackSources_tells {bs : List Block}
    (h : ∀ b ∈ bs, Tells Matches (blockFragment ctx b .stack inner)) :
    Tells (fun n sources => Counted false false n (joinStatements sources))
    (stackSources ctx bs inner) := by
  induction bs with
  | nil =>
    rw [stackSources]
    exact .pure (Calm.empty false).counted
  | cons b rest ih =>
    rw [List.forall_mem_cons] at h
    rw [stackSources]
    refine h.1.bind fun m f hf => (ih h.2).bind fun n others hothers => .pure ?_
    exact counted_joinStatements ((sourceLaw_counted m).coerce hf _ _) hothers

theorem inputFragment_tells (htexts : Clear Calm x.texts)
    (h : ∀ b ∈ x.blocks, Tells Matches (blockFragment ctx b (blockShape want x) inner)) :
    Tells Matches (inputFragment ctx x want inner) := by
  have hliteral {v : Value} (hv : Clear Calm v.texts) :
      Tells Matches (.ofExcept (literalFragment v want)) :=
    .ofExcept (counted_literalFragment hv want)
  rcases x with ⟨kind, v⟩ | ⟨kind, ref⟩ | (_ | b) | (_ | bs) | items | items <;> rw [inputFragment]
  case plain =>
    have hv := (List.forall_mem_cons.1 htexts).2
    dsimp only
    split_ifs
    · have hcolor : Tells (Counted false false) (.ofExcept (Literal.Color.source v)) :=
        .ofExcept fun s hs => (Marks.textLaw.colorSource hv s hs).counted
      exact hcolor.map fun _ _ h => h
    · exact hliteral hv
  case reference => exact hliteral (List.forall_mem_append.1 htexts).2
  case block.none => exact hliteral TextLaw.clear_nil
  case block.some => exact h b (List.mem_singleton_self b)
  case stack.none => exact .pure (Calm.empty false).counted
  case stack.some => exact (stackSources_tells h).map fun _ _ h => h
  case arguments => exact hliteral (Marks.textLaw.content htexts)
  case values => exact hliteral (Marks.textLaw.content htexts)

theorem Readers.source_tells {slot : String} (h : ∀ x, slots.lookup slot = some x →
    Tells Matches (inputFragment ctx x want inner)) :
    Tells (Counted false false) ((readers ctx slots).source slot want inner) := by
  have hfragment : Tells Matches ((readers ctx slots).fragment slot want inner) := by
    unfold Readers.fragment
    rw [lookup_readers]
    cases hslot : slots.lookup slot with
    | none => exact .ofExcept (counted_literalFragment TextLaw.clear_nil want)
    | some x => exact h x hslot
  exact hfragment.map fun n f hf => (sourceLaw_counted n).coerce hf _ _

theorem Readers.argument_tells {position : Nat} (h : ∀ x y, slots.lookup "INPUTS" = some y →
    y.items[position]? = some x → Tells Matches (inputFragment ctx x .any inner)) :
    Tells Matches ((readers ctx slots).argument position inner) := by
  unfold Readers.argument
  rw [lookup_readers]
  split
  · next read hread =>
    obtain ⟨reader, hreader, hitem⟩ := Option.bind_eq_some_iff.1 hread
    obtain ⟨y, hy, rfl⟩ := Option.map_eq_some_iff.1 hreader
    rw [inputItems_eq, List.getElem?_map] at hitem
    obtain ⟨x, hx, rfl⟩ := Option.map_eq_some_iff.1 hitem
    exact h x y hy hx
  · exact .ofExcept (counted_literalFragment TextLaw.clear_nil .any)

/-! ### Phrases and plans -/

theorem calm_of_isEffect (htexts : Clear Calm (slotTexts slots)) {s : String}
    (h : IsEffect slots s) : Calm false true s := by
  obtain ⟨t, hchoice, rfl⟩ := h
  exact (TextLaw.clear_singleton.1 (Marks.textLaw.choice htexts "EFFECT" _ hchoice)).lower

theorem Phrase.render_tells {kind : BlockKind} (hctx : ctx.Named)
    (hnames : ∀ s, IsName ctx s → Calm false false s) (htexts : Clear Calm (slotTexts slots))
    {p : Phrase} {a b : Seam} (hp : p.Fits ctx kind slots inner a b)
    (hreads : ∀ x want inner, p.ReadsInput slots locals x want inner →
      Tells Matches (inputFragment ctx x want inner)) :
    Tells (Counted a.slash b.slash) (p.render slots (readers ctx slots) locals) := by
  have hhole {a b : Seam} (h : a.Hole false b) {x : Noted String}
      (hx : Tells (Counted false false) x) : Tells (Counted a.slash b.slash) x := by
    rw [h.1, h.2.2]
    exact hx
  induction p generalizing a b with
  | text s =>
    rcases hp.code with ⟨-, hmarks⟩ | ⟨rfl, ha, hb, -⟩
    · exact .pure (Calm.of_run hmarks).counted
    · rw [ha, hb]
      exact .pure counted_noUsername
  | append p q ihp ihq =>
    obtain ⟨m, hp, hq⟩ := hp
    have hfirst := ihp hp fun x want inner h => hreads x want inner (.inl h)
    have hsecond := ihq hq fun x want inner h => hreads x want inner (.inr h)
    exact hfirst.bind fun i s hs => hsecond.map fun j t ht => hs.append ht
  | after p q ihp ihq =>
    obtain ⟨m, hp, hq⟩ := hp
    have hfirst := ihp hp fun x want inner h => hreads x want inner (.inl h)
    have hsecond := ihq hq fun x want inner h => hreads x want inner (.inr h)
    refine hsecond.bind fun j t ht => hfirst.map fun i s hs => ?_
    rw [Nat.add_comm]
    exact hs.append ht
  | stop fault => exact .fail fault
  | name s => exact hhole hp.2 (.pure (hnames s (hp.1 hctx)).counted)
  | effect s =>
    rw [hp.2.1, hp.2.2.2]
    exact .pure (calm_of_isEffect htexts hp.1.2).counted
  | literal s =>
    exact hhole hp.2
      (.pure (Marks.calm_literal (hnames s (.identifier hp.1)).weaken).narrow.counted)
  | number x => exact hhole hp (.pure (Marks.calm_numberLiteral x).counted)
  | input slot shape =>
    exact hhole hp (Readers.source_tells fun x hx => hreads x _ _ ⟨hx, rfl, rfl⟩)
  | operand slot shape =>
    have hsource := Readers.source_tells fun x hx => hreads x _ _ ⟨hx, rfl, rfl⟩
    exact hhole hp (hsource.map fun n s hs => (sourceLaw_counted n).paren hs)
  | color slot =>
    refine hhole hp ?_
    rw [render]
    split
    · next v hv =>
      have hvalue := (List.forall_mem_cons.1 (TextLaw.lookup htexts hv)).2
      exact .ofExcept fun s hs => (Marks.textLaw.colorSource hvalue s hs).counted
    · have hsource := Readers.source_tells fun x hx => hreads x _ _ ⟨hx, rfl, rfl⟩
      exact hsource.map fun n s hs => (sourceLaw_counted n).wrap "Color.num(" ")" hs
  | argument position =>
    have hargument := Readers.argument_tells fun x y hy hx => hreads x _ _ ⟨⟨y, hy, hx⟩, rfl, rfl⟩
    exact hhole hp (hargument.map fun _ _ h => h)
  | body slot taken =>
    have hsource := Readers.source_tells fun x hx => hreads x _ _ ⟨hx, rfl, rfl⟩
    refine hhole hp.2 (hsource.map fun n s hs => ?_)
    split_ifs with hempty
    · rwa [String.isEmpty_iff.1 hempty] at hs
    · exact (sourceLaw_counted n).wrapEnd "\n" hs

theorem Plan.fragment_tells {kind : BlockKind} {plan : Plan} {desired : Shape} (hctx : ctx.Named)
    (hnames : ∀ s, IsName ctx s → Calm false false s)
    (htexts : Clear Calm (kind.texts ++ slotTexts slots))
    (hparameter : NamesParameter ctx kind slots) (hplan : plan.Fits ctx kind slots inner)
    (hreads : ∀ p shape, plan = .phrase p shape → ∀ x want inner,
      p.ReadsInput slots locals x want inner → Tells Matches (inputFragment ctx x want inner)) :
    Tells Matches (plan.fragment ctx slots (readers ctx slots) desired locals) := by
  have hslots := (List.forall_mem_append.1 htexts).2
  cases plan with
  | phrase p shape =>
    have hrender := Phrase.render_tells hctx hnames hslots hplan (hreads p shape rfl)
    exact hrender.map fun _ _ h => h
  | literal v =>
    rw [show v = slots.menuValue from hplan]
    exact .ofExcept (counted_literalFragment (Marks.textLaw.menuValue hslots) desired)
  | placeholder label =>
    refine (Tells.warn ctx _).bind fun n _ hn => .pure ?_
    rw [hn]
    exact counted_placeholderSource (hplan.clear Marks.textLaw htexts)
  | missing what name =>
    refine (Tells.warn ctx _).bind fun n _ hn => ?_
    rw [hn]
    have hspoken : Tells (fun n s => n = 0 ∧ Calm false true s) (.ofExcept (Literal.spoken name)) :=
      .ofExcept fun s hs => ⟨rfl, Marks.textLaw.spoken (hplan.2.clear Marks.textLaw hslots) s hs⟩
    refine hspoken.map fun n s hs => ?_
    rw [hs.1]
    exact counted_missingSource hplan.1 hs.2
  | stray name source shape => exact absurd hparameter hplan.2

/-! ### Blocks -/

theorem clear_of_mem_items {y : Input} (h : Clear Calm y.texts) (hx : x ∈ y :: y.items) :
    Clear Calm x.texts := by
  rcases List.mem_cons.1 hx with rfl | hx
  · exact h
  · cases y with
    | values items => exact fun s hs => h s (mem_passedTexts hx hs)
    | _ => cases hx

theorem clear_of_mem_blocks {b : Block} (h : Clear Calm x.texts) (hb : b ∈ x.blocks) :
    Clear Calm b.texts := by
  rcases x with _ | _ | (_ | c) | (_ | bs) | _ | _
  case block.some => rw [List.mem_singleton.1 hb]; exact h
  case stack.some => exact fun s hs => h s (mem_stackTexts hb hs)
  all_goals cases hb

/-- A block is compiled with as many warnings as its source has markers. -/
theorem blockFragment_tells (hctx : ctx.Named) (hnames : ∀ s, IsName ctx s → Calm false false s)
    (b : Block) :
    ∀ desired locals, Clear Calm b.texts →
      (∀ d, Compiled ctx b desired locals d → NamesParameter ctx d.kind d.inputs) →
      Tells Matches (blockFragment ctx b desired locals) := by
  induction b using Block.induction with
  | _ b ih =>
    obtain ⟨kind, slots, id⟩ := b
    intro desired locals htexts hcompiled
    rw [Block.texts, ← List.append_assoc] at htexts
    have htexts := (List.forall_mem_append.1 htexts).1
    have hslots := (List.forall_mem_append.1 htexts).2
    have hplan : Tells (fun n p => n = 0 ∧ plan ctx kind slots desired locals = .ok p)
        (.ofExcept (plan ctx kind slots desired locals)) := .ofExcept fun p hp => ⟨rfl, hp⟩
    rw [blockFragment]
    refine hplan.bind fun n plan h => ?_
    obtain ⟨rfl, hplan⟩ := h
    simp only [Nat.zero_add]
    have hfits := (plan_becomes kind desired locals).result plan hplan
    refine plan.fragment_tells hctx hnames htexts (hcompiled _ (.self ..)) hfits ?_
    rintro p shape rfl x want inner hreads
    obtain ⟨slot, y, hy, hx⟩ := hreads.mem
    have hxtexts := clear_of_mem_items (fun s hs => hslots s (mem_slotTexts hy hs)) hx
    refine inputFragment_tells hxtexts fun c hc => ?_
    refine ih x (List.mem_flatMap.2 ⟨(slot, y), hy, hx⟩) c hc _ _ (clear_of_mem_blocks hxtexts hc)
      fun d hd => ?_
    exact hcompiled d (.step hplan hreads hc hd)

/-- The number of warnings given while a block is compiled is the number of placeholders and missing
references marked in its source, if no text opens a comment and every reporter that is compiled
names a parameter of its script. -/
theorem warnings_eq_markers (project : Project) (names : Name.Table)
    (hnames : Name.assign project = .ok names) (targetIndex scriptIndex : Nat) (warp : Bool)
    (ctx : Context) (hctx : Context.make project names targetIndex scriptIndex warp = .ok ctx)
    (b : Block) (desired : Shape) (htexts : ∀ s ∈ b.texts, ¬ Marks.opening <:+: s.toList)
    (hreporters : ∀ d, Compiled ctx b desired ctx.locals d → NamesParameter ctx d.kind d.inputs)
    (source : String) (hsource : (blockSource ctx b desired).result = .ok source) :
    (blockSource ctx b desired).warnings.length = Marks.markers source := by
  have hidentifiers : ∀ s ∈ ctx.names.identifiers, Name.IsIdentifier s := by
    rw [(Context.make_eq_ok_fields hctx).1]
    exact fun s hs => Name.Table.isIdentifier_of_mem hnames hs
  have hcalm (s : String) (hs : IsName ctx s) : Calm false false s := by
    rcases hs.isIdentifier hidentifiers with hs | rfl
    · exact Marks.calm_identifier hs
    · exact .empty false
  have hblock := blockFragment_tells (Context.named_of_make hctx) hcalm b desired ctx.locals
    (fun s hs => Marks.calm_iff.2 (htexts s hs)) hreporters
  have htells : Tells (Counted false false) (blockSource ctx b desired) :=
    hblock.map fun n f hf => (sourceLaw_counted n).coerce hf _ _
  exact (htells source hsource).markers_eq.symm

/-- A procedure with one parameter. -/
def turnProject : Project where
  stage := { name := .text "Stage" }
  sprites := [{ name := .text "Cat", scripts := [⟨[.mk (.known (.procedure .definition))
    [("ARGUMENTS", .arguments [⟨.numberOrString, .text "n", .null⟩])] "a"], .text "turn", .int 0,
    .int 0⟩] }]

/-- A loop over a block without counterpart, which says the parameter and changes a variable that is
not there. -/
def degradedLoop : Block :=
  .mk (.known (.control .loop))
    [("TIMES", .block (some (.mk (.unknown (.text "wedo2_getDistance")) [] "b"))),
      ("SUBSTACK", .stack (some [
        .mk (.known (.looks .say))
        [("MESSAGE", .block (some (.mk (.known (.procedure .reporterStringNumber))
          [("VALUE", .plain "string" (.text "n"))] "c")))] "d",
        .mk (.known (.data .changeVariableBy))
          [("VARIABLE", .reference .variable ⟨.text "x", .text "* Missing /"⟩),
          ("VALUE", .plain "number" (.int 1))] "e"]))] "f"

theorem degradedLoop_warnings : ∃ names ctx source, Name.assign turnProject = .ok names ∧
    Context.make turnProject names 1 0 true = .ok ctx ∧
    (∀ s ∈ degradedLoop.texts, ¬ Marks.opening <:+: s.toList) ∧
    (∀ d, Compiled ctx degradedLoop .stack ctx.locals d → NamesParameter ctx d.kind d.inputs) ∧
    (blockSource ctx degradedLoop .stack).result = .ok source ∧
    (blockSource ctx degradedLoop .stack).warnings.length = 2 ∧
    (blockSource ctx degradedLoop .stack).warnings.length = Marks.markers source := by
  have hrun : (do
      let names ← Name.assign turnProject
      let ctx ← Context.make turnProject names 1 0 true
      let _ ← (blockSource ctx degradedLoop .stack).result
      return (ctx.params.map Prod.fst,
        (blockSource ctx degradedLoop .stack).warnings.length)).toOption =
      some (["n"], 2) := by decide +kernel
  obtain ⟨names, hnames, hrun⟩ := Outcome.bind_eq_ok.1 (Outcome.toOption_eq_some.1 hrun)
  obtain ⟨ctx, hctx, hrun⟩ := Outcome.bind_eq_ok.1 hrun
  obtain ⟨source, hsource, hrun⟩ := Outcome.bind_eq_ok.1 hrun
  obtain ⟨hparams, hcount⟩ := Prod.mk.inj (Outcome.pure_eq_ok.1 hrun)
  have htexts : ∀ s ∈ degradedLoop.texts, ¬ Marks.opening <:+: s.toList := by decide +kernel
  have hreporters (d : Block) (hd : Compiled ctx degradedLoop .stack ctx.locals d) :
      NamesParameter ctx d.kind d.inputs := by
    have hmem := hd.mem_withInner
    simp only [degradedLoop, Block.withInner, Block.innerInputs, innerSlots, Input.withInner,
      innerStack, Input.blocks,
      List.flatMap_cons, List.flatMap_nil, List.cons_append, List.nil_append, List.append_nil,
      List.mem_cons,
      List.not_mem_nil, or_false] at hmem
    rcases hmem with rfl | rfl | rfl | rfl | rfl
    case inr.inr.inr.inr =>
      exact fun _ => ⟨"n", rfl, by rw [hparams]; exact List.mem_singleton_self _⟩
    all_goals
      intro h
      cases h
  exact ⟨names, ctx, source, hnames, hctx, htexts, hreporters, hsource, hcount,
    warnings_eq_markers turnProject names hnames 1 0 true ctx hctx degradedLoop .stack htexts
    hreporters source hsource⟩

end Compile

end ScratchExport
