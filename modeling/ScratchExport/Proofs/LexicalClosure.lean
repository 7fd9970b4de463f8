import ScratchExport.Proofs.CallProtocol
import ScratchExport.Proofs.Grouping
import ScratchExport.Proofs.LexicalTexts

/-!
# Authors' texts do not break out of methods

The methods and triggers of a target are lexically closed, whatever texts the project holds: names
become identifiers, texts become literals, and what a comment shows does not end it. Three kinds of
words are not treated in any way: the name of an effect, what a hat compares with its limit, and the
keys of a record that is taken for a colour. These have to be balanced (`targetCode_isClosed`). A
sprite that sets the effect `color(` has a method with an open bracket.
-/

namespace ScratchExport

/-- The menu choice of a block, if it is a text. -/
def Block.chosenText (b : Block) (slot : String) : List String :=
  match Slots.choice b.inputs slot with
  | .ok (.text t) => [t]
  | _ => []

/-- The words of a block itself that go into the source as they stand. -/
def Block.rawWords (b : Block) : List String :=
  (if b.kind.namesEffect then (b.chosenText "EFFECT").map Text.lower else []) ++
    if b.kind.is (.event .whenGreaterThan) then (b.chosenText "WHENGREATERTHANMENU").map Text.upper
    else []

/-- The words of an input itself that go into the source as they stand. -/
def Input.rawWords : Input → List String
  | .plain kind v => if kind == "color" then v.keys else []
  | _ => []

/-- The words of the scripts of a target that go into the source as they stand. -/
def Target.rawWords (t : Target) : List String :=
  t.scripts.flatMap fun s => s.blocks.flatMap fun b =>
    b.withInner.flatMap (·.rawWords) ++ b.innerInputs.flatMap (·.rawWords)

namespace Compile
open Layout
open Outcome (Ensures)

/-! ### Seams -/

namespace Seam
variable {a b m : Seam} {s t : String} {d e : Nat} {f g : Bool}

/-- The lexers that may stand at a seam. -/
def lexers (a : Seam) : List Lexer :=
  ⟨a.depth, .code⟩ :: if a.slash then [⟨a.depth, .slash⟩] else []

/-- The lexer gets from one seam to the other through the text. -/
def Spans (a b : Seam) (s : String) : Prop :=
  ∀ l ∈ a.lexers, ∃ m ∈ b.lexers, l.run s.toList = some m

theorem Spans.append (hs : a.Spans m s) (ht : m.Spans b t) : a.Spans b (s ++ t) := by
  intro l hl
  obtain ⟨k, hk, hrun⟩ := hs l hl
  rw [String.toList_append, Lexer.run_append, hrun]
  exact ht k hk

theorem spans_iff_lexes : Spans ⟨d, false, f⟩ ⟨e, false, g⟩ s ↔ Lexes d e s := by
  simp [Spans, lexers, Lexes]

theorem Hole.spans (h : a.Hole false b) (hs : Lexes 0 0 s) : a.Spans b s := by
  obtain ⟨d, slash, start⟩ := a
  obtain ⟨hslash, -, rfl⟩ := h
  cases hslash
  exact spans_iff_lexes.2 (hs.deeper d)

theorem Hole.spans_balanced (h : a.Hole true b) (hs : IsBalanced s) : a.Spans b s := by
  obtain ⟨d, slash, start⟩ := a
  obtain ⟨hslash, -, rfl⟩ := h
  cases hslash
  obtain ⟨mode, hmode, hrun⟩ := hs
  have hrun := Lexer.run_raise (k := d) hrun
  simp only [Lexer.raise, Nat.zero_add] at hrun
  intro l hl
  rw [List.mem_singleton.1 hl]
  refine ⟨⟨d, mode⟩, ?_, hrun⟩
  simpa [lexers] using hmode

/-- A text that does nothing with a slash in front of it is read in the same way without
the slash. -/
theorem run_code_of_run_slash {l : Lexer} {cs : List Char} {slash : Bool} (hne : cs ≠ [])
    (hrun : (⟨d, .slash⟩ : Lexer).run cs = some l) (hmarks : Marks.run true cs = some slash) :
    (⟨d, .code⟩ : Lexer).run cs = some l := by
  obtain ⟨c, rest, rfl⟩ := List.exists_cons_of_ne_nil hne
  rw [Lexer.run_cons, Option.bind_eq_some_iff] at hrun
  obtain ⟨next, hnext, hrest⟩ := hrun
  rw [Marks.run_cons, Option.bind_eq_some_iff] at hmarks
  obtain ⟨_, hmark, -⟩ := hmarks
  unfold Marks.next at hmark
  unfold Lexer.next at hnext
  dsimp only at hnext
  split_ifs at hnext with hslash hstar
  · rw [hstar] at hmark
    cases hmark
  · rw [Lexer.run_cons, Lexer.next, hnext]
    exact hrest

theorem lexer_mem_lexers (a : Seam) : a.lexer ∈ a.lexers := by
  unfold lexer lexers
  cases a.slash <;> simp

theorem spans_of_run (hrun : a.lexer.run s.toList = some b.lexer)
    (hmarks : Marks.run a.slash s.toList = some b.slash) : a.Spans b s := by
  obtain ⟨d, slash, start⟩ := a
  cases slash with
  | false =>
    intro l hl
    rw [List.mem_singleton.1 hl]
    exact ⟨_, b.lexer_mem_lexers, hrun⟩
  | true =>
    intro l hl
    simp only [lexers, ↓reduceIte, List.mem_cons, List.not_mem_nil, or_false] at hl
    rcases hl with rfl | rfl
    · by_cases hs : s.toList = []
      · rw [hs] at hrun ⊢
        have hdepth : b.depth = d := congrArg Lexer.depth (Option.some.inj hrun).symm
        exact ⟨_, by simp [lexers, hdepth], rfl⟩
      · exact ⟨_, b.lexer_mem_lexers, run_code_of_run_slash hs hrun hmarks⟩
    · exact ⟨_, b.lexer_mem_lexers, hrun⟩

theorem Reads.spans {warp : Bool} (h : a.Reads warp b s) : a.Spans b s := by
  rcases h.code with ⟨hrun, hmarks⟩ | ⟨rfl, ha, hb, hdepth⟩
  · exact spans_of_run hrun hmarks
  · obtain ⟨d, slash, start⟩ := a
    obtain ⟨e, slash', start'⟩ := b
    cases ha
    cases hb
    cases hdepth
    have hcomment : Lexes 0 0 noUsername := rfl
    exact spans_iff_lexes.2 (hcomment.deeper d)

end Seam

/-! ### Plans -/

variable {ctx : Context} {slots : Slots} {kind : BlockKind}

/-- Source that the lexer gets through. -/
abbrev Fragment.Lexes (f : Fragment) : Prop :=
  Layout.Lexes 0 0 f.source

theorem Readers.source_lexes {readers : Readers} (hreaders : readers.All (Ensures · Fragment.Lexes))
    (slot : String) (shape : Shape) (locals : Name.Space) :
    Ensures (readers.source slot shape locals).result (Lexes 0 0) :=
  sourceLaw_lexes.readers_source hreaders (lexes_literalFragment .null) slot shape locals

/-- What the words of the author have to satisfy in a block. -/
structure Guards (ctx : Context) (slots : Slots) (effects : Bool) : Prop where
  names : ∀ s, IsName ctx s → Lexes 0 0 s
  effect : effects = true → ∀ s, IsEffect slots s → IsBalanced s
  keys : ∀ x ∈ innerSlots slots, ∀ word ∈ x.rawWords, IsBalanced word

theorem lexes_placeholderSource (label : String) : Lexes 0 0 (Plan.placeholderSource label) :=
  lexes_comment rfl (by decide) label

theorem lexes_missingSource {what : String} (h : what ∈ missingWords) (spoken : String) :
    Lexes 0 0 (Plan.missingSource what spoken) := by
  refine lexes_comment ?_ (by decide) (Text.literal spoken)
  simp only [missingWords, List.mem_cons, List.not_mem_nil, or_false] at h
  rcases h with rfl | rfl | rfl | rfl <;> decide

/-- A block becomes source that the lexer gets through, if the words that it takes as they stand are
balanced. -/
theorem planLaw_lexes (h : Guards ctx slots kind.namesEffect) :
    PlanLaw ctx kind slots (Lexes 0 0) Seam.Spans where
  source := sourceLaw_lexes
  empty := .empty 0
  null := lexes_literalFragment .null
  name := h.names
  literal s _ := lexes_literal s
  number := lexes_numberLiteral
  color slot v hv :=
    lexes_colorSource (h.keys _ (mem_innerSlots (Assoc.mem_of_lookup hv) (Input.mem_withInner _)))
  text hread := hread.spans
  hole hhole hs := hhole.spans hs
  effect hkind heffect hhole := hhole.spans_balanced (h.effect hkind _ heffect)
  append := .append
  whole := Seam.spans_iff_lexes.1
  menu := lexes_literalFragment _
  placeholder label _ := lexes_placeholderSource label
  missing what hwhat name _ := fun spoken _ => lexes_missingSource hwhat spoken
  stray source hsource := by rcases hsource with rfl | rfl <;> rfl

/-! ### Blocks -/

theorem isName_lexes (hidentifiers : ∀ s ∈ ctx.names.identifiers, Name.IsIdentifier s) {s : String}
    (h : IsName ctx s) : Lexes 0 0 s := by
  rcases h.isIdentifier hidentifiers with h | rfl
  · exact lexes_identifier h
  · exact .empty 0

theorem mem_rawWords_of_isEffect {kind : BlockKind} {id s : String}
    (hkind : kind.namesEffect = true) (h : IsEffect slots s) :
    s ∈ (Block.mk kind slots id).rawWords := by
  obtain ⟨t, hchoice, rfl⟩ := h
  have hchosen : (Block.mk kind slots id).chosenText "EFFECT" = [t] := by
    unfold Block.chosenText
    rw [show Slots.choice (Block.mk kind slots id).inputs "EFFECT" = .ok (.text t) from hchoice]
  unfold Block.rawWords
  rw [show (Block.mk kind slots id).kind.namesEffect = true from hkind, if_pos rfl, hchosen]
  exact List.mem_append_left _ (List.mem_singleton_self _)

theorem steps_lexes (hctx : ctx.Named) (hnames : ∀ s, IsName ctx s → Lexes 0 0 s) :
    Steps ctx (fun b => ∀ word ∈ b.rawWords, IsBalanced word)
      (fun x => ∀ word ∈ x.rawWords, IsBalanced word)
      (Ensures · Fragment.Lexes) where
  ofLiteral _ v _ _ desired := lexes_literalFragment v desired
  ofColor v hv := .bind fun s hs => .pure (lexes_colorSource hv s hs)
  ofStack bs hbs locals :=
    .bind fun sources h =>
      .pure (lexes_joinStatements (sourceLaw_lexes.stackSources hbs locals sources h))
  ofBlock b hb hinner hreaders := by
    obtain ⟨kind, inputs, id⟩ := b
    have hguards : Guards ctx inputs kind.namesEffect :=
      ⟨hnames, fun hkind s hs => hb s (mem_rawWords_of_isEffect hkind hs), hinner⟩
    exact (planLaw_lexes hguards).block hctx hreaders id

/-- What the texts of an author have to satisfy in a context. -/
structure Context.Guarded (ctx : Context) : Prop where
  named : ctx.Named
  names : ∀ s, IsName ctx s → Lexes 0 0 s
  words : ∀ b ∈ ctx.script.blocks, ∀ c ∈ b.withInner, ∀ word ∈ c.rawWords, IsBalanced word
  keys : ∀ b ∈ ctx.script.blocks, ∀ x ∈ b.innerInputs, ∀ word ∈ x.rawWords, IsBalanced word

namespace Context.Guarded

theorem steps (h : ctx.Guarded) : Steps ctx (fun b => ∀ word ∈ b.rawWords, IsBalanced word)
    (fun x => ∀ word ∈ x.rawWords, IsBalanced word) (Ensures · Fragment.Lexes) :=
  steps_lexes h.named h.names

theorem meets (h : ctx.Guarded) {b : Block} (hb : b ∈ ctx.script.blocks) :
    Steps.Meets (fun c => ∀ word ∈ c.rawWords, IsBalanced word)
      (fun x => ∀ word ∈ x.rawWords, IsBalanced word)
      b.innerInputs := by
  refine fun x hx => ⟨h.keys b hb x hx, fun c hc => h.words b hb c ?_⟩
  exact List.mem_cons_of_mem _ (List.mem_flatMap.2 ⟨x, hx, hc⟩)

theorem blockFragment (h : ctx.Guarded) {b : Block} (hb : b ∈ ctx.script.blocks) :
    (blockFragment ctx b).All (Ensures · Fragment.Lexes) :=
  h.steps.block b (h.words b hb b (List.mem_cons_self ..)) (h.meets hb)

theorem inputs (h : ctx.Guarded) {b : Block} (hb : b ∈ ctx.script.blocks) :
    (Compile.readers ctx b.inputs).All (Ensures · Fragment.Lexes) := by
  obtain ⟨kind, inputs, id⟩ := b
  exact h.steps.slots inputs (h.meets hb)

theorem methodName (h : ctx.Guarded) : Lexes 0 0 ctx.methodName :=
  h.names _ (scriptName_isName h.named ctx.scriptIndex ctx.warp)

end Context.Guarded

/-! ### Methods and triggers -/

theorem params_isName (hctx : ctx.Named) : ∀ s ∈ ctx.params.map (·.2), IsName ctx s := by
  intro s hs
  refine .identifier (mem_identifiers hctx.target ?_)
  exact List.mem_append_right _ (List.mem_flatMap.2 ⟨ctx.params, hctx.params, hs⟩)

theorem lexes_render {m : Method} (hname : Lexes 0 0 m.name) (hparams : ∀ s ∈ m.params, Lexes 0 0 s)
    (hbody : Lexes 0 0 m.body) : Lexes 0 0 m.render := by
  have hstar : Lexes 0 0 (if m.generator then "*" else "") := by split_ifs <;> rfl
  have hopen : Lexes 0 1 "(" := rfl
  have hbrace : Lexes 1 1 ") \x7b\n" := rfl
  have hclose : Lexes 1 0 "\n\x7d" := rfl
  have hhead := ((hstar.append hname).append hopen).append ((Lexes.intercalate hparams).deeper 1)
  exact ((hhead.append hbrace).append (hbody.deeper 1)).append hclose

theorem lexes_triggerSource {parts : String} (hname : Lexes 0 0 ctx.methodName)
    (hparts : Lexes 0 0 parts) : Lexes 0 0 (triggerSource ctx parts) := by
  have hopen : Lexes 0 1 "new Trigger(Trigger." := rfl
  have hcomma : Lexes 1 1 ", this." := rfl
  have hclose : Lexes 1 0 ")" := rfl
  exact (((hopen.append (hparts.deeper 1)).append hcomma).append (hname.deeper 1)).append hclose

theorem slotSource_lexes {b : Block}
    (hreaders : (Compile.readers ctx b.inputs).All (Ensures · Fragment.Lexes)) (slot : String)
    (shape : Shape) : Ensures (slotSource ctx b slot shape).result (Lexes 0 0) :=
  Readers.source_lexes hreaders slot shape ctx.locals

theorem greaterThanTrigger_lexes {hat : Block} (hkind : hat.kind = .known (.event .whenGreaterThan))
    (hwords : ∀ word ∈ hat.rawWords, IsBalanced word)
    (hreaders : (Compile.readers ctx hat.inputs).All (Ensures · Fragment.Lexes))
    (hname : Lexes 0 0 ctx.methodName) :
    Ensures (greaterThanTrigger ctx hat).result (Lexes 0 0) := by
  unfold greaterThanTrigger
  simp only [Noted.result_bind, Noted.result_lift, Noted.result_pure]
  refine .bind fun choice hchoice => .bind fun t ht => .bind fun value hvalue =>
    .pure (lexes_triggerSource hname ?_)
  have hmenu : IsBalanced (if (Text.upper t).isEmpty then "TIMER" else Text.upper t) := by
    split_ifs
    · decide
    · refine hwords _ ?_
      cases choice with
      | text s =>
        cases ht
        unfold Block.rawWords Block.chosenText
        rw [hchoice, hkind]
        exact List.mem_append_right _ (List.mem_singleton_self _)
      | _ => cases ht
  have hvalue := slotSource_lexes hreaders "VALUE" .number value hvalue
  have hvalue :
      Lexes 0 0 (if ((hat.input? "VALUE").map (·.isBlock)).getD false then "() => " ++
      value else value) := by
    have harrow : Lexes 0 0 "() => " := rfl
    split_ifs
    · exact harrow.append hvalue
    · exact hvalue
  have hclose : Lexes 1 0 " \x7d" := rfl
  have hmenu : Lexes 0 1 (_ ++ "_GREATER_THAN, \x7b VALUE: ") := hmenu.append rfl rfl
  exact (hmenu.append (hvalue.deeper 1)).append hclose

theorem hatTrigger_lexes {hat : Block} (hwords : ∀ word ∈ hat.rawWords, IsBalanced word)
    (hreaders : (Compile.readers ctx hat.inputs).All (Ensures · Fragment.Lexes))
    (hname : Lexes 0 0 ctx.methodName) :
    Ensures (hatTrigger ctx hat).result fun trigger => ∀ t, trigger = some t → Lexes 0 0 t := by
  have hfixed {parts : String} (hparts : Lexes 0 0 parts) :
      Ensures (pure (some (triggerSource ctx parts)) : Noted (Option String)).result
        fun trigger => ∀ t, trigger = some t → Lexes 0 0 t :=
    .ok fun t ht => Option.some.inj ht ▸ lexes_triggerSource hname hparts
  unfold hatTrigger
  split
  · exact .ok nofun
  · exact hfixed rfl
  · rw [Noted.result_bind]
    refine .bind fun key hkey => hfixed ?_
    exact .between (d := 1) rfl (slotSource_lexes hreaders "KEY_OPTION" .string key hkey) rfl
  · exact hfixed rfl
  · exact hfixed rfl
  · rw [Noted.result_bind]
    exact .bind fun message _ => hfixed (.between (d := 1) rfl (valueLaw_lexes.ofJson message) rfl)
  · rw [Noted.result_bind]
    exact .bind fun backdrop _ =>
      hfixed (.between (d := 1) rfl (valueLaw_lexes.ofJson backdrop) rfl)
  · next hkind =>
    rw [Noted.result_bind]
    refine .bind fun t ht => .pure ?_
    rintro _ ⟨⟩
    exact greaterThanTrigger_lexes hkind hwords hreaders hname t ht
  · exact hfixed rfl
  · rw [Noted.result_bind]
    exact .bind fun _ _ => .pure nofun

theorem body_subset (s : Script) : s.body ⊆ s.blocks := by
  unfold Script.body
  split_ifs
  · exact List.drop_subset 1 s.blocks
  · exact List.Subset.refl _

theorem hat?_mem {s : Script} {hat : Block} (h : s.hat? = some hat) : hat ∈ s.blocks :=
  List.mem_of_mem_head? (Option.filter_eq_some_iff.1 h).1

theorem compile_lexes (h : ctx.Guarded) :
    Ensures (Method.compile ctx).result (Lexes 0 0 ·.render) := by
  unfold Method.compile stackSource
  simp only [Noted.result_bind, Noted.result_pure]
  refine .bind fun body hbody => .pure (lexes_render h.methodName ?_ ?_)
  · exact fun s hs => h.names s (params_isName h.named s hs)
  · obtain ⟨sources, hsources, hbody⟩ := Outcome.bind_eq_ok.1 hbody
    cases hbody
    refine lexes_joinStatements (sourceLaw_lexes.stackSources (fun b hb =>
      ?_) ctx.locals sources hsources)
    exact h.blockFragment (body_subset ctx.script hb)

theorem trigger_lexes (h : ctx.Guarded) :
    Ensures (trigger ctx).result fun trigger => ∀ t, trigger = some t → Lexes 0 0 t := by
  unfold trigger
  split
  · next hat hhat =>
    have hhat := hat?_mem hhat
    exact hatTrigger_lexes (h.words hat hhat hat (List.mem_cons_self ..))
      (h.inputs hhat) h.methodName
  · exact .ok nofun

/-! ### Targets -/

section
variable {project : Project} {names : Name.Table} {targetIndex scriptIndex : Nat}
  {code : TargetCode}

theorem scriptsCode_triggers {indices : List Nat}
    (h : (scriptsCode project names targetIndex indices).result = .ok code) :
    ∀ t ∈ code.triggers, ∃ i ∈ indices, ∃ ctx ∈ scriptContexts project names targetIndex i,
      (trigger ctx).result = .ok (some t) := by
  induction indices generalizing code with
  | nil => cases h; exact nofun
  | cons i rest ih =>
    simp only [scriptsCode, Noted.result_bind, Outcome.bind_eq_ok, Noted.result_pure,
      Except.ok.injEq] at h
    obtain ⟨first, hfirst, others, hothers, rfl⟩ := h
    intro t ht
    rcases List.mem_append.1 ht with ht | ht
    · refine ⟨i, List.mem_cons_self .., ?_⟩
      simp only [scriptCode, Noted.result_bind, Noted.result_lift, Outcome.bind_eq_ok] at hfirst
      obtain ⟨base, hbase, method, -, trigger, htrigger, hfirst⟩ := hfirst
      have htriggers : first.triggers = trigger.toList := by
        split at hfirst
        · simp only [Noted.result_bind, Outcome.bind_eq_ok, Noted.result_pure,
            Except.ok.injEq] at hfirst
          obtain ⟨_, -, rfl⟩ := hfirst
          rfl
        · cases hfirst
          rfl
      rw [htriggers, Option.mem_toList] at ht
      rw [ht] at htrigger
      refine ⟨_, ?_, htrigger⟩
      rw [scriptContexts, hbase]
      exact List.mem_cons_self ..
    · obtain ⟨j, hj, hctx⟩ := ih hothers t ht
      exact ⟨j, List.mem_cons_of_mem _ hj, hctx⟩

/-- The triggers of a target are those of its contexts. -/
theorem targetCode_triggers (h : (targetCode project names targetIndex).result = .ok code) :
    ∀ t ∈ code.triggers, ∃ ctx ∈ targetContexts project names targetIndex,
    (trigger ctx).result = .ok (some t) := by
  intro t ht
  cases htarget : project.targets[targetIndex]? with
  | none =>
    rw [targetCode, htarget] at h
    cases h
  | some target =>
    rw [targetCode, htarget] at h
    simp only [Noted.result_bind, Outcome.bind_eq_ok, Noted.result_note, Noted.result_pure,
      Except.ok.injEq] at h
    obtain ⟨code', hcode, -, -, rfl⟩ := h
    obtain ⟨i, hi, ctx, hctx, htrigger⟩ := scriptsCode_triggers hcode t ht
    exact ⟨ctx, mem_targetContexts.2 ⟨target, htarget, i, List.mem_range.1 hi, hctx⟩, htrigger⟩

theorem guarded_of_mem {target : Target} (hnames : Name.assign project = .ok names)
    (htarget : project.targets[targetIndex]? = some target)
    (hwords : ∀ word ∈ target.rawWords, IsBalanced word)
    (hctx : ctx ∈ targetContexts project names targetIndex) : ctx.Guarded := by
  obtain ⟨i, base, -, hbase, heq⟩ := exists_base_of_mem hctx
  obtain ⟨htarget', -, hscript, -, -⟩ := Context.make_eq_ok hbase
  cases htarget.symm.trans htarget'
  have hnamed := Context.named_of_make hbase
  have hmem {b : Block} (hb : b ∈ base.script.blocks) {word : String}
      (hword : word ∈ b.withInner.flatMap (·.rawWords) ++ b.innerInputs.flatMap (·.rawWords)) :
        IsBalanced word := by
    refine hwords word (List.mem_flatMap.2 ⟨base.script, List.mem_of_getElem? hscript, ?_⟩)
    exact List.mem_flatMap.2 ⟨b, hb, hword⟩
  rw [heq]
  refine ⟨⟨hnamed.target, hnamed.params⟩, fun s hs => isName_lexes (fun s hs => ?_) hs, ?_, ?_⟩
  · have htable : base.names = names := (Context.make_eq_ok_fields hbase).1
    exact Name.Table.isIdentifier_of_mem hnames (htable ▸ hs)
  · intro b hb c hc word hword
    exact hmem hb (List.mem_append_left _ (List.mem_flatMap.2 ⟨c, hc, hword⟩))
  · intro b hb x hx word hword
    exact hmem hb (List.mem_append_right _ (List.mem_flatMap.2 ⟨x, hx, hword⟩))

/-- Every method and every trigger of a target is lexically closed, whatever the texts of the
project are, if the words that are taken as they stand are balanced. -/
theorem targetCode_isClosed (project : Project) (names : Name.Table)
    (hnames : Name.assign project = .ok names) (targetIndex : Nat) (target : Target)
    (htarget : project.targets[targetIndex]? = some target)
    (hwords : ∀ word ∈ target.rawWords, IsBalanced word) (code : TargetCode)
    (hcode : (targetCode project names targetIndex).result = .ok code) :
    (∀ m ∈ code.methods, IsClosed m.render) ∧ ∀ t ∈ code.triggers, IsClosed t := by
  constructor
  · intro m hm
    obtain ⟨ctx, hpair⟩ := exists_mem_zip (targetCode_methods hcode).flip hm
    have hcompile : (Method.compile ctx).result = .ok m :=
      List.forall₂_zip (targetCode_methods hcode).flip hpair
    have hctx : ctx ∈ targetContexts project names targetIndex := (List.of_mem_zip hpair).2
    exact (compile_lexes (guarded_of_mem hnames htarget hwords hctx) m hcompile).isClosed
  · intro t ht
    obtain ⟨ctx, hctx, htrigger⟩ := targetCode_triggers hcode t ht
    exact (trigger_lexes (guarded_of_mem hnames htarget hwords hctx)
      (some t) htrigger t rfl).isClosed

/-- Texts that look like code in every place but the name of an effect, which is given. -/
def hostileProject (effect : String) : Project where
  stage := { name := .text "Stage" }
  sprites := [{ name := .text "\"\x7d */", scripts := [⟨[
    .mk (.known (.event .whenGreaterThan))
      [("WHENGREATERTHANMENU", .plain "string" (.text "loudness")),
        ("VALUE", .plain "number" (.text "\");//"))] "a",
    .mk (.known (.looks .setEffectTo))
      [("EFFECT", .plain "graphicEffect" (.text effect)), ("VALUE", .plain "number" (.int 1))] "b",
    .mk (.unknown (.text "*/ ) \x7d")) [] "c",
    .mk (.known (.looks .say)) [("MESSAGE", .plain "string" (.text "\\\"); //\n"))] "d"],
    .text "(\x60", .int 0, .int 0⟩] }]

theorem hostileProject_isClosed :
    ∃ names code target, Name.assign (hostileProject "Fish[/* eye */]/") = .ok names ∧
    (hostileProject "Fish[/* eye */]/").targets[1]? = some target ∧
    (∀ word ∈ target.rawWords, IsBalanced word) ∧
    (targetCode (hostileProject "Fish[/* eye */]/") names 1).result = .ok code ∧ code.methods ≠ [] ∧
    code.triggers ≠ [] ∧
    (∀ m ∈ code.methods, IsClosed m.render) ∧ ∀ t ∈ code.triggers, IsClosed t := by
  have hrun : (do
      let names ← Name.assign (hostileProject "Fish[/* eye */]/")
      let code ← (targetCode (hostileProject "Fish[/* eye */]/") names 1).result
      return (code.methods.length, code.triggers.length)).toOption = some (1, 1) := by
      decide +kernel
  obtain ⟨names, hnames, hrun⟩ := Outcome.bind_eq_ok.1 (Outcome.toOption_eq_some.1 hrun)
  obtain ⟨code, hcode, hrun⟩ := Outcome.bind_eq_ok.1 hrun
  have hlength := Outcome.pure_eq_ok.1 hrun
  have hwords : ∀ t, (hostileProject "Fish[/* eye */]/").targets[1]? = some t →
      ∀ word ∈ t.rawWords, IsBalanced word := by
    rintro _ ⟨⟩
    decide +kernel
  refine ⟨names, code, _, hnames, rfl, hwords _ rfl, hcode, ?_, ?_, ?_⟩
  · rw [← List.length_pos_iff, (Prod.mk.inj hlength).1]
    decide
  · rw [← List.length_pos_iff, (Prod.mk.inj hlength).2]
    decide
  · exact targetCode_isClosed _ names hnames 1 _ rfl (hwords _ rfl) code hcode

/-- An effect that opens a bracket leaves the method open. -/
theorem openEffect_not_isClosed : ∃ names code, Name.assign (hostileProject "color(") = .ok names ∧
    (targetCode (hostileProject "color(") names 1).result = .ok code ∧ ∃ m ∈ code.methods,
    ¬ IsClosed m.render := by
  have hrun : (do
      let names ← Name.assign (hostileProject "color(")
      let code ← (targetCode (hostileProject "color(") names 1).result
      return code.methods.any fun m => !decide (IsClosed m.render)).toOption = some true := by
      decide +kernel
  obtain ⟨names, hnames, hrun⟩ := Outcome.bind_eq_ok.1 (Outcome.toOption_eq_some.1 hrun)
  obtain ⟨code, hcode, hrun⟩ := Outcome.bind_eq_ok.1 hrun
  have hopen := Outcome.pure_eq_ok.1 hrun
  refine ⟨names, code, hnames, hcode, ?_⟩
  simpa using hopen

end

end Compile

end ScratchExport
