import ScratchExport.Proofs.CallProtocol
import ScratchExport.Proofs.Fragments
import ScratchExport.Proofs.WarpPlans

/-!
# Code without screen refresh does not yield

A plain method must not contain `yield`: the word has its meaning in generators only. Every plan
keeps the word out (`planLaw_silent`), and the induction over blocks (`Carried.block`) takes it from
plans to blocks. So the source of a block, of a stack and of every plain method is free of the word
unless an author's text or a name brings it in.
-/

namespace ScratchExport.Compile
open Outcome (Ensures)
open Yield (Passes Quiet)

variable {ctx : Context}

theorem allocate_passes (locals : Name.Space) {candidate : String}
    (h : ∀ c ∈ candidate.toList, c.toLower ≠ 'y') : Passes 0 4 (locals.allocate candidate).1 := by
  refine (Yield.passes_of_no_y ?_).weaken (by decide)
  refine locals.allocate_induction (P := fun name => ∀ c ∈ name.toList, c.toLower ≠ 'y')
    (fun name ih c hc => ?_) h
  rcases Name.mem_nextVariant hc with hc | hc
  · exact ih c hc
  · exact Yield.ne_y_of_numeral (.inl hc)

theorem isName_passes (hidentifiers : Quiet ctx.names.identifiers) {s : String} (h : IsName ctx s) :
    Passes 0 4 s := by
  cases h with
  | identifier h => exact hidentifiers s h
  | counter locals => exact allocate_passes locals (List.all_iff_forall_prop.1 (by decide))
  | limit locals => exact allocate_passes locals (List.all_iff_forall_prop.1 (by decide))
  | absent => decide

theorem carried_silent (hctx : ctx.Named) (hwarp : ctx.warp = true)
    (hidentifiers : Quiet ctx.names.identifiers) : Carried ctx (Passes 0 4) Fragment.Silent where
  literal _ hv desired := literalFragment_silent hv desired
  content _ hinput := Yield.quiet_content hinput
  color _ hv := Yield.passes_colorSource hv
  join fs hfs := by
    refine joinStatements_passes fun s hs => ?_
    obtain ⟨f, hf, rfl⟩ := List.mem_map.1 hs
    exact hfs f hf
  plan kind slots readers htexts hreaders desired locals p hp :=
    (planLaw_silent hwarp (fun _ => isName_passes hidentifiers) hidentifiers htexts).plan hctx
      hreaders hp

theorem blockSource_passes (hcarried : Carried ctx (Passes 0 4) Fragment.Silent) {b : Block}
    (hb : Quiet b.texts) (desired : Shape) :
    Ensures (blockSource ctx b desired).result (Passes 0 4) := by
  rw [blockSource, Noted.result_bind]
  exact .bind fun f hf =>
    .pure (sourceLaw_passes.coerce (hcarried.block b hb desired ctx.locals f hf) _ _)

theorem stackSource_passes (hcarried : Carried ctx (Passes 0 4) Fragment.Silent) {bs : List Block}
    (hbs : Quiet (stackTexts bs)) : Ensures (stackSource ctx bs).result (Passes 0 4) := by
  rw [stackSource, Noted.result_bind]
  refine .bind fun sources hsources => .pure ?_
  obtain ⟨fs, hfs, rfl⟩ := hcarried.stack bs hbs ctx.locals sources hsources
  exact hcarried.join fs hfs

theorem quiet_of_not_mentions {texts : List String} (h : ∀ s ∈ texts, ¬ Yield.Mentions s) :
    Quiet texts :=
  fun s hs => Yield.not_mentions_iff.1 (h s hs)

variable {project : Project} {names : Name.Table} {targetIndex : Nat}

theorem method_body_passes (hidentifiers : Quiet names.identifiers)
    (hctx : ctx ∈ targetContexts project names targetIndex) {m : Method}
    (hm : (Method.compile ctx).result = .ok m) (hgenerator : m.generator = false)
    (hbody : Quiet (stackTexts ctx.script.body)) : Passes 0 4 m.body := by
  obtain ⟨i, base, -, hbase, heq⟩ := exists_base_of_mem hctx
  have hnamed : ctx.Named := by
    have := Context.named_of_make hbase
    rw [heq]
    exact ⟨this.target, this.params⟩
  have hnames : ctx.names = names := by rw [heq]; exact (Context.make_eq_ok_fields hbase).1
  have hwarp : ctx.warp = true := by
    have := (Method.compile_eq_ok hm).2
    rw [hgenerator] at this
    simpa using this.symm
  have hcarried := carried_silent hnamed hwarp (hnames ▸ hidentifiers)
  rw [Method.compile, Noted.result_bind] at hm
  obtain ⟨body, hsource, hm⟩ := Outcome.bind_eq_ok.1 hm
  cases hm
  exact stackSource_passes hcarried hbody body hsource

/-- Without screen refresh `yield` is not written: not in the source of a block, whatever its shape,
not in the source of a script, and not in the body of a plain method. The names of the table and the
texts in the blocks are taken not to mention the word themselves. -/
theorem plain_code_yield_free (project : Project) (names : Name.Table)
    (hnames : ∀ s ∈ names.identifiers, ¬ Yield.Mentions s) (targetIndex : Nat) :
    (∀ scriptIndex ctx, Context.make project names targetIndex scriptIndex true = .ok ctx →
      (∀ b : Block, (∀ s ∈ b.texts, ¬ Yield.Mentions s) → ∀ desired source,
        (blockSource ctx b desired).result = .ok source → ¬ "yield".toList <:+: source.toList) ∧
      ((∀ s ∈ stackTexts ctx.script.body, ¬ Yield.Mentions s) → ∀ source,
        (stackSource ctx ctx.script.body).result = .ok source →
          ¬ "yield".toList <:+: source.toList)) ∧
    ∀ code, (targetCode project names targetIndex).result = .ok code →
      List.Forall₂ (fun ctx m => (Method.compile ctx).result = .ok m ∧
        (m.generator = false → (∀ s ∈ stackTexts ctx.script.body, ¬ Yield.Mentions s) →
          ¬ "yield".toList <:+: m.body.toList))
        (targetContexts project names targetIndex) code.methods := by
  have hidentifiers := quiet_of_not_mentions hnames
  refine ⟨fun scriptIndex ctx hctx => ?_, fun code hcode => ?_⟩
  · obtain ⟨hctxNames, hwarp⟩ := Context.make_eq_ok_fields hctx
    have hcarried := carried_silent (Context.named_of_make hctx) hwarp (hctxNames ▸ hidentifiers)
    refine ⟨fun b hb desired source hsource => ?_, fun hbody source hsource => ?_⟩
    · exact (blockSource_passes hcarried (quiet_of_not_mentions hb) desired source
        hsource).word_absent
    · exact (stackSource_passes hcarried (quiet_of_not_mentions hbody) source hsource).word_absent
  · refine List.forall₂_iff_zip.2 ⟨(targetCode_methods hcode).length_eq, fun {ctx m} hpair => ?_⟩
    have hm := List.forall₂_zip (targetCode_methods hcode) hpair
    refine ⟨hm, fun hgenerator hbody => ?_⟩
    exact (method_body_passes hidentifiers (List.of_mem_zip hpair).1 hm hgenerator
      (quiet_of_not_mentions hbody)).word_absent

/-- A loop that waits in every round: with screen refresh both loops yield. -/
def waitingLoop : Block :=
  .mk (.known (.control .forever))
    [("SUBSTACK", .stack (some [.mk (.known (.control .waitUntil)) [] "b"]))] "a"

theorem waitingLoop_yield_free : ∃ names ctx source code body,
    (∀ s ∈ names.identifiers, ¬ Yield.Mentions s) ∧ (∀ s ∈ waitingLoop.texts, ¬ Yield.Mentions s) ∧
    Context.make Name.clashingProject names 1 1 true = .ok ctx ∧
    (blockSource ctx waitingLoop .stack).result = .ok source ∧ ¬ "yield".toList <:+: source.toList ∧
    (∀ s ∈ stackTexts ctx.script.body, ¬ Yield.Mentions s) ∧
    (stackSource ctx ctx.script.body).result = .ok body ∧ ¬ "yield".toList <:+: body.toList ∧
    (targetCode Name.clashingProject names 1).result = .ok code ∧
    ∃ caller m, (caller, m) ∈ (targetContexts Name.clashingProject names 1).zip code.methods ∧
    m.generator = false ∧
      (∀ s ∈ stackTexts caller.script.body, ¬ Yield.Mentions s) ∧
      ¬ "yield".toList <:+: m.body.toList := by
  obtain ⟨names, hassign, hnames⟩ : ∃ names, Name.assign Name.clashingProject = .ok names ∧
      ∀ s ∈ names.identifiers, ¬ Yield.Mentions s := ⟨_, rfl, by decide +kernel⟩
  obtain ⟨ctx, source, body, hctx, hsource, htexts, hbody⟩ : ∃ ctx source body,
      Context.make Name.clashingProject names 1 1 true = .ok ctx ∧
      (blockSource ctx waitingLoop .stack).result = .ok source ∧
      (∀ s ∈ stackTexts ctx.script.body, ¬ Yield.Mentions s) ∧
      (stackSource ctx ctx.script.body).result = .ok body := by
    cases hassign
    exact ⟨_, _, _, rfl, rfl, by decide +kernel, rfl⟩
  obtain ⟨code, caller, m, hcode, hpair, hgenerator, hcaller⟩ : ∃ code caller m,
      (targetCode Name.clashingProject names 1).result = .ok code ∧
      (caller, m) ∈ (targetContexts Name.clashingProject names 1).zip code.methods ∧
      m.generator = false ∧
      ∀ s ∈ stackTexts caller.script.body, ¬ Yield.Mentions s := by
    cases hassign
    exact ⟨_, _, _, rfl, List.mem_cons_self .., rfl, by decide +kernel⟩
  have hloop : ∀ s ∈ waitingLoop.texts, ¬ Yield.Mentions s := by decide +kernel
  obtain ⟨hsources, hmethods⟩ := plain_code_yield_free Name.clashingProject names hnames 1
  obtain ⟨hblock, hscript⟩ := hsources 1 ctx hctx
  have hfree := (List.forall₂_zip (hmethods code hcode) hpair).2 hgenerator hcaller
  exact ⟨names, ctx, source, code, body, hnames, hloop, hctx, hsource,
    hblock waitingLoop hloop .stack source hsource,
    htexts, hbody, hscript htexts body hbody, hcode, caller, m, hpair, hgenerator, hcaller, hfree⟩

end ScratchExport.Compile
