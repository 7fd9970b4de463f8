import ScratchExport.Proofs.CallProtocol
import ScratchExport.Proofs.Placement

/-!
# Calls in the bodies of methods

Every method of a target has in its body the calls that its script makes, each as the protocol asks
for: what a call compiles to in the context of the method follows the protocol, and this is what
stands in the body, neither as a part of a longer word nor behind a `yield*` that is not its own.
-/

namespace ScratchExport.Compile

theorem of_leavesGap {before : List Char} (h : leavesGap true before = true) :
    ¬ "yield* ".toList <:+ before ∧ ∀ c ∈ before.getLast?, Name.isIdentifierTail c = false := by
  have hends (hne : before ≠ []) : endsInGap before.reverse = true := by
    unfold leavesGap at h
    rwa [if_neg (by simpa using hne)] at h
  constructor
  · rintro ⟨rest, rfl⟩
    have hgap := hends (by simp)
    rw [List.reverse_append] at hgap
    cases hgap
  · intro c hc
    obtain ⟨rest, rfl⟩ := List.getLast?_eq_some_iff.1 hc
    have hgap := hends (by simp)
    rw [List.reverse_append] at hgap
    simp only [List.reverse_singleton, List.singleton_append, endsInGap, Bool.and_eq_true] at hgap
    simpa using hgap.1

/-- In every method of a target, a call of a procedure of the target is a plain call of a plain
method, or a call with `yield*` of a generator inside a generator; the runtime's `warp` is never
needed to get through a generator at once, and a plain method never calls a generator. That holds of
whatever such a call of the method's script compiles to in the context of the method, and each one
that is compiled on the way to the method stands in its body, where no word and no other `yield* `
runs into it. -/
theorem calls_follow_protocol (project : Project) (names : Name.Table)
    (hnames : Name.assign project = .ok names) (targetIndex : Nat) (code : TargetCode)
    (hcode : (targetCode project names targetIndex).result = .ok code) :
    List.Forall₂ (fun ctx m => (Method.compile ctx).result = .ok m)
      (targetContexts project names targetIndex) code.methods ∧
    ∀ ctx caller, (ctx, caller) ∈ (targetContexts project names targetIndex).zip code.methods →
      ∀ b ∈ nestedStack ctx.script.body, b.kind = .known (.procedure .call) →
      b.literal "PROCCODE" .null ≠ .null →
      ∀ j, ctx.target.findProcedure (b.literal "PROCCODE" .null) = some j →
      (∀ desired locals f, (blockFragment ctx b desired locals).result = .ok f →
        FollowsProtocol ((targetContexts project names targetIndex).zip code.methods) caller j
          f.source) ∧
      ∀ root ∈ ctx.script.body, ∀ desired locals,
        CompiledAs ctx root .stack ctx.locals b desired locals →
        ∃ f before after, (blockFragment ctx b desired locals).result = .ok f ∧
          caller.body.toList = before ++ f.source.toList ++ after ∧
          ¬ "yield* ".toList <:+ before ∧
          (∀ c ∈ before.getLast?, Name.isIdentifierTail c = false) ∧
          FollowsProtocol ((targetContexts project names targetIndex).zip code.methods) caller j
            f.source := by
  have hmethods := targetCode_methods hcode
  refine ⟨hmethods, fun ctx caller hpair b hb hcall hliteral j hfind => ⟨?_, ?_⟩⟩
  · intro desired locals f hf
    exact call_followsProtocol hnames hmethods hpair hb hcall hliteral hfind hf
  · intro root hroot desired locals hcompiled
    obtain ⟨f, hf, before, after, hbody, hgap⟩ :=
      Method.body_stands (List.forall₂_zip hmethods hpair) hroot hcompiled
    obtain ⟨hyield, hword⟩ := of_leavesGap hgap
    exact ⟨f, before, after, hf, hbody, hyield, hword,
      call_followsProtocol hnames hmethods hpair hb hcall hliteral hfind hf⟩

theorem clashingProject_calls_follow_protocol : ∃ names code ctx caller b f before after,
    Name.assign Name.clashingProject = .ok names ∧
    (targetCode Name.clashingProject names 1).result = .ok code ∧
    (ctx, caller) ∈ (targetContexts Name.clashingProject names 1).zip code.methods ∧
    b ∈ ctx.script.body ∧ b ∈ nestedStack ctx.script.body ∧ b.kind = .known (.procedure .call) ∧
    b.literal "PROCCODE" .null ≠ .null ∧
    ctx.target.findProcedure (b.literal "PROCCODE" .null) = some 1 ∧
    (blockFragment ctx b .stack ctx.locals).result = .ok f ∧
    caller.body.toList = before ++ f.source.toList ++ after ∧ ¬ "yield* ".toList <:+ before ∧
    FollowsProtocol ((targetContexts Name.clashingProject names 1).zip code.methods) caller 1
      f.source := by
  obtain ⟨names, hnames⟩ : ∃ names, Name.assign Name.clashingProject = .ok names := ⟨_, rfl⟩
  obtain ⟨code, hcode⟩ : ∃ code, (targetCode Name.clashingProject names 1).result = .ok code := by
    cases hnames; exact ⟨_, rfl⟩
  obtain ⟨ctx, caller, b, hpair, hroot, hb, hcall, hliteral, hfind⟩ : ∃ ctx caller b,
      (ctx, caller) ∈ (targetContexts Name.clashingProject names 1).zip code.methods ∧
      b ∈ ctx.script.body ∧ b ∈ nestedStack ctx.script.body ∧ b.kind = .known (.procedure .call) ∧
      b.literal "PROCCODE" .null ≠ .null ∧
      ctx.target.findProcedure (b.literal "PROCCODE" .null) = some 1 := by
    cases hnames; cases hcode
    exact ⟨_, _, _, List.mem_cons_self .., List.mem_cons_self .., List.mem_cons_self .., rfl, nofun,
      rfl⟩
  obtain ⟨f, before, after, hf, hbody, hyield, -, hform⟩ :=
    ((calls_follow_protocol Name.clashingProject names hnames 1 code hcode).2 ctx caller hpair b hb
      hcall hliteral 1 hfind).2 b hroot .stack ctx.locals (.self ..)
  exact ⟨names, code, ctx, caller, b, f, before, after, hnames, hcode, hpair, hroot, hb, hcall,
    hliteral, hfind, hf, hbody, hyield, hform⟩

end ScratchExport.Compile
