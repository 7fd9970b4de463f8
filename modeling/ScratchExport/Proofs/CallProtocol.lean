import ScratchExport.Proofs.NameTable
import ScratchExport.Proofs.Render

/-!
# How generated methods call each other

A plain method runs to its end when it is called; a generator has to be yielded to, which only a
generator can do. `targetContexts` lists the contexts that the methods of a target are compiled in,
in the order of the methods. In each of them a call takes one of two forms (`IsCall`): plain, of a
plain method of the callee, or with `yield*`, of a generator of the callee and from a generator
(`call_followsProtocol`).

What makes it so is that the scripts compiled without screen refresh are closed under calls: they
are the procedures that ask for it and what `warpReachable` finds (`Target.warpReachable_closed`),
and exactly the latter have a second method. A call from such a script therefore always finds a
plain method of the callee.
-/

namespace ScratchExport

namespace Compile

/-- The contexts of the methods of a script: of its own method, and of the second one if it
has one. -/
def scriptContexts (project : Project) (names : Name.Table) (targetIndex scriptIndex : Nat) :
    List Context :=
  match Context.make project names targetIndex scriptIndex false with
  | .error _ => []
  | .ok ctx => { ctx with warp := ctx.script.isWarp } ::
      if (ctx.targetNames.warpVariants.lookup scriptIndex).isSome then
      [{ ctx with warp := true }] else []

/-- The contexts of the methods of a target, in order. -/
def targetContexts (project : Project) (names : Name.Table) (targetIndex : Nat) : List Context :=
  match project.targets[targetIndex]? with
  | none => []
  | some target =>
    (List.range target.scripts.length).flatMap (scriptContexts project names targetIndex)

variable {project : Project} {names : Name.Table} {targetIndex scriptIndex : Nat}

theorem scriptCode_methods {code : TargetCode}
    (h : (scriptCode project names targetIndex scriptIndex).result = .ok code) :
    List.Forall₂ (fun ctx m => (Method.compile ctx).result = .ok m)
      (scriptContexts project names targetIndex scriptIndex) code.methods := by
  simp only [scriptCode, Noted.result_bind, Noted.result_lift, Outcome.bind_eq_ok] at h
  obtain ⟨ctx, hctx, method, hmethod, trigger, -, h⟩ := h
  rw [scriptContexts, hctx]
  split at h
  · rename_i hvariant
    simp only [Noted.result_bind, Outcome.bind_eq_ok, Noted.result_pure, Except.ok.injEq] at h
    obtain ⟨variant, hcompile, rfl⟩ := h
    simp only [hvariant, ↓reduceIte]
    exact .cons hmethod (.cons hcompile .nil)
  · rename_i hvariant
    simp only [Noted.result_pure, Except.ok.injEq] at h
    subst h
    simp only [hvariant]
    exact .cons hmethod .nil

theorem scriptsCode_methods {indices : List Nat} {code : TargetCode}
    (h : (scriptsCode project names targetIndex indices).result = .ok code) :
    List.Forall₂ (fun ctx m => (Method.compile ctx).result = .ok m)
      (indices.flatMap (scriptContexts project names targetIndex)) code.methods := by
  induction indices generalizing code with
  | nil => cases h; exact .nil
  | cons i rest ih =>
    simp only [scriptsCode, Noted.result_bind, Outcome.bind_eq_ok, Noted.result_pure,
      Except.ok.injEq] at h
    obtain ⟨first, hfirst, others, hothers, rfl⟩ := h
    rw [List.flatMap_cons]
    exact List.rel_append (scriptCode_methods hfirst) (ih hothers)

theorem targetCode_methods {code : TargetCode}
    (h : (targetCode project names targetIndex).result = .ok code) :
    List.Forall₂ (fun ctx m => (Method.compile ctx).result = .ok m)
      (targetContexts project names targetIndex) code.methods := by
  cases htarget : project.targets[targetIndex]? with
  | none =>
    rw [targetCode, htarget] at h
    cases h
  | some target =>
    rw [targetCode, htarget] at h
    simp only [Noted.result_bind, Outcome.bind_eq_ok, Noted.result_note, Noted.result_pure,
      Except.ok.injEq] at h
    obtain ⟨code', hcode, -, -, rfl⟩ := h
    rw [targetContexts, htarget]
    exact scriptsCode_methods hcode

theorem Method.compile_eq_ok {ctx : Context} {m : Method}
    (h : (Method.compile ctx).result = .ok m) :
    m.name = ctx.methodName ∧ m.generator = !ctx.warp := by
  simp only [Method.compile, Noted.result_bind, Outcome.bind_eq_ok, Noted.result_pure,
    Except.ok.injEq] at h
  obtain ⟨body, -, rfl⟩ := h
  exact ⟨rfl, rfl⟩

/-! ### Contexts -/

/-- A method is compiled in the context of its script, without screen refresh if the script asks for
it or if it is the second method. -/
theorem mem_scriptContexts {ctx : Context}
    (h : ctx ∈ scriptContexts project names targetIndex scriptIndex) :
    ∃ base, Context.make project names targetIndex scriptIndex false = .ok base ∧
      (ctx = { base with warp := base.script.isWarp } ∨
        (base.targetNames.warpVariants.lookup scriptIndex).isSome = true ∧
        ctx = { base with warp := true }) := by
  unfold scriptContexts at h
  split at h
  · simp at h
  · rename_i base hbase
    refine ⟨base, hbase, ?_⟩
    rcases List.mem_cons.1 h with rfl | h
    · exact .inl rfl
    · split at h
      · exact .inr ⟨‹_›, List.mem_singleton.1 h⟩
      · simp at h

theorem mem_targetContexts {ctx : Context} : ctx ∈ targetContexts project names targetIndex ↔
    ∃ target, project.targets[targetIndex]? = some target ∧ ∃ i < target.scripts.length,
      ctx ∈ scriptContexts project names targetIndex i := by
  unfold targetContexts
  split
  · simp_all
  · simp_all

/-! ### Names of methods -/

end Compile

namespace Name
variable {members : List String} {t : Target} {names : TargetNames} {i : Nat}

theorem TargetsFree.at {isStage : Bool} {targets : List Target} {all : List TargetNames}
    (h : TargetsFree isStage targets all) (ht : targets[i]? = some t) (hn : all[i]? = some names) :
    ∃ isStage : Bool, names.CollisionFree (if isStage then stageMembers else spriteMembers) t := by
  induction targets generalizing isStage all i with
  | nil => simp at ht
  | cons first rest ih =>
    cases all with
    | nil => simp at hn
    | cons head others =>
      cases i with
      | zero => cases ht; cases hn; exact ⟨isStage, h.1⟩
      | succ i => exact ih h.2 (by simpa using ht) (by simpa using hn)

namespace TargetNames

theorem scriptName_of_lookup {warp : Bool} {variant : String}
    (h : names.warpVariants.lookup i = some variant) :
    names.scriptName i warp = if warp then variant else names.scripts[i]?.getD "" := by
  cases warp <;> simp [scriptName, h]

theorem scriptName_of_no_variant {warp : Bool} (h : names.warpVariants.lookup i = none) :
    names.scriptName i warp = names.scriptName i false := by
  cases warp <;> simp [scriptName, h]

namespace CollisionFree

theorem lookup_isSome_iff (h : names.CollisionFree members t) {reachable : List Nat}
    (hr : t.warpReachable = .ok reachable) :
    (names.warpVariants.lookup i).isSome = true ↔ i ∈ reachable := by
  have hkeys : reachable = names.warpVariants.map (·.1) := by
    have := h.variants; rw [hr] at this; cases this; rfl
  rw [hkeys, List.lookup_isSome_iff]
  simp

theorem scriptName_mem (h : names.CollisionFree members t) (hi : i < t.scripts.length)
    (warp : Bool) : names.scriptName i warp ∈ names.scripts ++ names.warpVariants.map (·.2) := by
  have hscript : names.scripts[i]?.getD "" ∈ names.scripts := by
    rw [List.getElem?_eq_getElem (by rw [h.scripts_length]; exact hi)]
    exact List.getElem_mem _
  cases hl : names.warpVariants.lookup i with
  | none =>
    rw [scriptName_of_no_variant hl]
    exact List.mem_append_left _ hscript
  | some variant =>
    rw [scriptName_of_lookup hl]
    split
    · exact List.mem_append_right _ (List.mem_map_of_mem (Assoc.mem_of_lookup hl))
    · exact List.mem_append_left _ hscript

end CollisionFree
end TargetNames
end Name

namespace Compile
variable {ctx : Context} {inputs : Slots} {id : String} {desired : Shape} {locals : Name.Space}
  {f : Fragment}

/-! ### The form of a call -/

/-- The source of a call from the method `caller`: plain when the callee's method is plain, and with
`yield*` when both are generators. -/
def IsCall (caller callee : Method) (source args : String) : Prop :=
  Xor (callee.generator = false ∧ source = "this." ++ callee.name ++ "(" ++ args ++ ")")
    (callee.generator = true ∧ caller.generator = true ∧
      source = "yield* this." ++ callee.name ++ "(" ++ args ++ ")")

theorem callee?_of_findProcedure {proccode : Value} {j : Nat} {s : Script}
    (hcode : proccode ≠ .null) (hfind : ctx.target.findProcedure proccode = some j)
    (hs : ctx.target.scripts[j]? = some s) : callee? ctx proccode = some (j, s) := by
  unfold callee?
  split
  · exact absurd rfl hcode
  · simp [hfind, hs]

theorem blockFragment_call {j : Nat} {s : Script}
    (hcode : Slots.literal inputs "PROCCODE" .null ≠ .null)
    (hfind : ctx.target.findProcedure (Slots.literal inputs "PROCCODE" .null) = some j)
    (hs : ctx.target.scripts[j]? = some s)
    (h : (blockFragment ctx (.mk (.known (.procedure .call)) inputs id) desired locals).result =
      .ok f) :
    ∃ args, ((callPhrase ctx j s.isWarp args).render inputs (readers ctx inputs) locals).result =
        .ok f.source := by
  obtain ⟨p, hp, h⟩ := blockFragment_eq_ok.1 h
  have hplan : callPlan ctx inputs = .ok p := hp
  simp only [callPlan, callee?_of_findProcedure hcode hfind hs, Outcome.bind_eq_ok,
    Outcome.pure_eq_ok] at hplan
  obtain ⟨given, -, arguments, -, rfl⟩ := hplan
  obtain ⟨source, hsource, rfl⟩ := Plan.fragment_phrase_eq_ok.1 h
  exact ⟨_, hsource⟩

theorem render_call {slots : Slots} {readers : Readers} {first name middle last source : String}
    {args : Phrase} :
    ((first ++ .name name ++ middle ++ args ++ last : Phrase).render slots readers locals).result =
      .ok source ↔
      ∃ a, (args.render slots readers locals).result = .ok a ∧
      source = first ++ name ++ middle ++ a ++ last := by
  simp only [Phrase.render_append, Phrase.render_text, Except.ok.injEq]
  constructor
  · rintro ⟨_, _, ⟨_, a, ⟨_, _, ⟨_, _, rfl, hname, rfl⟩, rfl, rfl⟩, ha, rfl⟩, rfl, rfl⟩
    cases hname
    exact ⟨a, ha, rfl⟩
  · rintro ⟨a, ha, rfl⟩
    exact ⟨_, _, ⟨_, a, ⟨_, _, ⟨_, name, rfl, rfl, rfl⟩, rfl, rfl⟩, ha, rfl⟩, rfl, rfl⟩

/-! ### Every call finds a method of the right kind -/

theorem mem_nested_of_mem_body {s : Script} {b : Block} (h : b ∈ nestedStack s.body) :
    b ∈ s.nested := by
  unfold Script.body at h
  split at h
  · cases hblocks : s.blocks with
    | nil => rw [hblocks] at h; exact absurd h (by simp [nestedStack])
    | cons first rest =>
      rw [hblocks] at h
      rw [Script.nested, hblocks, nestedStack]
      exact List.mem_append_right _ h
  · exact h

variable {project : Project} {names : Name.Table} {targetIndex : Nat}

theorem warp_of_mem_scriptContexts {members : List String} {reachable : List Nat} {i : Nat}
    (hctx : ctx ∈ scriptContexts project names targetIndex i)
    (hfree : ctx.targetNames.CollisionFree members ctx.target)
    (hr : ctx.target.warpReachable = .ok reachable) (hwarp : ctx.warp = true) :
    ctx.target.isWarpAt i = true ∨ i ∈ reachable := by
  obtain ⟨base, hbase, hctx⟩ := mem_scriptContexts hctx
  obtain ⟨-, -, hscript, -, -⟩ := Context.make_eq_ok hbase
  rcases hctx with rfl | ⟨hvariant, rfl⟩
  · left
    have hwarp : base.script.isWarp = true := hwarp
    show (base.target.scripts[i]?.map (·.isWarp)).getD false = true
    simp [hscript, hwarp]
  · exact .inr ((hfree.lookup_isSome_iff hr).1 hvariant)

/-- What the scripts compiled without screen refresh call has a plain method. -/
theorem callee_warps_or_has_variant {members : List String} {i j : Nat} {b : Block}
    (hctx : ctx ∈ scriptContexts project names targetIndex i)
    (hscript : ctx.target.scripts[i]? = some ctx.script)
    (hfree : ctx.targetNames.CollisionFree members ctx.target) (hwarp : ctx.warp = true)
    (hb : b ∈ nestedStack ctx.script.body) (hcall : b.kind.is (.procedure .call) = true)
    (hfind : ctx.target.findProcedure (b.literal "PROCCODE" .null) = some j) :
    ctx.target.isWarpAt j = true ∨ (ctx.targetNames.warpVariants.lookup j).isSome = true := by
  obtain ⟨callees, hcalls, hclosed⟩ := Target.warpReachable_closed hfree.variants
    (warp_of_mem_scriptContexts hctx hfree hfree.variants hwarp)
  rw [hfree.lookup_isSome_iff hfree.variants]
  exact hclosed j (Target.mem_of_callsAt hcalls hscript (mem_nested_of_mem_body hb) hcall hfind)

theorem exists_base_of_mem (hctx : ctx ∈ targetContexts project names targetIndex) :
    ∃ i base, ctx ∈ scriptContexts project names targetIndex i ∧
      Context.make project names targetIndex i false = .ok base ∧
      ctx = { base with warp := ctx.warp } := by
  obtain ⟨target, -, i, -, hctx⟩ := mem_targetContexts.1 hctx
  obtain ⟨base, hbase, heq⟩ := mem_scriptContexts hctx
  refine ⟨i, base, hctx, hbase, ?_⟩
  rcases heq with rfl | ⟨-, rfl⟩ <;> rfl

theorem make_sibling {members : List String} {j : Nat} {s : Script}
    (hctx : ctx ∈ targetContexts project names targetIndex)
    (hfree : ctx.targetNames.CollisionFree members ctx.target)
    (hs : ctx.target.scripts[j]? = some s) :
    ∃ sibling, Context.make project names targetIndex j false = .ok sibling ∧ sibling.script = s ∧
      sibling.target = ctx.target ∧ sibling.targetNames = ctx.targetNames := by
  obtain ⟨i, base, -, hbase, heq⟩ := exists_base_of_mem hctx
  obtain ⟨htarget, hnames, -, -, -⟩ := Context.make_eq_ok hbase
  have hlt : j < ctx.targetNames.params.length := by
    rw [← hfree.params.length_eq]; exact (List.getElem?_eq_some_iff.1 hs).1
  rw [heq] at hs hlt ⊢
  unfold Context.make
  simp only [htarget, hnames, hs, List.getElem?_eq_getElem hlt]
  exact ⟨_, rfl, rfl, rfl, rfl⟩

theorem mem_targetContexts_of_make {base : Context} {j : Nat}
    (hbase : Context.make project names targetIndex j false = .ok base)
    (hctx : ctx = { base with warp := base.script.isWarp } ∨
      (base.targetNames.warpVariants.lookup j).isSome = true ∧ ctx = { base with warp := true }) :
    ctx ∈ targetContexts project names targetIndex := by
  obtain ⟨htarget, -, hscript, -, -⟩ := Context.make_eq_ok hbase
  refine mem_targetContexts.2 ⟨_, htarget, j, (List.getElem?_eq_some_iff.1 hscript).1, ?_⟩
  rw [scriptContexts, hbase]
  rcases hctx with rfl | ⟨hvariant, rfl⟩
  · simp
  · simp [hvariant]

/-- The method that a script is compiled to by itself has the script's name: a procedure that asks
to run without screen refresh has no second method. -/
theorem methodName_own {members : List String} {base : Context} {j : Nat}
    (hbase : Context.make project names targetIndex j false = .ok base)
    (hfree : base.targetNames.CollisionFree members base.target) :
    ({ base with warp := base.script.isWarp } : Context).methodName =
      base.targetNames.scriptName j false := by
  obtain ⟨-, -, hscript, -, hindex⟩ := Context.make_eq_ok hbase
  show base.targetNames.scriptName base.scriptIndex base.script.isWarp = _
  rw [hindex]
  cases hwarp : base.script.isWarp with
  | false => rfl
  | true =>
    refine Name.TargetNames.scriptName_of_no_variant ?_
    rw [← Option.not_isSome_iff_eq_none, hfree.lookup_isSome_iff hfree.variants]
    intro hin
    have := (Target.not_isWarpAt_of_mem_reachable hfree.variants hin).2
    simp [Target.isWarpAt, hscript, hwarp] at this

/-- A call compiled for one method of a target names another method of it: a plain one in a plain
call, and a generator in a call with `yield*`, which is in a generator. -/
theorem call_finds_method {members : List String} {j : Nat} {b : Block}
    (hctx : ctx ∈ targetContexts project names targetIndex)
    (hfree : ctx.targetNames.CollisionFree members ctx.target)
    (hb : b ∈ nestedStack ctx.script.body) (hcall : b.kind = .known (.procedure .call))
    (hcode : b.literal "PROCCODE" .null ≠ .null)
    (hfind : ctx.target.findProcedure (b.literal "PROCCODE" .null) = some j)
    (h : (blockFragment ctx b desired locals).result = .ok f) :
    ∃ callee ∈ targetContexts project names targetIndex, callee.scriptIndex = j ∧ ∃ args,
      (callee.warp = true ∧ f.source = "this." ++ callee.methodName ++ "(" ++ args ++ ")" ∨
        callee.warp = false ∧ ctx.warp = false ∧
          f.source = "yield* this." ++ callee.methodName ++ "(" ++ args ++ ")") := by
  obtain ⟨i, base, hmem, hbase, heq⟩ := exists_base_of_mem hctx
  have hscript : ctx.target.scripts[i]? = some ctx.script := by
    rw [heq]; exact (Context.make_eq_ok hbase).2.2.1
  obtain ⟨s, hs⟩ : ∃ s, ctx.target.scripts[j]? = some s :=
    ⟨_, List.getElem?_eq_getElem (Target.findProcedure_lt hfind)⟩
  obtain ⟨sibling, hsibling, rfl, htarget, hnames⟩ := make_sibling hctx hfree hs
  have hindex : sibling.scriptIndex = j := (Context.make_eq_ok hsibling).2.2.2.2
  have hname : ({ sibling with warp := sibling.script.isWarp } : Context).methodName =
      ctx.targetNames.scriptName j false :=
    (methodName_own hsibling (by rw [hnames, htarget]; exact hfree)).trans (by rw [hnames])
  have hown : { sibling with warp := sibling.script.isWarp } ∈ targetContexts project names
      targetIndex :=
    mem_targetContexts_of_make hsibling (.inl rfl)
  obtain ⟨kind, inputs, id⟩ := b
  obtain rfl : kind = .known (.procedure .call) := hcall
  obtain ⟨args, hrender⟩ := blockFragment_call hcode hfind hs h
  unfold callPhrase at hrender
  split at hrender
  · rename_i hwarp
    obtain ⟨a, -, ha⟩ := render_call.1 hrender
    exact ⟨_, hown, hindex, a, .inl ⟨hwarp, by rw [hname]; exact ha⟩⟩
  rename_i hwarp
  have hwarp : sibling.script.isWarp = false := by simpa using hwarp
  split at hrender
  · rename_i hctxWarp
    -- The callee is among what `warpReachable` finds, so the fallback is out.
    have hvariant : (ctx.targetNames.warpVariants.lookup j).isSome = true := by
      rcases callee_warps_or_has_variant hmem hscript hfree hctxWarp hb rfl hfind with hw | hv
      · simp [Target.isWarpAt, hs, hwarp] at hw
      · exact hv
    obtain ⟨variant, hlookup⟩ := Option.isSome_iff_exists.1 hvariant
    simp only [hlookup] at hrender
    obtain ⟨a, -, ha⟩ := render_call.1 hrender
    have hsecond : ({ sibling with warp := true } : Context).methodName = variant := by
      show sibling.targetNames.scriptName sibling.scriptIndex true = _
      rw [hindex, hnames, Name.TargetNames.scriptName_of_lookup hlookup]; rfl
    refine ⟨{ sibling with warp := true }, mem_targetContexts_of_make hsibling (.inr ⟨?_, rfl⟩),
      hindex, a, .inl ⟨rfl, by rw [hsecond]; exact ha⟩⟩
    rw [hnames]; exact hvariant
  · rename_i hctxWarp
    obtain ⟨a, -, ha⟩ := render_call.1 hrender
    exact ⟨_, hown, hindex, a, .inr ⟨hwarp, by simpa using hctxWarp, by rw [hname]; exact ha⟩⟩

/-! ### The protocol -/

theorem takeWhile_append_cons {c : Char} {as : List Char} (h : c ∉ as) (xs : List Char) :
    (as ++ c :: xs).takeWhile (· != c) = as := by
  have hne : ∀ d ∈ as, (d != c) = true := by
    intro d hd
    rw [bne_iff_ne]
    exact fun hdc => h (hdc ▸ hd)
  rw [List.takeWhile_append_of_pos hne]
  simp

theorem eq_of_append_cons_eq {c : Char} {as bs xs ys : List Char} (ha : c ∉ as) (hb : c ∉ bs)
    (h : as ++ c :: xs = bs ++ c :: ys) : as = bs := by
  rw [← takeWhile_append_cons ha xs, h, takeWhile_append_cons hb ys]

theorem not_warp_call {name args : String} (hid : Name.IsIdentifier name) (hne : name ≠ "warp") :
    ¬ "this.warp(".toList <+: ("this." ++ name ++ "(" ++ args ++ ")").toList := by
  rintro ⟨rest, h⟩
  have hname : '(' ∉ name.toList := fun hin => by
    have := Name.isIdentifierTail_of_mem hid _ hin
    revert this; decide
  have h : "warp".toList ++ '(' :: rest = name.toList ++ '(' :: (args.toList ++ [')']) := by
    simpa using h
  exact hne (String.toList_injective (eq_of_append_cons_eq (by decide) hname h).symm)

theorem collisionFree_of_mem (hnames : Name.assign project = .ok names)
    (hctx : ctx ∈ targetContexts project names targetIndex) : ∃ isStage : Bool,
      ctx.targetNames.CollisionFree (if isStage then Name.stageMembers else Name.spriteMembers)
      ctx.target := by
  obtain ⟨i, base, -, hbase, heq⟩ := exists_base_of_mem hctx
  obtain ⟨htarget, htargetNames, -, -, -⟩ := Context.make_eq_ok hbase
  rw [heq]
  exact (Name.Table.collisionFree_of_assign hnames).targets.at htarget htargetNames

theorem methodName_clear (hnames : Name.assign project = .ok names)
    (hctx : ctx ∈ targetContexts project names targetIndex) :
    Name.IsIdentifier ctx.methodName ∧ ctx.methodName ≠ "warp" := by
  obtain ⟨isStage, hfree⟩ := collisionFree_of_mem hnames hctx
  obtain ⟨i, base, -, hbase, heq⟩ := exists_base_of_mem hctx
  obtain ⟨-, -, hscript, -, hindex⟩ := Context.make_eq_ok hbase
  have hlt : ctx.scriptIndex < ctx.target.scripts.length := by
    rw [heq, hindex]; exact (List.getElem?_eq_some_iff.1 hscript).1
  have hmem := hfree.scriptName_mem hlt ctx.warp
  refine ⟨hfree.methods.identifier _ hmem, fun hwarp => hfree.methods.unreserved _ hmem ?_⟩
  rw [show ctx.targetNames.scriptName ctx.scriptIndex ctx.warp = "warp" from hwarp]
  cases isStage <;> decide

theorem exists_mem_zip {α β : Type} {R : α → β → Prop} {as : List α} {bs : List β}
    (h : List.Forall₂ R as bs) {a : α} (ha : a ∈ as) : ∃ b, (a, b) ∈ as.zip bs := by
  induction h with
  | nil => simp at ha
  | cons _ _ ih =>
    rcases List.mem_cons.1 ha with rfl | ha
    · exact ⟨_, List.mem_cons_self ..⟩
    · obtain ⟨b, hb⟩ := ih ha
      exact ⟨b, List.mem_cons_of_mem _ hb⟩

/-- A call inside a method of a target is a plain call of a plain method, or a call with `yield*` of
a generator inside a generator. The runtime's `warp` is not needed to get through a generator at
once, and a plain method does not call a generator. -/
def FollowsProtocol (methods : List (Context × Method)) (caller : Method) (j : Nat)
    (source : String) : Prop :=
  (∃ calleeCtx callee args, (calleeCtx, callee) ∈ methods ∧ calleeCtx.scriptIndex = j ∧
    IsCall caller callee source args ∧ (caller.generator = false → callee.generator = false)) ∧
  ¬ "this.warp(".toList <+: source.toList

theorem call_followsProtocol (hnames : Name.assign project = .ok names) {code : TargetCode}
    (hmethods : List.Forall₂ (fun ctx m => (Method.compile ctx).result = .ok m)
      (targetContexts project names targetIndex) code.methods)
    {caller : Method}
    (hpair : (ctx, caller) ∈ (targetContexts project names targetIndex).zip code.methods)
    {b : Block} (hb : b ∈ nestedStack ctx.script.body) (hcall : b.kind = .known (.procedure .call))
    (hliteral : b.literal "PROCCODE" .null ≠ .null) {j : Nat}
    (hfind : ctx.target.findProcedure (b.literal "PROCCODE" .null) = some j)
    (hf : (blockFragment ctx b desired locals).result = .ok f) :
    FollowsProtocol ((targetContexts project names targetIndex).zip code.methods) caller j
      f.source := by
  have hctx := (List.of_mem_zip hpair).1
  obtain ⟨-, hgenerator⟩ := Method.compile_eq_ok (List.forall₂_zip hmethods hpair)
  obtain ⟨isStage, hfree⟩ := collisionFree_of_mem hnames hctx
  obtain ⟨calleeCtx, hcallee, hindex, args, hform⟩ :=
    call_finds_method hctx hfree hb hcall hliteral hfind hf
  obtain ⟨callee, hcalleePair⟩ := exists_mem_zip hmethods hcallee
  obtain ⟨hname, hcalleeGenerator⟩ := Method.compile_eq_ok (List.forall₂_zip hmethods hcalleePair)
  rw [← hname] at hform
  rcases hform with ⟨hwarp, hsource⟩ | ⟨hwarp, hctxWarp, hsource⟩
  · rw [hwarp] at hcalleeGenerator
    refine ⟨⟨calleeCtx, callee, args, hcalleePair, hindex, ?_, fun _ => hcalleeGenerator⟩, ?_⟩
    · exact .inl ⟨⟨hcalleeGenerator, hsource⟩, fun h => by rw [hcalleeGenerator] at h; cases h.1⟩
    · rw [hsource, hname]
      obtain ⟨hid, hne⟩ := methodName_clear hnames hcallee
      exact not_warp_call hid hne
  · rw [hwarp] at hcalleeGenerator
    rw [hctxWarp] at hgenerator
    refine ⟨⟨calleeCtx, callee, args, hcalleePair, hindex, ?_, fun h => ?_⟩, ?_⟩
    · exact .inr ⟨⟨hcalleeGenerator, hgenerator, hsource⟩,
        fun h => by rw [hcalleeGenerator] at h; cases h.1⟩
    · rw [hgenerator] at h
      cases h
    · rw [hsource]
      rintro ⟨rest, h⟩
      simp at h

end Compile

end ScratchExport
