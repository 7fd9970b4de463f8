import ScratchExport.Export.Files
import ScratchExport.Proofs.ConstructorText
import ScratchExport.Proofs.References
import ScratchExport.Proofs.Totality

/-!
# Writing well-shaped projects

What holds of blocks holds of whole files: if the data of a project has the types that it should
have, then methods, triggers, constructors and the entry module are written, unless a number of the
project is too large for a double.

`Project.numbers` lists the values that are read as numbers on the way: the literals of scripts, the
values that data, costumes and sprites start with, down to the members of lists, and the positions
of watchers counted from the corner of the stage.
-/

namespace ScratchExport
open Outcome (Settles Ends)

variable {H : Prop}

namespace Outcome
variable {α β : Type}

theorem Settles.mapM_ends {f : α → Except Fault β} {as : List α} (h : ∀ a ∈ as, Ends H (f a)) :
    Ends H (as.mapM f) := by
  induction as with
  | nil => exact .pure trivial
  | cons a rest ih =>
    rw [List.forall_mem_cons] at h
    rw [List.mapM_cons]
    exact h.1.bind fun _ _ => (ih h.2).bind fun _ _ => .pure trivial

theorem Settles.of_exists {x : Except Fault α} {Q : α → Prop} (h : ∃ a, x = .ok a ∧ Q a) :
    Settles H x Q := by
  obtain ⟨a, rfl, ha⟩ := h
  exact .ok ha

end Outcome

/-! ### Values -/

instance (n : Nat) : Decidable (Binary64.Exceeds n) :=
  Nat.decLe (2 ^ 1024) (n + 2 ^ 970)

theorem Value.tooLarge_text_iff (s : String) :
    (Value.text s).TooLarge ↔ ∃ n ∈ Literal.based? (Text.trim s.toList), Binary64.Exceeds n :=
  Iff.rfl

instance : DecidablePred Value.TooLarge
  | .int i => inferInstanceAs (Decidable (Binary64.Exceeds i.natAbs))
  | .text s => decidable_of_iff _ (Value.tooLarge_text_iff s).symm
  | .null | .bool _ | .float _ | .list _ | .record _ | .rgb .. | .described _ => .isFalse id

/-- A number, where a truth value counts as one. -/
def Value.IsNumber (v : Value) : Prop :=
  v.toInt?.isSome = true ∨ ∃ x, v = .float x

mutual
/-- The members of a value that are no lists or records, down to any depth. -/
def Value.scalars : Value → List Value
  | .list items => scalarItems items
  | .record fields => scalarFields fields
  | .rgb r g b => [.int r, .int g, .int b]
  | .null => [.null]
  | .bool b => [.bool b]
  | .int i => [.int i]
  | .float x => [.float x]
  | .text s => [.text s]
  | .described s => [.described s]

def scalarItems : List Value → List Value
  | [] => []
  | v :: rest => v.scalars ++ scalarItems rest

def scalarFields : List (String × Value) → List Value
  | [] => []
  | (_, v) :: rest => v.scalars ++ scalarFields rest
end

namespace Literal

theorem initialScalar_ends {v : Value} (h : v.TooLarge → H) : Ends H (initialScalar v) := by
  have htext : Ends H (do return Text.literal (← spoken v)) := (spoken_ends h).bind fun _ _ =>
    .pure trivial
  refine (number?_ends h).bind fun number _ => ?_
  cases number with
  | none => exact htext
  | some x =>
    dsimp only
    split_ifs
    · exact .pure trivial
    · exact htext

mutual
theorem initial_ends : ∀ v : Value, (∀ w ∈ v.scalars, w.TooLarge → H) → Ends H (initial v)
  | .null, _ => by rw [initial]; exact .ok trivial
  | .bool b, _ => by rw [initial]; exact .ok trivial
  | .list items, h => by
    rw [Value.scalars] at h
    rw [initial]
    exact (initialItems_ends items h).bind fun _ _ => .pure trivial
  | .record fields, h => by
    rw [Value.scalars] at h
    rw [initial]
    exact (initialFields_ends fields h).bind fun _ _ => .pure trivial
  | .rgb r g b, h => by
    simp only [Value.scalars, List.forall_mem_cons] at h
    rw [initial]
    refine (initialScalar_ends h.1).bind fun _ _ => ?_
    refine (initialScalar_ends h.2.1).bind fun _ _ => ?_
    exact (initialScalar_ends h.2.2.1).bind fun _ _ => .pure trivial
  | .int i, h => by rw [initial]; exact initialScalar_ends (h _ (by simp [Value.scalars]))
  | .float x, h => by rw [initial]; exact initialScalar_ends (h _ (by simp [Value.scalars]))
  | .text s, h => by rw [initial]; exact initialScalar_ends (h _ (by simp [Value.scalars]))
  | .described s, h => by rw [initial]; exact initialScalar_ends (h _ (by simp [Value.scalars]))

theorem initialItems_ends :
    ∀ items : List Value, (∀ w ∈ scalarItems items, w.TooLarge → H) → Ends H (initialItems items)
  | [], _ => by rw [initialItems]; exact .ok trivial
  | v :: rest, h => by
    rw [scalarItems, List.forall_mem_append] at h
    rw [initialItems]
    exact (initial_ends v h.1).bind fun _ _ => (initialItems_ends rest h.2).bind fun _ _ =>
      .pure trivial

theorem initialFields_ends :
    ∀ fields : List (String × Value), (∀ w ∈ scalarFields fields, w.TooLarge → H) →
    Ends H (initialFields fields)
  | [], _ => by rw [initialFields]; exact .ok trivial
  | (k, v) :: rest, h => by
    rw [scalarFields, List.forall_mem_append] at h
    rw [initialFields]
    exact (initial_ends v h.1).bind fun _ _ => (initialFields_ends rest h.2).bind fun _ _ =>
      .pure trivial
end

end Literal

/-- A number can be added to an integer of moderate size and subtracted from it. -/
theorem Value.arith_ok {onInts : Int → Int → Int} {onDoubles : Binary64 → Binary64 → Binary64}
    {v : Value} (hv : v.IsNumber) {i : Int} (hi : ¬ Binary64.Exceeds i.natAbs) :
    (∃ result, arith onInts onDoubles v (.int i) = .ok result) ∧ ∃ result,
    arith onInts onDoubles (.int i) v = .ok result := by
  obtain ⟨y, hy, -⟩ := (double_ends (fun h => hi h)).ok_or_tooLarge.resolve_right fun h => h.2
  have hright : (Value.int i).toBinary64 = .ok y := hy
  rcases hv with hv | ⟨x, rfl⟩
  · obtain ⟨j, hj⟩ := Option.isSome_iff_exists.1 hv
    unfold arith
    rw [hj]
    exact ⟨⟨_, rfl⟩, _, rfl⟩
  · have hleft : (Value.float x).toBinary64 = .ok x := rfl
    constructor
    · exact ⟨_, Outcome.bind_eq_ok.2 ⟨x, hleft, Outcome.bind_eq_ok.2 ⟨y, hright, rfl⟩⟩⟩
    · exact ⟨_, Outcome.bind_eq_ok.2 ⟨y, hright, Outcome.bind_eq_ok.2 ⟨x, hleft, rfl⟩⟩⟩

namespace Compile
variable {ctx : Context} {b : Block}

/-! ### Scripts -/

theorem meets_of_wellShapedTree (hb : b.WellShapedTree) (h : ∀ v ∈ b.literals, v.TooLarge → H) :
    Steps.Meets Block.WellShaped (Input.Admitted H) b.innerInputs := by
  intro x hx
  refine ⟨⟨hb.inputs x hx, fun v hv => h v (List.mem_filterMap.2 ⟨x, hx, hv⟩)⟩, fun c hc => ?_⟩
  exact hb.blocks c (List.mem_cons_of_mem _ (List.mem_flatMap.2 ⟨x, hx, hc⟩))

section
variable (harguments : ∀ script ∈ ctx.target.scripts, ∃ arguments, script.arguments = .ok arguments)
include harguments

theorem stackSource_ends {bs : List Block}
    (hbs : ∀ b ∈ bs, b.WellShapedTree ∧ ∀ v ∈ b.literals, v.TooLarge → H) :
    Ends H (stackSource ctx bs).result := by
  have hfragments : ∀ b ∈ bs, (blockFragment ctx b).All (Ends H) := by
    intro b hb
    obtain ⟨hshaped, hmoderate⟩ := hbs b hb
    exact (steps_ends harguments).block b (hshaped.blocks b (List.mem_cons_self ..))
      (meets_of_wellShapedTree hshaped hmoderate)
  have hsources : Ends H (stackSources ctx bs ctx.locals).result := by
    refine ⟨fun _ _ => trivial, fun fault hfault => ?_⟩
    refine ((steps_ends harguments).ofStack bs hfragments ctx.locals).faults fault ?_
    rw [hfault]
    rfl
  rw [stackSource, Noted.result_bind]
  exact hsources.bind fun _ _ => .pure trivial

theorem slotSource_ends
    (hinner : Steps.Meets Block.WellShaped (Input.Admitted H) (innerSlots b.inputs)) (slot : String)
    (desired : Shape) : Ends H (slotSource ctx b slot desired).result :=
  Readers.source_ends ((steps_ends harguments).slots b.inputs hinner) slot desired ctx.locals

theorem hatTrigger_ends (hb : b.WellShapedTree) (hmoderate : ∀ v ∈ b.literals, v.TooLarge → H) :
    Ends H (hatTrigger ctx b).result := by
  have hinner : Steps.Meets Block.WellShaped (Input.Admitted H) (innerSlots b.inputs) := by
    have := meets_of_wellShapedTree hb hmoderate
    cases b
    exact this
  have hslots : ∀ x ∈ innerSlots b.inputs, x.Admitted H := fun x hx => (hinner x hx).1
  have hsource := slotSource_ends harguments hinner
  have hchoice := fun slot => Slots.choice_settles hslots slot
  unfold hatTrigger
  split
  · exact .ok trivial
  · exact .ok trivial
  · rw [Noted.result_bind]
    exact (hsource _ _).bind fun _ _ => .ok trivial
  · exact .ok trivial
  · exact .ok trivial
  · rw [Noted.result_bind, Noted.result_lift]
    exact (hchoice _).bind fun _ _ => .ok trivial
  · rw [Noted.result_bind, Noted.result_lift]
    exact (hchoice _).bind fun _ _ => .ok trivial
  · rw [Noted.result_bind]
    refine Settles.bind (Q := fun _ => True) ?_ fun _ _ => .ok trivial
    simp only [greaterThanTrigger, Noted.result_bind, Noted.result_lift]
    refine (hchoice _).bind fun choice hchoice => ?_
    obtain ⟨s, rfl⟩ := hchoice
    refine Settles.bind (Q := fun _ => True) (.ok trivial) fun _ _ => ?_
    exact (hsource _ _).bind fun _ _ => .ok trivial
  · exact .ok trivial
  · exact .ok trivial

end

variable {project : Project} {names : Name.Table} {t : Target}

theorem context_make_ok (hnames : Name.assign project = .ok names) {i j : Nat}
    (ht : project.targets[i]? = some t) (hj : j < t.scripts.length) (warp : Bool) :
    ∃ ctx, Context.make project names i j warp = .ok ctx := by
  have hfree := (Name.Table.collisionFree_of_assign hnames).targets
  obtain ⟨targetNames, htargetNames⟩ : ∃ targetNames, names.targets[i]? = some targetNames := by
    rw [← Option.isSome_iff_exists, isSome_getElem?, ← hfree.length_eq]
    exact (List.getElem?_eq_some_iff.1 ht).1
  obtain ⟨_, hat⟩ := hfree.at ht htargetNames
  have hparams : j < targetNames.params.length := hat.params.length_eq ▸ hj
  unfold Context.make
  simp only [ht, htargetNames, List.getElem?_eq_getElem hj, List.getElem?_eq_getElem hparams]
  exact ⟨_, rfl⟩

theorem scriptCode_ends (hnames : Name.assign project = .ok names) {i j : Nat}
    (ht : project.targets[i]? = some t) (hj : j < t.scripts.length)
    (hblocks : ∀ s ∈ t.scripts, ∀ b ∈ s.blocks,
      b.WellShapedTree ∧ ∀ v ∈ b.literals, v.TooLarge → H) :
    Ends H (scriptCode project names i j).result := by
  obtain ⟨ctx, hctx⟩ := context_make_ok hnames ht hj false
  have hok := arguments_ok hnames hctx
  have harguments (warp : Bool) : ∀ script ∈ ({ ctx with warp } : Context).target.scripts,
      ∃ arguments, script.arguments = .ok arguments := hok
  obtain ⟨htarget, -, hscript, -⟩ := Context.make_eq_ok hctx
  rw [ht] at htarget
  cases htarget
  have hshaped := hblocks ctx.script (List.mem_of_getElem? hscript)
  have hcompile (warp : Bool) : Ends H (Method.compile { ctx with warp }).result := by
    rw [Method.compile, Noted.result_bind]
    refine Settles.bind (stackSource_ends (harguments warp) fun b hb => hshaped b ?_)
      fun _ _ => .ok trivial
    have hb : b ∈ ctx.script.body := hb
    unfold Script.body at hb
    split_ifs at hb
    exacts [List.mem_of_mem_drop hb, hb]
  have htrigger (warp : Bool) : Ends H (trigger { ctx with warp }).result := by
    unfold trigger
    cases hhat : ctx.script.hat? with
    | none => exact .ok trivial
    | some hat =>
      have hin : hat ∈ ctx.script.blocks :=
        List.mem_of_mem_head? (Option.filter_eq_some_iff.1 hhat).1
      exact hatTrigger_ends (harguments warp) (hshaped hat hin).1 (hshaped hat hin).2
  rw [scriptCode, Noted.result_bind, Noted.result_lift, hctx]
  show Ends H (Noted.result (_ >>= _))
  rw [Noted.result_bind]
  refine (hcompile _).bind fun method _ => ?_
  rw [Noted.result_bind]
  refine (htrigger _).bind fun trigger _ => ?_
  dsimp only
  split_ifs
  · rw [Noted.result_bind]
    exact (hcompile true).bind fun _ _ => .ok trivial
  · exact .ok trivial

theorem targetCode_ends (hnames : Name.assign project = .ok names) {i : Nat}
    (ht : project.targets[i]? = some t)
    (hblocks : ∀ s ∈ t.scripts, ∀ b ∈ s.blocks,
      b.WellShapedTree ∧ ∀ v ∈ b.literals, v.TooLarge → H) :
    Ends H (targetCode project names i).result := by
  have hscripts (indices : List Nat) (hlt : ∀ j ∈ indices, j < t.scripts.length) :
      Ends H (scriptsCode project names i indices).result := by
    induction indices with
    | nil => rw [scriptsCode]; exact .ok trivial
    | cons j rest ih =>
      rw [List.forall_mem_cons] at hlt
      rw [scriptsCode, Noted.result_bind]
      refine (scriptCode_ends hnames ht hlt.1 hblocks).bind fun _ _ => ?_
      rw [Noted.result_bind]
      exact (ih hlt.2).bind fun _ _ => .ok trivial
  unfold targetCode
  rw [ht]
  dsimp only
  rw [Noted.result_bind]
  exact (hscripts _ fun j hj => List.mem_range.1 hj).bind fun _ _ => .ok trivial

end Compile

/-! ### Blocks that show or hide watchers -/

mutual
theorem Block.nested_subset : ∀ b : Block, b.nested ⊆ b.withInner
  | .mk kind inputs id => by
    rw [Block.nested]
    exact List.cons_subset_cons _ (nestedInputs_subset inputs)

theorem nestedInputs_subset : ∀ inputs : List (String × Input),
    nestedInputs inputs ⊆ (innerSlots inputs).flatMap (·.blocks)
  | [] => by rw [nestedInputs]; exact List.nil_subset _
  | (_, x) :: rest => by
    rw [nestedInputs, innerSlots, List.flatMap_append]
    exact List.append_subset.2 ⟨List.subset_append_of_subset_left _ (Input.nested_subset x),
      List.subset_append_of_subset_right _ (nestedInputs_subset rest)⟩

theorem Input.nested_subset : ∀ x : Input, x.nested ⊆ x.withInner.flatMap (·.blocks)
  | .block (some b) => by rw [Input.nested, Input.withInner]; exact Block.nested_subset b
  | .stack (some bs) => by rw [Input.nested, Input.withInner]; exact nestedStack_subset bs
  | .values items => by rw [Input.nested, Input.withInner]; exact nestedItems_subset items
  | .plain .. | .reference .. | .block none | .stack none | .arguments _ => by
    rw [Input.nested]
    exact List.nil_subset _

theorem nestedStack_subset :
    ∀ bs : List Block, nestedStack bs ⊆ bs ++ (innerStack bs).flatMap (·.blocks)
  | [] => by rw [nestedStack]; exact List.nil_subset _
  | b :: rest => by
    have hfirst := Block.nested_subset b
    have hrest := nestedStack_subset rest
    rw [nestedStack, innerStack, List.flatMap_append]
    intro c hc
    rcases List.mem_append.1 hc with hc | hc
    · rcases List.mem_cons.1 (hfirst hc) with rfl | hc
      · exact List.mem_cons_self ..
      · exact List.mem_append_right _ (List.mem_append_left _ hc)
    · rcases List.mem_append.1 (hrest hc) with hc | hc
      · exact List.mem_cons_of_mem _ (List.mem_append_left _ hc)
      · exact List.mem_append_right _ (List.mem_append_right _ hc)

theorem nestedItems_subset :
    ∀ items : List Input, nestedItems items ⊆ (innerItems items).flatMap (·.blocks)
  | [] => by rw [nestedItems]; exact List.nil_subset _
  | .block (some b) :: rest => by
    rw [nestedItems, innerItems, List.flatMap_append, Input.withInner]
    exact List.append_subset.2 ⟨List.subset_append_of_subset_left _ (Block.nested_subset b),
      List.subset_append_of_subset_right _ (nestedItems_subset rest)⟩
  | .block none :: rest | .stack _ :: rest | .plain .. :: rest | .reference .. :: rest
  | .arguments _ :: rest | .values _ :: rest => by
    rw [innerItems, List.flatMap_append]
    exact List.subset_append_of_subset_right _ (nestedItems_subset rest)
end

theorem mem_nestedStack {bs : List Block} {c : Block} (h : c ∈ nestedStack bs) :
    ∃ b ∈ bs, c ∈ b.nested := by
  induction bs with
  | nil => rw [nestedStack] at h; cases h
  | cons b rest ih =>
    rw [nestedStack] at h
    rcases List.mem_append.1 h with h | h
    · exact ⟨b, List.mem_cons_self .., h⟩
    · obtain ⟨b', hb', hc⟩ := ih h
      exact ⟨b', List.mem_cons_of_mem _ hb', hc⟩

namespace Export
variable {p : Project} {t : Target} {names : Name.TargetNames} {members : List String}

theorem watcherRef?_ok {b : Block} (hb : b.WellShaped) : ∃ ref?, watcherRef? b = .ok ref? := by
  have hkey : ∃ key, b.kind.label.asKey = .ok key := by
    unfold Block.WellShaped at hb
    cases hkind : b.kind with
    | known op => exact ⟨_, rfl⟩
    | unknown label =>
      rw [hkind] at hb
      obtain ⟨s, rfl⟩ := hb
      exact ⟨_, rfl⟩
  obtain ⟨key, hkey⟩ := hkey
  exact ⟨_, Outcome.bind_eq_ok.2 ⟨key, hkey, rfl⟩⟩

theorem watcherRefs_ok (hwalk : t.Walkable)
    (hblocks : ∀ s ∈ t.scripts, ∀ b ∈ s.blocks, b.WellShapedTree) :
    ∃ refs, watcherRefs t = .ok refs := by
  have hwalked : ∀ s ∈ t.scripts, s.walk = .ok s.nested := by
    intro s hs
    rw [Script.walk, hwalk s hs]
  obtain ⟨walked, hmapM⟩ := Outcome.mapM_ok fun s hs => ⟨s.nested, hwalked s hs⟩
  obtain ⟨refs, hrefs⟩ : ∃ refs, walked.flatten.mapM watcherRef? = .ok refs := by
    refine Outcome.mapM_ok fun c hc => watcherRef?_ok ?_
    obtain ⟨blocks, hin, hc⟩ := List.mem_flatten.1 hc
    obtain ⟨s, hs, heq⟩ := Outcome.mem_of_mapM_eq_ok hmapM hin
    cases (hwalked s hs).symm.trans heq
    obtain ⟨b, hb, hc⟩ := mem_nestedStack hc
    exact (hblocks s hs b hb).blocks c (b.nested_subset hc)
  exact ⟨_, Outcome.bind_eq_ok.2 ⟨walked, hmapM, Outcome.bind_eq_ok.2 ⟨refs, hrefs, rfl⟩⟩⟩

/-! ### Conditions on projects -/

/-- Positions are numbers, and the mode of a watcher is no list or record. -/
structure Datum.WellShaped (d : Datum) : Prop where
  x : d.x.IsNumber
  y : d.y.IsNumber
  mode : ∀ v, d = .variable v → v.mode.isKey = true

end Export

open Export (dataOf)

/-- Blocks are well-shaped, what calls pass and procedures declare are inputs and arguments, and
costumes and positions are numbers. -/
structure Target.WellShaped (t : Target) : Prop where
  walkable : t.Walkable
  arguments : ∀ s ∈ t.scripts, ∃ arguments, s.arguments = .ok arguments
  blocks : ∀ s ∈ t.scripts, ∀ b ∈ s.blocks, b.WellShapedTree
  costume : t.costumeNumber.IsNumber
  data : ∀ d ∈ dataOf t, d.WellShaped

/-- The literals in the scripts of a target. -/
def Target.literals (t : Target) : List Value :=
  t.scripts.flatMap fun s => s.blocks.flatMap (·.literals)

/-- What the entry module writes of a sprite. -/
def Sprite.values (s : Sprite) : List Value :=
  [s.x, s.y, s.direction, s.size, s.visible]

/-- The values of a project that are read as numbers when it is written. -/
def Project.numbers (p : Project) : List Value :=
  p.targets.flatMap (·.literals) ++
    (p.targets.flatMap (·.values) ++ p.sprites.flatMap (·.values)).flatMap (·.scalars)

namespace Export
variable {p : Project} {t : Target} {names : Name.TargetNames} {members : List String}

/-! ### Constructors -/

theorem styleField_ok {d : Datum} (hd : d.WellShaped) : ∃ style, styleField d = .ok style := by
  cases d with
  | «variable» v =>
    have hkey : v.mode.asKey = .ok v.mode := by rw [Value.asKey, if_pos (hd.mode v rfl)]
    exact ⟨_, Outcome.bind_eq_ok.2 ⟨v.mode, hkey, rfl⟩⟩
  | list l => exact ⟨_, rfl⟩

theorem watcherSource_ends {d : Datum} (hd : d.WellShaped)
    (h : ∀ v ∈ d.values, ∀ w ∈ v.scalars, w.TooLarge → H) (isStage : Bool) (property : String) :
    Ends H (watcherSource t isStage property d) := by
  obtain ⟨style, hstyle⟩ := styleField_ok hd
  obtain ⟨x, hx⟩ : ∃ x, d.x.add (.int 240) = .ok x :=
    (Value.arith_ok hd.x (by decide +kernel)).1
  obtain ⟨y, hy⟩ : ∃ y, Value.sub (.int 180) d.y = .ok y :=
    (Value.arith_ok hd.y (by decide +kernel)).2
  have hinitial : ∀ v ∈ d.values, Ends H (Literal.initial v) := fun v hv =>
    Literal.initial_ends v (h v hv)
  have hslider : Ends H (sliderFields property d) := by
    cases d with
    | «variable» v =>
      unfold sliderFields
      dsimp only
      split
      · refine (hinitial v.sliderMin (by simp [Datum.values])).bind fun _ _ => ?_
        exact (hinitial v.sliderMax (by simp [Datum.values])).bind fun _ _ => .pure trivial
      · exact .ok trivial
    | list l => exact .ok trivial
  have hextents : Ends H (extentFields d) := by
    have hextent (name : String) {v : Value} (hv : v ∈ d.values) : Ends H (extentField name v) := by
      unfold extentField
      split
      · exact .ok trivial
      · exact (hinitial v hv).bind fun _ _ => .pure trivial
    cases d with
    | «variable» v => exact .ok trivial
    | list l =>
      refine (hextent _ (by simp [Datum.values])).bind fun _ _ => ?_
      exact (hextent _ (by simp [Datum.values])).bind fun _ _ => .pure trivial
  unfold watcherSource
  rw [hstyle, hx, hy]
  refine Settles.bind (Q := fun _ => True) (.ok trivial) fun _ _ => ?_
  refine (hinitial d.visible (by simp [Datum.values])).bind fun _ _ => hslider.bind fun _ _ => ?_
  refine Settles.bind (Q := (· = x)) (.ok rfl) fun placed hplaced => ?_
  rw [hplaced]
  refine (hinitial x (by simp [Datum.values, hx, Except.toOption])).bind fun _ _ => ?_
  refine Settles.bind (Q := (· = y)) (.ok rfl) fun placed hplaced => ?_
  rw [hplaced]
  refine (hinitial y (by simp [Datum.values, hy, Except.toOption])).bind fun _ _ => ?_
  exact hextents.bind fun _ _ => .pure trivial

theorem propertyOf_ok (hfree : names.CollisionFree members t) {d : Datum} (hd : d ∈ dataOf t) :
    ∃ property, propertyOf names d = .ok property := by
  have hid : Name.IsDataId t d.id := by
    rcases List.mem_append.1 hd with hd | hd
    · obtain ⟨v, hv, rfl⟩ := List.mem_map.1 hd
      exact .inr ⟨v, hv, rfl⟩
    · obtain ⟨l, hl, rfl⟩ := List.mem_map.1 hd
      exact .inl ⟨l, hl, rfl⟩
  obtain ⟨property, hproperty⟩ := (hfree.data.keys_iff d.id).2 hid
  exact ⟨property, propertyOf_eq_ok.2 hproperty⟩

theorem constructorLines_ends {job : Job} (hproject : ∀ t ∈ job.project.targets, t.WellShaped)
    (ht : t ∈ job.project.targets) (hfree : names.CollisionFree members t)
    (h : ∀ v ∈ t.values, ∀ w ∈ v.scalars, w.TooLarge → H) (isStage : Bool)
    (triggers : List String) : Ends H (constructorLines job isStage t names triggers) := by
  have hinitial : ∀ v ∈ t.values, Ends H (Literal.initial v) := fun v hv =>
    Literal.initial_ends v (h v hv)
  have hcostumes : Ends H (t.costumes.mapM (costumeSource job.options names.className)) := by
    refine Settles.mapM_ends fun c hc => Settles.bind (Q := fun _ => True) ?_ fun _ _ =>
      .pure trivial
    refine Literal.initial_ends _ fun w hw => ?_
    have hcenter : ∀ v ∈ [c.centerX, c.centerY], v ∈ t.values := by
      intro v hv
      exact List.mem_append_left _ (List.mem_cons_of_mem _ (List.mem_flatMap.2 ⟨c, hc, hv⟩))
    simp only [Value.scalars, scalarFields, List.append_nil, List.mem_append] at hw
    rcases hw with hw | hw
    · exact h _ (hcenter _ (by simp)) w hw
    · exact h _ (hcenter _ (by simp)) w hw
  have hvolume : Ends H (volumeLines t.volume) := by
    unfold volumeLines
    split_ifs
    · exact .ok trivial
    · exact (hinitial t.volume (by simp [Target.values])).bind fun _ _ => .pure trivial
  have hvalues {d : Datum} (hd : d ∈ dataOf t) : ∀ v ∈ d.values, v ∈ t.values := by
    intro v hv
    exact List.mem_append_right _ (List.mem_flatMap.2 ⟨d, hd, hv⟩)
  have hdata : Ends H ((dataOf t).mapM (dataLine names)) := by
    refine Settles.mapM_ends fun d hd => ?_
    obtain ⟨property, hproperty⟩ := propertyOf_ok hfree hd
    unfold dataLine
    rw [hproperty]
    refine Settles.bind (Q := fun _ => True) (.ok trivial) fun _ _ => ?_
    exact (hinitial d.value (hvalues hd _ (by simp [Datum.values]))).bind fun _ _ => .pure trivial
  have hwatchers (watched : List String) :
      Ends H ((dataOf t).mapM (watcherLine? t isStage names watched)) := by
    refine Settles.mapM_ends fun d hd => ?_
    obtain ⟨property, hproperty⟩ := propertyOf_ok hfree hd
    unfold watcherLine?
    split_ifs
    · rw [hproperty]
      refine Settles.bind (Q := fun _ => True) (.ok trivial) fun _ _ => ?_
      refine Settles.bind (Q := fun _ => True) ?_ fun _ _ => .pure trivial
      exact watcherSource_ends ((hproject t ht).data d hd) (fun v hv =>
        h v (hvalues hd v hv)) isStage _
    · exact .pure trivial
  have hwatched : Ends H (watchedIds job.project t isStage) := by
    unfold watchedIds
    refine Settles.bind (Q := fun _ => True) ?_ fun _ _ => .pure trivial
    refine Settles.mapM_ends fun other hother => ?_
    have hin : other ∈ job.project.targets := by
      split_ifs at hother
      · exact hother
      · exact List.mem_singleton.1 hother ▸ ht
    obtain ⟨refs, hrefs⟩ := watcherRefs_ok (hproject other hin).walkable (hproject other hin).blocks
    exact .of_exists ⟨refs, hrefs, trivial⟩
  refine hcostumes.bind fun _ _ => hvolume.bind fun _ _ => hdata.bind fun _ _ =>
    hwatched.bind fun watched _ => ?_
  exact (hwatchers watched).bind fun _ _ => .pure trivial

/-! ### The entry module -/

theorem costumeNumber_ok (h : t.costumeNumber.IsNumber) :
    ∃ number, Job.costumeNumber t = .ok number := by
  obtain ⟨sum, hsum⟩ : ∃ sum, t.costumeNumber.add (.int 1) = .ok sum :=
    (Value.arith_ok h (by decide +kernel)).1
  exact ⟨_, Outcome.bind_eq_ok.2 ⟨sum, hsum, rfl⟩⟩

theorem spriteSource_ends {s : Sprite} (hs : s.toTarget.WellShaped)
    (h : ∀ v ∈ s.values, ∀ w ∈ v.scalars, w.TooLarge → H) (className : String) :
    Ends H (spriteSource className s) := by
  have hinitial : ∀ v ∈ s.values, Ends H (Literal.initial v) := fun v hv =>
    Literal.initial_ends v (h v hv)
  obtain ⟨number, hnumber⟩ := costumeNumber_ok hs.costume
  unfold spriteSource
  refine (hinitial s.x (by simp [Sprite.values])).bind fun _ _ => ?_
  refine (hinitial s.y (by simp [Sprite.values])).bind fun _ _ => ?_
  refine (hinitial s.direction (by simp [Sprite.values])).bind fun _ _ => ?_
  rw [hnumber]
  refine Settles.bind (Q := fun _ => True) (.ok trivial) fun _ _ => ?_
  refine (hinitial s.size (by simp [Sprite.values])).bind fun _ _ => ?_
  exact (hinitial s.visible (by simp [Sprite.values])).bind fun _ _ => .pure trivial

theorem entry_ends {job : Job} (hproject : ∀ t ∈ job.project.targets, t.WellShaped)
    (h : ∀ s ∈ job.project.sprites, ∀ v ∈ s.values, ∀ w ∈ v.scalars, w.TooLarge → H) :
    Ends H job.entry := by
  obtain ⟨number, hnumber⟩ :=
    costumeNumber_ok (hproject job.project.stage (List.mem_cons_self ..)).costume
  unfold Job.entry
  rw [hnumber]
  refine Settles.bind (Q := fun _ => True) (.ok trivial) fun _ _ => ?_
  refine Settles.bind (Q := fun _ => True) ?_ fun _ _ => .pure trivial
  refine Settles.mapM_ends fun entry hentry => ?_
  have hsprite := (List.of_mem_zip hentry).2
  exact spriteSource_ends (hproject _ (List.mem_cons_of_mem _ (List.mem_map_of_mem hsprite)))
    (h _ hsprite) _

end Export

end ScratchExport
