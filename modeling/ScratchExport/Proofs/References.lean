import ScratchExport.Export.TargetFile
import ScratchExport.Proofs.CallProtocol
import ScratchExport.Proofs.Plans

/-!
# What references to data mean

A reference in a script is to data of its own target or of the stage. `Means` says which: data with
the id of the reference or, only where no such data has that id, data with its name. The compiler
finds data just when a reference means some (`resolve_means`, `not_means_of_resolve`), and the
source of a block that refers to data shows the property that holds what was found
(`blockFragment_reference`).
-/

namespace ScratchExport

/-- Variable or list. -/
def Export.Datum.kind : Export.Datum → DataKind
  | .variable _ => .variable
  | .list _ => .list

theorem Value.text_same_iff {s : String} {v : Value} :
    (Value.text s).same v = true ↔ v = .text s := by
  cases v with
  | text t =>
    rw [Value.same, beq_iff_eq, Value.text.injEq]
    exact eq_comm
  | _ => simp [Value.same]

theorem Name.TargetsFree.length_eq {isStage : Bool} {targets : List Target} {all : List TargetNames}
    (h : TargetsFree isStage targets all) : targets.length = all.length := by
  induction targets generalizing isStage all with
  | nil =>
    cases all with
    | nil => rfl
    | cons head others => exact False.elim h
  | cons first rest ih =>
    cases all with
    | nil => exact False.elim h
    | cons head others => rw [List.length_cons, List.length_cons, ih h.2]

namespace Compile
open Export (Datum)
open Outcome (Ensures Within)

/-! ### Resolution -/

/-- The target at an index has data of a kind. -/
structure Owns (project : Project) (owner : Nat) (kind : DataKind) (d : Datum) : Prop where
  target : ∃ t, project.targets[owner]? = some t ∧ d ∈ Export.dataOf t
  kind : d.kind = kind

/-- The property that holds data of the target at an index. -/
def Holds (names : Name.Table) (owner : Nat) (d : Datum) (property : String) : Prop :=
  ∃ targetNames, names.targets[owner]? = some targetNames ∧
    targetNames.data.lookup d.id = some property

theorem Owns.at_target {project : Project} {names : Name.Table} {owner : Nat} {kind : DataKind}
    {d : Datum} {property : String} (howns : Owns project owner kind d)
    (hholds : Holds names owner d property) {t : Target} {targetNames : Name.TargetNames}
    (ht : project.targets[owner]? = some t)
    (htargetNames : names.targets[owner]? = some targetNames) :
    d ∈ Export.dataOf t ∧ targetNames.data.lookup d.id = some property := by
  obtain ⟨t', ht', hd⟩ := howns.target
  obtain ⟨names', hnames', hlookup⟩ := hholds
  rw [ht] at ht'
  rw [htargetNames] at hnames'
  cases ht'
  cases hnames'
  exact ⟨hd, hlookup⟩

/-- A reference, in a script of the target at an index, means data of that target or of the stage:
by id or, if no data there has the id, by name. -/
structure Means (project : Project) (index : Nat) (kind : DataKind) (ref : DataRef) (owner : Nat)
    (d : Datum) : Prop where
  scope : owner = index ∨ owner = 0
  owns : Owns project owner kind d
  found : ref.id = .text d.id ∨ d.name.same ref.name = true ∧
    ∀ i, i = index ∨ i = 0 → ∀ other, Owns project i kind other → ref.id ≠ .text other.id

theorem mem_dataOf {t : Target} {kind : DataKind} {id : String} {name : Value} :
    (id, name) ∈ Context.dataOf t kind ↔ ∃ d ∈ Export.dataOf t, d.kind = kind ∧ d.id = id ∧
    d.name = name := by
  have hvariable (v : Variable) : (Datum.variable v).kind = .variable := rfl
  have hlist (l : ListData) : (Datum.list l).kind = .list := rfl
  cases kind <;>
    simp [Context.dataOf, Export.dataOf, or_and_right, exists_or, hvariable, hlist, Datum.id,
      Datum.name]

variable {ctx : Context} {kind : DataKind} {ref : DataRef} {owner : Nat} {property : String}

theorem Context.make_eq_ok_place {project : Project} {names : Name.Table}
    {targetIndex scriptIndex : Nat} {warp : Bool}
    (h : Context.make project names targetIndex scriptIndex warp = .ok ctx) :
    ctx.project = project ∧ ctx.targetIndex = targetIndex := by
  unfold Context.make at h
  split at h
  · split at h
    · cases h; exact ⟨rfl, rfl⟩
    · cases h
  · cases h

theorem property?_eq_some {p : String → Value → Bool} {index : Nat}
    (h : ctx.property? kind p index = some (owner, property)) :
    owner = index ∧ ∃ d, Owns ctx.project index kind d ∧ p d.id d.name = true ∧
    Holds ctx.names index d property := by
  unfold Context.property? at h
  split at h
  · next t targetNames ht hnames =>
    obtain ⟨⟨id, name⟩, hmem, hfound⟩ := List.exists_of_findSome?_eq_some h
    dsimp only at hfound
    split_ifs at hfound with hp
    obtain ⟨found, hlookup, hpair⟩ := Option.map_eq_some_iff.1 hfound
    cases hpair
    obtain ⟨d, hd, hkind, rfl, rfl⟩ := mem_dataOf.1 hmem
    exact ⟨rfl, d, ⟨⟨t, ht, hd⟩, hkind⟩, hp, targetNames, hnames, hlookup⟩
  · cases h

theorem property?_eq_none (hnames : Name.assign ctx.project = .ok ctx.names)
    {p : String → Value → Bool} {index : Nat} (h : ctx.property? kind p index = none) {d : Datum}
    (hd : Owns ctx.project index kind d) : p d.id d.name = false := by
  obtain ⟨t, ht, hmem⟩ := hd.target
  have htargets := (Name.Table.collisionFree_of_assign hnames).targets
  have hlt := htargets.length_eq ▸ (List.getElem?_eq_some_iff.1 ht).1
  obtain ⟨targetNames, htargetNames⟩ :
      ∃ targetNames, ctx.names.targets[index]? = some targetNames :=
    ⟨_, List.getElem?_eq_getElem hlt⟩
  obtain ⟨_, hfree⟩ := htargets.at ht htargetNames
  obtain ⟨found, hlookup⟩ : ∃ found, targetNames.data.lookup d.id = some found := by
    refine (hfree.data.keys_iff d.id).2 ?_
    rcases List.mem_append.1 hmem with hmem | hmem
    · obtain ⟨v, hv, rfl⟩ := List.mem_map.1 hmem
      exact .inr ⟨v, hv, rfl⟩
    · obtain ⟨l, hl, rfl⟩ := List.mem_map.1 hmem
      exact .inl ⟨l, hl, rfl⟩
  unfold Context.property? at h
  rw [ht, htargetNames] at h
  have hnone :=
    List.findSome?_eq_none_iff.1 h (d.id, d.name) (mem_dataOf.2 ⟨d, hmem, hd.kind, rfl, rfl⟩)
  dsimp only at hnone
  split_ifs at hnone with hp
  · rw [hlookup] at hnone
    cases hnone
  · exact Bool.eq_false_iff.2 hp

theorem mem_scopes {i : Nat} : i ∈ ctx.scopes ↔ i = ctx.targetIndex ∨ i = 0 := by
  unfold Context.scopes
  split_ifs with h
  · rw [beq_iff_eq.1 h]; simp
  · simp

/-- The first scope in which data is found, of those that a script has. -/
theorem exists_of_scopes {p : String → Value → Bool}
    (h : ctx.scopes.findSome? (ctx.property? kind p) = some (owner, property)) :
    (owner = ctx.targetIndex ∨ owner = 0) ∧ ∃ d, Owns ctx.project owner kind d ∧
    p d.id d.name = true ∧
      Holds ctx.names owner d property := by
  obtain ⟨i, hi, hfound⟩ := List.exists_of_findSome?_eq_some h
  obtain ⟨rfl, hd⟩ := property?_eq_some hfound
  exact ⟨mem_scopes.1 hi, hd⟩

theorem forall_of_scopes (hnames : Name.assign ctx.project = .ok ctx.names)
    {p : String → Value → Bool} (h : ctx.scopes.findSome? (ctx.property? kind p) = none) {i : Nat}
    (hi : i = ctx.targetIndex ∨ i = 0) {d : Datum} (hd : Owns ctx.project i kind d) :
    p d.id d.name = false :=
  property?_eq_none hnames (List.findSome?_eq_none_iff.1 h i (mem_scopes.2 hi)) hd

theorem resolve_means (hnames : Name.assign ctx.project = .ok ctx.names)
    (h : ctx.resolve kind ref = some (owner, property)) :
    ∃ d, Means ctx.project ctx.targetIndex kind ref owner d ∧ Holds ctx.names owner d property := by
  unfold Context.resolve at h
  split at h
  · next hid =>
    cases h
    obtain ⟨hscope, d, howns, hsame, hholds⟩ := exists_of_scopes hid
    exact ⟨d, ⟨hscope, howns, .inl (Value.text_same_iff.1 hsame)⟩, hholds⟩
  · next hid =>
    obtain ⟨hscope, d, howns, hsame, hholds⟩ := exists_of_scopes h
    refine ⟨d, ⟨hscope, howns, .inr ⟨hsame, fun i hi other hother heq => ?_⟩⟩, hholds⟩
    have hdiffers := forall_of_scopes hnames hid hi hother
    rw [Value.text_same_iff.2 heq] at hdiffers
    cases hdiffers

theorem not_means_of_resolve (hnames : Name.assign ctx.project = .ok ctx.names)
    (h : ctx.resolve kind ref = none) (owner : Nat) (d : Datum) :
    ¬ Means ctx.project ctx.targetIndex kind ref owner d := by
  unfold Context.resolve at h
  split at h
  · cases h
  · next hid =>
    rintro ⟨hscope, howns, heq | ⟨hsame, -⟩⟩
    · have hdiffers := forall_of_scopes hnames hid hscope howns
      rw [Value.text_same_iff.2 heq] at hdiffers
      cases hdiffers
    · have hdiffers := forall_of_scopes hnames h hscope howns
      rw [hsame] at hdiffers
      cases hdiffers

/-! ### Parts of phrases -/

/-- The texts that a member of data stands behind, if the source does not begin with it. -/
def leaders : List String :=
  ["this.itemOf(", "this.indexInArray(", "this.arrayIncludes(", " \x7b\n"]

/-- The texts that stand behind a member of data, if the source does not end with it. -/
def followers : List String :=
  [" = ", "++", "--", " -= ", " += ", " = this.toNumber(", ".visible = ", ".join(\" \")", ".push(",
    ".splice(", ".splice(this.random(0, ", " = []", ".length", ", "]

/-- None of them goes on with the name of the member. -/
example : ∀ s ∈ followers, s.toList.head?.any (!Name.isIdentifierTail ·) = true :=
  List.all_iff_forall_prop.1 (by decide)

/-- Source shows a member: all of it, with nothing in front of it but what leads to a member, and
nothing behind it but what follows one. -/
def ShowsMember (member source : String) : Prop :=
  ∃ before after, source.toList = before ++ member.toList ++ after ∧
    (before = [] ∨ ∃ s ∈ leaders, s.toList <:+ before) ∧
    (after = [] ∨ ∃ s ∈ followers, s.toList <+: after)

namespace Phrase

/-- The text at the end of a phrase. -/
def lastText? : Phrase → Option String
  | .text s => some s
  | .append _ q => q.lastText?
  | _ => none

theorem suffix_of_lastText? {p : Phrase} {s : String} (h : p.lastText? = some s) {slots : Slots}
    {readers : Readers} {locals : Name.Space} {source : String}
    (hsource : (p.render slots readers locals).result = .ok source) :
    s.toList <:+ source.toList := by
  induction p generalizing source with
  | text t =>
    cases h
    cases hsource
    exact List.suffix_rfl
  | append p q _ ih =>
    obtain ⟨a, b, -, hb, rfl⟩ := render_append.1 hsource
    rw [String.toList_append]
    exact (ih h hb).trans (List.suffix_append ..)
  | _ => cases h

/-- A phrase is a part of another one, between texts that lead to members and follow them, or the
other one cannot be written. It is closed if something follows. -/
inductive PartOf (q : Phrase) : Bool → Phrase → Prop
  | self : PartOf q false q
  | behind {closed : Bool} {p r : Phrase} (h : PartOf q closed r)
      (hp : ∃ s ∈ leaders, p.lastText? = some s := by exact ⟨_, by decide, rfl⟩) :
      PartOf q closed (p ++ r)
  | followed {p : Phrase} {s : String} (h : PartOf q false p)
      (hs : s ∈ followers := by decide) : PartOf q true (p ++ .text s)
  | left {p r : Phrase} (h : PartOf q true p) : PartOf q true (p ++ r)
  | stop {p : Phrase} (fault : Fault) : PartOf q true (p ++ .stop fault)

theorem PartOf.render {q p : Phrase} {closed : Bool} (h : q.PartOf closed p) {slots : Slots}
    {readers : Readers} {locals : Name.Space} {part source : String}
    (hpart : (q.render slots readers locals).result = .ok part)
    (hsource : (p.render slots readers locals).result = .ok source) :
    ∃ before after, source.toList = before ++ part.toList ++ after ∧
      (before = [] ∨ ∃ s ∈ leaders, s.toList <:+ before) ∧
      if closed then ∃ s ∈ followers, s.toList <+: after else after = [] := by
  induction h generalizing source with
  | self =>
    rw [hpart] at hsource
    cases hsource
    exact ⟨[], [], by simp, .inl rfl, rfl⟩
  | @behind closed p r _ hp ih =>
    obtain ⟨a, b, ha, hb, rfl⟩ := render_append.1 hsource
    obtain ⟨before, after, heq, hbefore, hafter⟩ := ih hb
    obtain ⟨s, hs, hlast⟩ := hp
    refine ⟨a.toList ++ before, after, by simp [heq], .inr ?_, hafter⟩
    rcases hbefore with rfl | ⟨t, ht, hsuffix⟩
    · rw [List.append_nil]
      exact ⟨s, hs, suffix_of_lastText? hlast ha⟩
    · exact ⟨t, ht, hsuffix.trans (List.suffix_append ..)⟩
  | @followed p s _ hs ih =>
    obtain ⟨a, b, ha, hb, rfl⟩ := render_append.1 hsource
    obtain ⟨before, after, heq, hbefore, hafter⟩ := ih ha
    obtain rfl : after = [] := hafter
    cases hb
    exact ⟨before, s.toList, by simp [heq], hbefore, s, hs, List.prefix_rfl⟩
  | left _ ih =>
    obtain ⟨a, b, ha, -, rfl⟩ := render_append.1 hsource
    obtain ⟨before, after, heq, hbefore, s, hs, hprefix⟩ := ih ha
    exact ⟨before, after ++ b.toList, by simp [heq], hbefore, s, hs,
      hprefix.trans (List.prefix_append ..)⟩
  | stop fault =>
    obtain ⟨a, b, -, hb, -⟩ := render_append.1 hsource
    cases hb

/-- The phrase shows the part. -/
def Shows (q p : Phrase) : Prop :=
  ∃ closed, q.PartOf closed p

theorem Shows.render {q p : Phrase} (h : q.Shows p) {slots : Slots} {readers : Readers}
    {locals : Name.Space} {part source : String}
    (hpart : (q.render slots readers locals).result = .ok part)
    (hsource : (p.render slots readers locals).result = .ok source) : ShowsMember part source := by
  obtain ⟨closed, h⟩ := h
  obtain ⟨before, after, heq, hbefore, hafter⟩ := h.render hpart hsource
  refine ⟨before, after, heq, hbefore, ?_⟩
  cases closed with
  | false => exact .inl hafter
  | true => exact .inr hafter

end Phrase

/-- The plan is a phrase with the part. -/
def Plan.Shows (q : Phrase) : Plan → Prop
  | .phrase p _ => q.Shows p
  | _ => False

/-! ### Blocks that refer to data -/

/-- How a block refers to data: the slot of the reference, the kind of data, and what is meant of
it. -/
structure DataUse where
  slot : String
  kind : DataKind
  container : String

/-- The data that a block uses, or whose watcher it shows or hides. -/
def dataUse? : BlockKind → Option DataUse
  | .known (.data op) => match op with
    | .variable | .setVariableTo | .changeVariableBy => some ⟨"VARIABLE", .variable, "vars"⟩
    | .showVariable | .hideVariable => some ⟨"VARIABLE", .variable, "watchers"⟩
    | .showList | .hideList => some ⟨"LIST", .list, "watchers"⟩
    | _ => some ⟨"LIST", .list, "vars"⟩
  | .known (.control .forEach) => some ⟨"VARIABLE", .variable, "vars"⟩
  | _ => none

/-- A member of the own target, or of the stage if the owner is another. -/
def memberSource (container : String) (index owner : Nat) (property : String) : String :=
  (if owner = index then "this." else "this.stage.") ++ container ++ "." ++ property

theorem render_ownedPhrase (container : String) {slots : Slots} {readers : Readers}
    {locals : Name.Space} :
    ((ownedPhrase ctx container owner property).render slots readers locals).result =
      .ok (memberSource container ctx.targetIndex owner property) := by
  unfold ownedPhrase memberSource
  by_cases h : owner = ctx.targetIndex
  · rw [if_pos (beq_iff_eq.2 h), if_pos h]; rfl
  · rw [if_neg (mt beq_iff_eq.1 h), if_neg h]; rfl

/-- The plan of a block that refers to data is one for the member that holds the data, or says that
it is missing. -/
def PlansReference (ctx : Context) (slots : Slots) (use : DataUse) (Q : Phrase → Plan → Prop)
    (p : Plan) : Prop :=
  ∃ ref?, slots.dataRef? use.slot = .ok ref? ∧
    ((∃ owner property, ref?.bind (ctx.resolve use.kind) = some (owner, property) ∧
        Q (ownedPhrase ctx use.container owner property) p) ∨
      ref?.bind (ctx.resolve use.kind) = none ∧
        p = .missing use.kind.word ((ref?.map (·.name)).getD (.text "")))

variable {slots : Slots} {Q : Phrase → Plan → Prop}

theorem PlansReference.means (hnames : Name.assign ctx.project = .ok ctx.names) {use : DataUse}
    {p : Plan} (h : PlansReference ctx slots use Q p) : ∃ ref?, slots.dataRef? use.slot = .ok ref? ∧
      ((∃ ref owner property d, ref? = some ref ∧
        ctx.resolve use.kind ref = some (owner, property) ∧
          Means ctx.project ctx.targetIndex use.kind ref owner d ∧
          Holds ctx.names owner d property ∧
          Q (ownedPhrase ctx use.container owner property) p) ∨
        (∀ ref, ref? = some ref → ∀ owner d,
          ¬ Means ctx.project ctx.targetIndex use.kind ref owner d) ∧
          p = .missing use.kind.word ((ref?.map (·.name)).getD (.text ""))) := by
  obtain ⟨ref?, href, ⟨owner, property, hfound, hplan⟩ | ⟨hnone, hplan⟩⟩ := h
  · obtain ⟨ref, rfl, hresolve⟩ := Option.bind_eq_some_iff.1 hfound
    obtain ⟨d, hmeans, hholds⟩ := resolve_means hnames hresolve
    exact ⟨some ref, href, .inl ⟨ref, owner, property, d, rfl, hresolve, hmeans, hholds, hplan⟩⟩
  · refine ⟨ref?, href, .inr ⟨fun ref href' => ?_, hplan⟩⟩
    cases href'
    exact not_means_of_resolve hnames hnone

theorem dataPhrase?_plans {slot container : String} {plan : Option Phrase → Except Fault Plan}
    (hplan : ∀ place, Ensures (plan (some place)) (Q place))
    (hnone : plan none = missingData slots slot kind) :
    Ensures (dataPhrase? ctx slots slot kind container >>= plan)
      (PlansReference ctx slots ⟨slot, kind, container⟩ Q) := by
  refine .bind fun place hplace => ?_
  obtain ⟨ref?, href, hplace⟩ := Outcome.bind_eq_ok.1 hplace
  rw [← Outcome.pure_eq_ok.1 hplace]
  cases hfound : ref?.bind (ctx.resolve kind) with
  | none =>
    rw [Option.map_none, hnone]
    refine .bind fun again hagain => .pure ⟨ref?, href, .inr ⟨hfound, ?_⟩⟩
    rw [href] at hagain
    cases hagain
    rfl
  | some found =>
    intro p hp
    exact ⟨ref?, href, .inl ⟨found.1, found.2, hfound, hplan _ p hp⟩⟩

theorem withData_plans {slot : String} {plan : Phrase → Except Fault Plan}
    (hplan : ∀ place, Ensures (plan place) (Q place)) :
    Ensures (withData ctx slots slot kind plan) (PlansReference ctx slots ⟨slot, kind, "vars"⟩ Q) :=
  dataPhrase?_plans hplan rfl

theorem watcherPlan_plans (slot : String) (visible : Bool) :
    Ensures (watcherPlan ctx slots slot kind visible)
    (PlansReference ctx slots ⟨slot, kind, "watchers"⟩
      fun watcher p => p = .statement (watcher ++ ".visible = " ++ .text (boolSource visible))) :=
  dataPhrase?_plans (fun _ => .pure rfl) rfl

theorem changeBy_shows (place : Phrase) (slot : String) (cast : Bool) :
    Ensures (do return .statement (← changeBy slots place slot cast)) (Plan.Shows place) := by
  have hplace : Within (fun _ => True) (changeBy slots place slot cast) place.Shows :=
    changeBy_within (fun _ _ => trivial) ⟨_, .followed .self⟩ ⟨_, .followed .self⟩
      (fun _ => ⟨_, .left (.followed .self)⟩) (fun _ => ⟨_, .left (.followed .self)⟩)
      ⟨_, .left (.left (.left (.followed .self)))⟩ ⟨_, .left (.followed .self)⟩
  exact .bind fun p hp => .pure (hplace.result p hp)

theorem itemFirst_shows {place : Phrase} {phrase : Position → Phrase}
    (h : ∀ position, place.Shows (phrase position)) : (itemFirst slots phrase).Shows place := by
  unfold itemFirst
  split
  · exact h _
  · exact ⟨_, .stop _⟩

theorem data_plans {op : Data} {use : DataUse} (huse : dataUse? (.known (.data op)) = some use)
    (desired : Shape) :
    Ensures (data ctx slots desired op) (PlansReference ctx slots use Plan.Shows) := by
  cases op <;> cases huse
  case «variable» => exact withData_plans fun _ => .ok ⟨_, .self⟩
  case setVariableTo => exact withData_plans fun _ => .ok ⟨_, .left (.followed .self)⟩
  case changeVariableBy => exact withData_plans fun _ => changeBy_shows _ _ _
  case showVariable | hideVariable | showList | hideList =>
    exact dataPhrase?_plans (fun _ => .pure ⟨_, .left (.followed .self)⟩) rfl
  case listContents | deleteAllOfList | lengthOfList =>
    exact withData_plans fun _ => .ok ⟨_, .followed .self⟩
  case addToList => exact withData_plans fun _ => .ok ⟨_, .left (.left (.followed .self))⟩
  case deleteOfList =>
    refine withData_plans fun place => .bind fun position _ => ?_
    cases position with
    | all => exact .pure ⟨_, .followed .self⟩
    | last | random | numbered => exact .pure ⟨_, .left (.left (.followed .self))⟩
  case insertAtList =>
    refine withData_plans fun place => .ok (itemFirst_shows fun position => ?_)
    cases position with
    | last | all | numbered => exact ⟨_, .left (.left (.followed .self))⟩
    | random => exact ⟨_, .left (.left (.left (.left (.followed .self))))⟩
  case replaceItemOfList =>
    refine withData_plans fun place => .ok (itemFirst_shows fun position => ?_)
    cases position with
    | last | random => exact ⟨_, .left (.left (.left (.left (.followed .self))))⟩
    | all | numbered => exact ⟨_, .left (.left (.followed .self))⟩
  case itemOfList =>
    refine withData_plans fun place => .bind fun position _ => ?_
    cases position with
    | last | random | all | numbered => exact .pure ⟨_, .left (.left (.followed (.behind .self)))⟩
  case itemNumOfList =>
    refine withData_plans fun place => .ok ?_
    unfold itemNumberPlan
    split_ifs
    · exact ⟨_, .left (.left (.followed (.behind .self)))⟩
    · exact ⟨_, .left (.left (.left (.followed (.behind .self))))⟩
  case listContainsItem =>
    exact withData_plans fun _ => .ok ⟨_, .left (.left (.followed (.behind .self)))⟩

theorem forEach_plans (locals : Name.Space) :
    Ensures (control ctx slots locals .forEach)
      (PlansReference ctx slots ⟨"VARIABLE", .variable, "vars"⟩ Plan.Shows) :=
  withData_plans fun _ =>
    .ok ⟨_, .left (.left (.behind (.left (.left (.left (.followed .self))))))⟩

theorem Plan.fragment_missing_eq_ok {readers : Readers} {desired : Shape} {locals : Name.Space}
    {f : Fragment} {what : String} {name : Value}
    (h : ((Plan.missing what name).fragment ctx slots readers desired locals).result = .ok f) :
    ∃ spoken, Literal.spoken name = .ok spoken ∧ f.source = Plan.missingSource what spoken := by
  rw [Plan.fragment, Noted.result_bind] at h
  obtain ⟨_, -, h⟩ := Outcome.bind_eq_ok.1 h
  rw [Noted.result_bind] at h
  obtain ⟨spoken, hspoken, h⟩ := Outcome.bind_eq_ok.1 h
  cases h
  exact ⟨spoken, hspoken, rfl⟩

theorem Plan.fragment_placeholder_eq_ok {readers : Readers} {desired : Shape} {locals : Name.Space}
    {f : Fragment} {label : String}
    (h : ((Plan.placeholder label).fragment ctx slots readers desired locals).result = .ok f) :
    f.source = Plan.placeholderSource label := by
  rw [Plan.fragment, Noted.result_bind] at h
  obtain ⟨_, -, h⟩ := Outcome.bind_eq_ok.1 h
  cases h
  rfl

/-- The source of a block that refers to data has the member of its owner that holds the data, if
the reference means some, and else says what is missing. -/
theorem blockFragment_reference (hnames : Name.assign ctx.project = .ok ctx.names) {b : Block}
    {use : DataUse} (huse : dataUse? b.kind = some use) {desired : Shape} {locals : Name.Space}
    {f : Fragment} (hf : (blockFragment ctx b desired locals).result = .ok f) :
    ∃ ref?, Slots.dataRef? b.inputs use.slot = .ok ref? ∧
      ((∃ ref owner property d, ref? = some ref ∧
        ctx.resolve use.kind ref = some (owner, property) ∧
          Means ctx.project ctx.targetIndex use.kind ref owner d ∧
          Holds ctx.names owner d property ∧
          ShowsMember (memberSource use.container ctx.targetIndex owner property) f.source) ∨
        (∀ ref, ref? = some ref → ∀ owner d,
          ¬ Means ctx.project ctx.targetIndex use.kind ref owner d) ∧
          ∃ spoken, Literal.spoken ((ref?.map (·.name)).getD (.text "")) = .ok spoken ∧
            f.source = Plan.missingSource use.kind.word spoken) := by
  obtain ⟨kind, inputs, id⟩ := b
  obtain ⟨p, hplan, hf⟩ := blockFragment_eq_ok.1 hf
  have hreference : PlansReference ctx inputs use Plan.Shows p := by
    rcases kind with op | label
    · cases op with
      | data op => exact data_plans huse desired p hplan
      | control op =>
        cases op with
        | forEach => cases huse; exact forEach_plans locals p hplan
        | _ => cases huse
      | _ => cases huse
    · cases huse
  obtain ⟨ref?, href, ⟨ref, owner, property, d, rfl, hresolve, hmeans, hholds, hshows⟩
      | ⟨hnone, rfl⟩⟩ :=
    hreference.means hnames
  · refine ⟨some ref, href, .inl ⟨ref, owner, property, d, rfl, hresolve, hmeans, hholds, ?_⟩⟩
    cases p with
    | phrase p shape =>
      obtain ⟨source, hsource, rfl⟩ := Plan.fragment_phrase_eq_ok.1 hf
      exact hshows.render (render_ownedPhrase use.container) hsource
    | _ => exact False.elim hshows
  · exact ⟨ref?, href, .inr ⟨hnone, Plan.fragment_missing_eq_ok hf⟩⟩

end Compile

end ScratchExport
