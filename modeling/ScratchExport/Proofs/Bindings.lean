import ScratchExport.Proofs.ConstructorText

/-!
# References in generated code are bound

The methods of a target, the constructors and the entry module are written by different parts of the
exporter, from one table of names. They agree: a member in which a block looks for data is set
exactly once, in the constructor of the data's owner and to the value that the data starts with, and
a key under which a block looks for a sprite is the key of exactly one entry in the record of
sprites, that of the first sprite with the author's name.
-/

namespace ScratchExport

namespace Name

theorem assignTargets_eq_ok {space : Space} {isStage : Bool} {targets : List Target}
    {result : List TargetNames} (h : assignTargets space isStage targets = .ok result) :
    List.Forall₂ (fun t names => ∃ isStage className, assignTarget isStage className t = .ok names)
    targets result := by
  induction targets generalizing space isStage result with
  | nil => cases h; exact .nil
  | cons t rest ih =>
    obtain ⟨c, -, h⟩ := Outcome.bind_eq_ok.1 h
    obtain ⟨names, hnames, h⟩ := Outcome.bind_eq_ok.1 h
    obtain ⟨others, hothers, h⟩ := Outcome.bind_eq_ok.1 h
    rw [Outcome.pure_eq_ok] at h; subst h
    exact .cons ⟨isStage, _, hnames⟩ (ih hothers)

theorem assignTargets_authors {space : Space} {isStage : Bool} {targets : List Target}
    {result : List TargetNames} (h : assignTargets space isStage targets = .ok result) :
    result.map (·.authorName) = targets.map (·.name) := by
  have hall := assignTargets_eq_ok h
  clear h
  induction hall with
  | nil => rfl
  | cons hnames _ ih =>
    obtain ⟨_, _, hnames⟩ := hnames
    obtain ⟨data, candidates, reachable, params, -, -, -, -, rfl⟩ := assignTarget_eq_ok hnames
    rw [List.map_cons, List.map_cons, ih]

/-- The table finds the class of the first sprite with an author's name. -/
theorem spriteClass?_eq_some {p : Project} {table : Table} (h : assign p = .ok table)
    {author : Value} {className : String} (hclass : table.spriteClass? author = some className) :
    ∃ i names, p.sprites.findIdx? (·.name.same author) = some i ∧
    table.targets[i + 1]? = some names ∧
      names.className = className := by
  obtain ⟨result, hresult, h⟩ := Outcome.bind_eq_ok.1 h
  rw [Outcome.pure_eq_ok] at h; subst h
  have hauthors := congrArg (List.drop 1) (assignTargets_authors hresult)
  rw [← List.map_drop, ← List.map_drop, Project.targets, List.drop_succ_cons, List.drop_zero,
    List.map_map] at hauthors
  have hindex :
      p.sprites.findIdx? (·.name.same author) = (result.drop 1).findIdx?
      (·.authorName.same author) := by
    have hnames := congrArg (List.findIdx? (Value.same · author)) hauthors
    rw [List.findIdx?_map, List.findIdx?_map] at hnames
    exact hnames.symm
  obtain ⟨names, hfound, rfl⟩ := Option.map_eq_some_iff.1 hclass
  rw [List.find?_eq_bind_findIdx?_getElem?, ← hindex] at hfound
  obtain ⟨i, hi, hnames⟩ := Option.bind_eq_some_iff.1 hfound
  refine ⟨i, names, hi, ?_, rfl⟩
  rwa [List.getElem?_drop, Nat.add_comm] at hnames

end Name

namespace Export
open Compile

/-! ### Data -/

theorem Job.make_eq_ok {project : Project} {options : Options} {job : Job}
    (h : Job.make project options = .ok job) :
    job.project = project ∧ Name.assign project = .ok job.names := by
  obtain ⟨names, hnames, h⟩ := Outcome.bind_eq_ok.1 h
  obtain ⟨pageUrl, -, h⟩ := Outcome.bind_eq_ok.1 h
  obtain ⟨entryUrl, -, h⟩ := Outcome.bind_eq_ok.1 h
  obtain ⟨runtimeUrl, -, h⟩ := Outcome.bind_eq_ok.1 h
  rw [← Outcome.pure_eq_ok.1 h]
  exact ⟨rfl, hnames⟩

/-- The context is one of a job: it has the job's project, and the table of names assigned to it. -/
structure IsContext (job : Job) (ctx : Context) : Prop where
  project : ctx.project = job.project
  names : ctx.names = job.names
  assigned : Name.assign job.project = .ok job.names

theorem IsContext.assign {job : Job} {ctx : Context} (h : IsContext job ctx) :
    Name.assign ctx.project = .ok ctx.names := by
  rw [h.project, h.names]
  exact h.assigned

theorem isContext_of_make {project : Project} {options : Options} {job : Job}
    (hjob : Job.make project options = .ok job) {targetIndex scriptIndex : Nat} {warp : Bool}
    {ctx : Context} (hctx : Context.make project job.names targetIndex scriptIndex warp = .ok ctx) :
    IsContext job ctx := by
  obtain ⟨rfl, hnames⟩ := Job.make_eq_ok hjob
  exact ⟨(Context.make_eq_ok_place hctx).1, (Context.make_eq_ok_fields hctx).1, hnames⟩

/-- A property holds data of the target at an index, and the constructor in the file of that target
sets it once, to the value that the data starts with. If nothing of what the constructor writes as
it stands has a line feed, then that is so for the lines of the text, where besides only the slider
of the data sets the property. -/
structure IsBound (job : Job) (owner : Nat) (d : Datum) (property : String) : Prop where
  holds : Holds job.names owner d property
  set : EveryFile job owner fun lines => ∃ value, Literal.initial d.value = .ok value ∧
    lines.filter (assigns property) = ["this.vars." ++ property ++ " = " ++ value ++ ";"] ∧
    (KeepsLines job owner → (textLines ("\n".intercalate lines)).filter (initialises property) =
      ["this.vars." ++ property ++ " = " ++ value ++ ";"])

variable {job : Job}

theorem isBound_of_holds (hnames : Name.assign job.project = .ok job.names)
    (hids : ∀ t ∈ job.project.targets, ((dataOf t).map (·.id)).Nodup) {owner : Nat}
    {kind : DataKind} {d : Datum} {property : String} (howns : Owns job.project owner kind d)
    (hholds : Holds job.names owner d property) : IsBound job owner d property := by
  refine ⟨hholds, everyFile_intro hnames hids
    fun t names _ code lines ht htargetNames hfree hnodup hcode hlines => ?_⟩
  obtain ⟨hd, hlookup⟩ := howns.at_target hholds ht htargetNames
  have htriggers := head?_targetCode hcode
  obtain ⟨value, hvalue, hset⟩ := filter_assigns hfree hnodup htriggers hlines hd hlookup
  refine ⟨value, hvalue, hset, fun hkeeps => ?_⟩
  obtain ⟨value', hvalue', htext⟩ := filter_initialises hfree hnodup (hkeeps.keys t ht)
    (fun s hs => ⟨hkeeps.triggers code hcode s hs, htriggers s hs⟩) hlines hd hlookup
  rw [hvalue] at hvalue'
  cases hvalue'
  exact htext

/-! ### Sprites -/

/-- The sprite that an author's name stands for: the first one that has it. The record of sprites in
the entry module has exactly one entry under its class, and that entry makes the sprite. -/
structure IsSprite (job : Job) (author : Value) (index : Nat) (className : String) : Prop where
  first : job.project.sprites.findIdx? (·.name.same author) = some index
  named : ∃ names, job.names.targets[index + 1]? = some names ∧ names.className = className
  entry : ∀ text, job.entry = .ok text → ∃ s before entries after entry,
    job.project.sprites[index]? = some s ∧
    text = "\n".intercalate (before ++ "const sprites = \x7b" :: entries ++ "\x7d;" :: after) ∧
    List.Forall₂ (fun sprite entry => spriteSource sprite.1 sprite.2 = .ok entry)
      (job.classNames.tail.zip job.project.sprites) entries ∧
    spriteSource className s = .ok entry ∧ entries.filter (isEntry className) = [entry]

theorem isSprite_of_findIdx? (hnames : Name.assign job.project = .ok job.names) {author : Value}
    {i : Nat} {names : Name.TargetNames}
    (hfirst : job.project.sprites.findIdx? (·.name.same author) = some i)
    (hnamed : job.names.targets[i + 1]? = some names) : IsSprite job author i names.className := by
  refine ⟨hfirst, ⟨names, hnamed, rfl⟩, fun text htext => ?_⟩
  obtain ⟨hclasses, htargets⟩ := Name.Table.collisionFree_of_assign hnames
  obtain ⟨before, entries, after, rfl, hentries⟩ := entry_eq_ok htext
  obtain ⟨hi, -⟩ := List.findIdx?_eq_some_iff_getElem.1 hfirst
  have hsprite := List.getElem?_eq_getElem hi
  have hlength : job.classNames.tail.length ≤ job.project.sprites.length := by
    have := htargets.length_eq
    simp only [Project.targets, List.length_cons, List.length_map] at this
    simp only [Job.classNames, List.length_tail, List.length_map]
    omega
  have hmem : (names.className, job.project.sprites[i]) ∈ job.classNames.tail.zip
      job.project.sprites := by
    refine List.mem_of_getElem? (i := i) (List.getElem?_zip_eq_some.2 ⟨?_, hsprite⟩)
    rw [List.getElem?_tail, Job.classNames, List.getElem?_map, hnamed]
    rfl
  obtain ⟨entry, hentry, hfilter⟩ := filter_isEntry hclasses hlength hentries hmem
  exact ⟨_, before, entries, after, entry, hsprite, rfl, hentries, hentry, hfilter⟩

theorem isSprite_of_spriteClass? (hnames : Name.assign job.project = .ok job.names) {author : Value}
    {className : String} (h : job.names.spriteClass? author = some className) :
    ∃ index, IsSprite job author index className := by
  obtain ⟨i, names, hfirst, hnamed, rfl⟩ := Name.spriteClass?_eq_some hnames h
  exact ⟨i, isSprite_of_findIdx? hnames hfirst hnamed⟩

/-! ### Properties of other targets -/

/-- The target that a choice stands for, and the source for it. -/
inductive Asked (job : Job) (choice : Value) : Nat → String → Prop
  | stage (hstage : choice.isText "_stage_" = true) : Asked job choice 0 "this.stage"
  | sprite {index : Nat} {className : String} (hstage : choice.isText "_stage_" = false)
      (hsprite : IsSprite job choice index className) :
      Asked job choice (index + 1) ("this.sprites[" ++ Text.literal className ++ "]")

variable {ctx : Context}

theorem asked_of_ownerOf (hctx : IsContext job ctx) {choice : Value} {owner : Nat} {phrase : Phrase}
    (h : ownerOf ctx choice = some (owner, phrase)) : ∃ target, Asked job choice owner target ∧
      ∀ slots readers locals, (phrase.render slots readers locals).result = .ok target := by
  unfold ownerOf at h
  split_ifs at h with hstage
  · cases h
    exact ⟨_, .stage hstage, fun _ _ _ => rfl⟩
  · split at h
    · next i hi =>
      obtain ⟨names, hnamed, hpair⟩ := Option.map_eq_some_iff.1 h
      cases hpair
      obtain ⟨index, hfirst, rfl⟩ := Option.map_eq_some_iff.1 hi
      rw [hctx.project] at hfirst
      rw [hctx.names] at hnamed
      have hsprite := isSprite_of_findIdx? hctx.assigned hfirst hnamed
      exact ⟨_, .sprite (Bool.eq_false_iff.2 hstage) hsprite, fun _ _ _ => rfl⟩
    · cases h

theorem not_asked_of_ownerOf (hctx : IsContext job ctx) {choice : Value}
    (h : ownerOf ctx choice = none) (owner : Nat) (target : String) :
    ¬ Asked job choice owner target := by
  unfold ownerOf at h
  rintro (hstage | ⟨hstage, hsprite⟩)
  · rw [if_pos hstage] at h
    cases h
  · obtain ⟨names, hnamed, -⟩ := hsprite.named
    rw [if_neg (Bool.eq_false_iff.1 hstage), Context.spriteIndex?, hctx.project, hsprite.first] at h
    dsimp only [Option.map_some] at h
    rw [hctx.names, hnamed] at h
    cases h

theorem propertyPlan_eq_ok {slots : Slots} {choice : Value} {p : Plan}
    (h : propertyPlan ctx slots choice = .ok p) :
    ∃ property, slots.choice "PROPERTY" = .ok property ∧
      (ownerOf ctx choice = none ∧ p = .missing "sprite" choice ∨
        ∃ owner phrase, ownerOf ctx choice = some (owner, phrase) ∧
          ((∃ member shape, propertyMember? property = some (member, shape) ∧
              p = .phrase (phrase ++ .text member) shape) ∨
            propertyMember? property = none ∧
              ((∃ i name, ctx.property? .variable (fun _ name => name.same property) owner =
                some (i, name) ∧
                  p = .phrase (phrase ++ ".vars." ++ .name name) .any) ∨
                ctx.property? .variable (fun _ name => name.same property) owner = none ∧
                  p = .missing "variable" property))) := by
  obtain ⟨property, hproperty, h⟩ := Outcome.bind_eq_ok.1 h
  refine ⟨property, hproperty, ?_⟩
  split at h
  · next hnone => exact .inl ⟨hnone, (Outcome.pure_eq_ok.1 h).symm⟩
  · next owner phrase howner =>
    refine .inr ⟨owner, phrase, howner, ?_⟩
    obtain ⟨key, hkey, h⟩ := Outcome.bind_eq_ok.1 h
    obtain rfl : property = key := by
      unfold Value.asKey at hkey
      split_ifs at hkey
      exact Except.ok.inj hkey
    split at h
    · next member shape hmember =>
        exact .inl ⟨member, shape, hmember, (Outcome.pure_eq_ok.1 h).symm⟩
    · next hmember =>
      refine .inr ⟨hmember, ?_⟩
      split at h
      · next i name hname => exact .inl ⟨i, name, hname, (Outcome.pure_eq_ok.1 h).symm⟩
      · next hname => exact .inr ⟨hname, (Outcome.pure_eq_ok.1 h).symm⟩

/-- The source of a block that refers to data: it shows the member that holds what the reference
means, or there is nothing that it means. -/
def DataBound (job : Job) (ctx : Context) (use : DataUse) (slots : Slots) (source : String) :
    Prop :=
  ∃ ref?, slots.dataRef? use.slot = .ok ref? ∧
    ((∃ ref owner d property, ref? = some ref ∧ ctx.resolve use.kind ref = some (owner, property) ∧
        Means job.project ctx.targetIndex use.kind ref owner d ∧ IsBound job owner d property ∧
        ShowsMember (memberSource use.container ctx.targetIndex owner property) source) ∨
      (∀ ref, ref? = some ref → ∀ owner d,
        ¬ Means job.project ctx.targetIndex use.kind ref owner d) ∧
        ∃ spoken, Literal.spoken ((ref?.map (·.name)).getD (.text "")) = .ok spoken ∧
          source = Plan.missingSource use.kind.word spoken)

/-- The source of a block that asks for a property of a chosen target: a member that every target
has, the member that holds the variable with the property's name, or a note that there is no such
target or no such variable. It is a placeholder if the choice is left open. -/
def PropertyBound (job : Job) (slots : Slots) (source : String) : Prop :=
  slots.isOpenMenu "OBJECT" = true ∧
    source = Plan.placeholderSource "sensing_of with a reporter target" ∨
  ∃ choice property, slots.choice "OBJECT" = .ok choice ∧ slots.choice "PROPERTY" = .ok property ∧
    ((∀ owner target, ¬ Asked job choice owner target) ∧
        (∃ spoken, Literal.spoken choice = .ok spoken ∧
          source = Plan.missingSource "sprite" spoken) ∨
      ∃ owner target, Asked job choice owner target ∧
        ((∃ member shape, propertyMember? property = some (member, shape) ∧
          source = target ++ member) ∨
          propertyMember? property = none ∧
            ((∃ d name, Owns job.project owner .variable d ∧ d.name.same property = true ∧
              IsBound job owner d name ∧
                source = target ++ ".vars." ++ name) ∨
              (∀ d, Owns job.project owner .variable d → d.name.same property = false) ∧
                ∃ spoken, Literal.spoken property = .ok spoken ∧
                  source = Plan.missingSource "variable" spoken)))

variable {b : Block} {desired : Shape} {locals : Name.Space} {f : Fragment}

theorem dataBound_of_blockFragment (hctx : IsContext job ctx)
    (hids : ∀ t ∈ job.project.targets, ((dataOf t).map (·.id)).Nodup) {use : DataUse}
    (huse : dataUse? b.kind = some use) (hf : (blockFragment ctx b desired locals).result = .ok f) :
    DataBound job ctx use b.inputs f.source := by
  obtain ⟨ref?, href, ⟨ref, owner, property, d, rfl, hresolve, hmeans, hholds,
      hmember⟩ | hmissing⟩ :=
    blockFragment_reference hctx.assign huse hf
  · rw [hctx.project] at hmeans
    rw [hctx.names] at hholds
    exact ⟨some ref, href, .inl ⟨ref, owner, d, property, rfl, hresolve, hmeans,
      isBound_of_holds hctx.assigned hids hmeans.owns hholds, hmember⟩⟩
  · rw [hctx.project] at hmissing
    exact ⟨ref?, href, .inr hmissing⟩

theorem propertyBound_of_blockFragment (hctx : IsContext job ctx)
    (hids : ∀ t ∈ job.project.targets, ((dataOf t).map (·.id)).Nodup)
    (hkind : b.kind = .known (.sensing .propertyOf))
    (hf : (blockFragment ctx b desired locals).result = .ok f) :
    PropertyBound job b.inputs f.source := by
  obtain ⟨kind, slots, id⟩ := b
  cases hkind
  obtain ⟨p, hplan, hf⟩ := blockFragment_eq_ok.1 hf
  change withChoice slots "OBJECT" "sensing_of" (propertyPlan ctx slots) = .ok p at hplan
  unfold withChoice at hplan
  split_ifs at hplan with hmenu
  · cases hplan
    exact .inl ⟨hmenu, Plan.fragment_placeholder_eq_ok hf⟩
  refine .inr ?_
  obtain ⟨choice, hchoice, hplan⟩ := Outcome.bind_eq_ok.1 hplan
  obtain ⟨property, hproperty, ⟨hnone, rfl⟩ | ⟨owner, phrase, howner, hplan⟩⟩ :=
    propertyPlan_eq_ok hplan
  · exact ⟨choice, property, hchoice, hproperty,
      .inl ⟨not_asked_of_ownerOf hctx hnone, Plan.fragment_missing_eq_ok hf⟩⟩
  obtain ⟨target, hasked, htarget⟩ := asked_of_ownerOf hctx howner
  refine ⟨choice, property, hchoice, hproperty, .inr ⟨owner, target, hasked, ?_⟩⟩
  rcases hplan with ⟨member, shape, hmember, rfl⟩ | ⟨hmember, ⟨i, name, hname, rfl⟩ | ⟨hname, rfl⟩⟩
  · obtain ⟨source, hsource, rfl⟩ := Plan.fragment_phrase_eq_ok.1 hf
    obtain ⟨head, tail, hhead, htail, rfl⟩ := Phrase.render_append.1 hsource
    rw [htarget] at hhead
    cases hhead
    cases htail
    exact .inl ⟨member, shape, hmember, rfl⟩
  · obtain ⟨rfl, d, howns, hsame, hholds⟩ := property?_eq_some hname
    obtain ⟨source, hsource, rfl⟩ := Plan.fragment_phrase_eq_ok.1 hf
    obtain ⟨start, tail, hstart, htail, rfl⟩ := Phrase.render_append.1 hsource
    obtain ⟨head, middle, hhead, hmiddle, rfl⟩ := Phrase.render_append.1 hstart
    rw [htarget] at hhead
    cases hhead
    cases hmiddle
    cases htail
    rw [hctx.project] at howns
    rw [hctx.names] at hholds
    exact .inr ⟨hmember,
      .inl ⟨d, name, howns, hsame, isBound_of_holds hctx.assigned hids howns hholds, rfl⟩⟩
  · refine .inr ⟨hmember, .inr ⟨fun d howns => ?_, Plan.fragment_missing_eq_ok hf⟩⟩
    rw [← hctx.project] at howns
    exact property?_eq_none hctx.assign hname howns

/-- In every project whose targets give their data different ids, what the source of a block looks
for is there: data in the constructor of its owner, a sprite in the record of sprites. -/
theorem references_bound {project : Project} {options : Options}
    (hjob : Job.make project options = .ok job)
    (hids : ∀ t ∈ project.targets, ((dataOf t).map (·.id)).Nodup) :
    (∀ author className, job.names.spriteClass? author = some className →
      ∃ index, IsSprite job author index className) ∧
    ∀ targetIndex scriptIndex warp ctx,
      Context.make project job.names targetIndex scriptIndex warp = .ok ctx →
      ∀ b desired locals f, (blockFragment ctx b desired locals).result = .ok f →
        (∀ use, dataUse? b.kind = some use → DataBound job ctx use b.inputs f.source) ∧
        (b.kind = .known (.sensing .propertyOf) → PropertyBound job b.inputs f.source) := by
  obtain ⟨rfl, hnames⟩ := Job.make_eq_ok hjob
  refine ⟨fun author className h => isSprite_of_spriteClass? hnames h, ?_⟩
  intro targetIndex scriptIndex warp ctx hmake b desired locals f hf
  have hctx := isContext_of_make hjob hmake
  constructor
  · intro use huse
    exact dataBound_of_blockFragment hctx hids huse hf
  · intro hkind
    exact propertyBound_of_blockFragment hctx hids hkind hf

/-- Each target has a score of its own, and two sprites share their author's name. -/
def scoreProject : Project where
  stage := { name := .text "Stage", vars := [{ name := .text "score", id := "s" }] }
  sprites := [
    { name := .text "Cat", vars := [{ name := .text "score", value := .int 7, id := "c" }],
      scripts := [⟨[], .text "play", .int 0, .int 0⟩] },
    { name := .text "Cat", vars := [{ name := .text "score", id := "c" }] }]

/-- A reference whose id has gone stale, so that only the name is left to go by. -/
def setScore : Block :=
  .mk (.known (.data .setVariableTo))
    [("VARIABLE", .reference .variable ⟨.text "stale", .text "score"⟩),
      ("VALUE", .plain "number" (.int 1))] "a"

/-- The score of a sprite whose name is shared. -/
def scoreOfCat : Block :=
  .mk (.known (.sensing .propertyOf))
    [("OBJECT", .plain "string" (.text "Cat")), ("PROPERTY", .plain "string" (.text "score"))] "b"

theorem scoreProject_bound : ∃ job ctx set asked entry file,
    Job.make scoreProject {} = .ok job ∧
    (∀ t ∈ scoreProject.targets, ((dataOf t).map (·.id)).Nodup) ∧
    Context.make scoreProject job.names 1 0 false = .ok ctx ∧
    (blockFragment ctx setScore .stack ctx.locals).result = .ok set ∧
    set.source = "this.vars.score = 1" ∧
    DataBound job ctx ⟨"VARIABLE", .variable, "vars"⟩ setScore.inputs set.source ∧
    (blockFragment ctx scoreOfCat .any ctx.locals).result = .ok asked ∧
    asked.source = "this.sprites[\"Cat\"].vars.score" ∧
    PropertyBound job scoreOfCat.inputs asked.source ∧
    (∃ index, IsSprite job (.text "Cat") index "Cat") ∧ job.entry = .ok entry ∧
    (job.targetFile 1 ctx.target ctx.targetNames "http://host/Cat.js").result = .ok file ∧
    KeepsLines job 1 := by
  have hrun : (do
      let job ← Job.make scoreProject {}
      let ctx ← Context.make scoreProject job.names 1 0 false
      let set ← (blockFragment ctx setScore .stack ctx.locals).result
      let asked ← (blockFragment ctx scoreOfCat .any ctx.locals).result
      let _ ← job.entry
      let _ ← (job.targetFile 1 ctx.target ctx.targetNames "http://host/Cat.js").result
      let code ← (targetCode scoreProject job.names 1).result
      return (job.names.spriteClass? (.text "Cat"), set.source, asked.source,
        code.triggers)).toOption =
      some (some "Cat", "this.vars.score = 1", "this.sprites[\"Cat\"].vars.score", []) := by
    decide +kernel
  obtain ⟨job, hjob, hrun⟩ := Outcome.bind_eq_ok.1 (Outcome.toOption_eq_some.1 hrun)
  obtain ⟨ctx, hctx, hrun⟩ := Outcome.bind_eq_ok.1 hrun
  obtain ⟨set, hset, hrun⟩ := Outcome.bind_eq_ok.1 hrun
  obtain ⟨asked, hasked, hrun⟩ := Outcome.bind_eq_ok.1 hrun
  obtain ⟨entry, hentry, hrun⟩ := Outcome.bind_eq_ok.1 hrun
  obtain ⟨file, hfile, hrun⟩ := Outcome.bind_eq_ok.1 hrun
  obtain ⟨code, hcode, hrun⟩ := Outcome.bind_eq_ok.1 hrun
  have hsources := Outcome.pure_eq_ok.1 hrun
  simp only [Prod.mk.injEq] at hsources
  obtain ⟨hclass, hset', hasked', htriggers⟩ := hsources
  have hproject := (Job.make_eq_ok hjob).1
  have hkeeps : KeepsLines job 1 := by
    constructor
    · intro t ht
      rw [hproject] at ht
      cases ht
      have hkeys : ∀ v ∈ (scoreProject.targets[1]).values, v.keys = [] := by decide +kernel
      intro v hv key hkey
      rw [hkeys v hv] at hkey
      cases hkey
    · intro code' hcode'
      rw [hproject, hcode] at hcode'
      cases hcode'
      rw [htriggers]
      exact List.forall_mem_nil _
  have hids : ∀ t ∈ scoreProject.targets, ((dataOf t).map (·.id)).Nodup := by decide
  obtain ⟨hsprites, hblocks⟩ := references_bound hjob hids
  exact ⟨job, ctx, set, asked, entry, file, hjob, hids, hctx, hset, hset',
    (hblocks 1 0 false ctx hctx setScore .stack ctx.locals set hset).1 _ rfl, hasked, hasked',
    (hblocks 1 0 false ctx hctx scoreOfCat .any ctx.locals asked hasked).2 rfl, hsprites _ _ hclass,
    hentry, hfile, hkeeps⟩

/-- A block that sets the variable `b`. -/
def setB : Block :=
  .mk (.known (.data .setVariableTo))
    [("VARIABLE", .reference .variable ⟨.text "v2", .text "b"⟩),
      ("VALUE", .plain "number" (.int 1))]
    "s"

/-- A variable that starts with a record, the key of which runs over three lines. -/
def splitKeyProject : Project where
  stage := {
    name := .text "Stage"
    vars := [
      { name := .text "a", value := .record [("k\nthis.vars.b = 0;\n", .int 1)], id := "v1" },
      { name := .text "b", id := "v2" }]
    scripts := [⟨[.mk (.known (.event .whenFlagClicked)) [] "h", setB], .text "play", .int 0,
      .int 0⟩] }

/-- The key of a record is written as it stands, and so the constructor sets `b` on two lines. -/
theorem splitKey_set_twice : ∃ job ctx f text lines, Job.make splitKeyProject {} = .ok job ∧
    (∀ t ∈ splitKeyProject.targets, ((dataOf t).map (·.id)).Nodup) ∧
    Context.make splitKeyProject job.names 0 0 false = .ok ctx ∧
    (blockFragment ctx setB .stack ctx.locals).result = .ok f ∧ f.source = "this.vars.b = 1" ∧
    (job.targetFile 0 ctx.target ctx.targetNames "http://host/Stage.js").result = .ok text ∧
    IsFile job 0 ctx.target ctx.targetNames lines text ∧
    (textLines ("\n".intercalate lines)).filter (initialises "b") =
      ["this.vars.b = 0;", "this.vars.b = 0;"] := by
  have hrun : (do
      let job ← Job.make splitKeyProject {}
      let ctx ← Context.make splitKeyProject job.names 0 0 false
      let f ← (blockFragment ctx setB .stack ctx.locals).result
      let _ ← (job.targetFile 0 ctx.target ctx.targetNames "http://host/Stage.js").result
      let code ← (targetCode job.project job.names 0).result
      let lines ← constructorLines job true ctx.target ctx.targetNames code.triggers
      return (f.source, lines.isEmpty,
        (lines.flatMap textLines).filter (initialises "b"))).toOption =
      some ("this.vars.b = 1", false, ["this.vars.b = 0;", "this.vars.b = 0;"]) := by decide +kernel
  obtain ⟨job, hjob, hrun⟩ := Outcome.bind_eq_ok.1 (Outcome.toOption_eq_some.1 hrun)
  obtain ⟨ctx, hctx, hrun⟩ := Outcome.bind_eq_ok.1 hrun
  obtain ⟨f, hf, hrun⟩ := Outcome.bind_eq_ok.1 hrun
  obtain ⟨text, htext, hrun⟩ := Outcome.bind_eq_ok.1 hrun
  obtain ⟨lines, hfile⟩ := targetFile_eq_ok htext
  obtain ⟨runtime, code, hcode, hlines, -⟩ := id hfile
  obtain ⟨code', hcode', hrun⟩ := Outcome.bind_eq_ok.1 hrun
  rw [hcode] at hcode'
  cases hcode'
  obtain ⟨lines', hlines', hrun⟩ := Outcome.bind_eq_ok.1 hrun
  rw [show constructorLines job true _ _ _ = .ok lines from hlines] at hlines'
  cases hlines'
  have hresult := Outcome.pure_eq_ok.1 hrun
  simp only [Prod.mk.injEq] at hresult
  obtain ⟨hsource, hempty, hset⟩ := hresult
  rw [← textLines_intercalate (List.isEmpty_eq_false_iff.1 hempty)] at hset
  exact ⟨job, ctx, f, text, lines, hjob, by decide, hctx, hf, hsource, htext, hfile, hset⟩

end Export

end ScratchExport
