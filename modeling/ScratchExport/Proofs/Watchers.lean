import ScratchExport.Proofs.Bindings

/-!
# Watchers that scripts show and hide

A block that shows or hides a watcher names data, and the constructor of the data's owner has to
make the watcher. It does so for data that is visible from the start and for data that a block of
some script refers to (`Toggled`). The two parts of the exporter read a reference in different ways:
the compiler goes by name when no data has the id of the reference, the constructor goes by name
only when the reference has no id at all. So a reference is safe if it is `Current`, and a reference
with a stale id makes code that toggles a watcher which does not exist.
-/

namespace ScratchExport

theorem Outcome.exists_of_mapM_eq_ok {α β : Type} {f : α → Except Fault β} {as : List α}
    {bs : List β} (h : as.mapM f = .ok bs) {a : α} (ha : a ∈ as) : ∃ b ∈ bs, f a = .ok b := by
  obtain ⟨b, hpair⟩ := Compile.exists_mem_zip (mapM_eq_ok h) ha
  exact ⟨b, (List.of_mem_zip hpair).2, List.forall₂_zip (mapM_eq_ok h) hpair⟩

namespace Name

theorem text_of_assignData {space : Space} {data result : List (String × String)}
    {entries : List (String × Value)} (h : assignData space data entries = .ok result) :
    ∀ entry ∈ entries, ∃ s, entry.2 = .text s := by
  induction entries generalizing space data with
  | nil => exact fun _ hin => by cases hin
  | cons entry rest ih =>
    obtain ⟨c, hc, h⟩ := Outcome.bind_eq_ok.1 h
    obtain ⟨s, hs, -⟩ := candidate_eq_ok.1 hc
    exact List.forall_mem_cons.2 ⟨⟨s, hs⟩, ih h⟩

theorem text_of_assign {p : Project} {table : Table} (h : assign p = .ok table) {t : Target}
    (ht : t ∈ p.targets) {d : Export.Datum} (hd : d ∈ Export.dataOf t) : ∃ s, d.name = .text s := by
  obtain ⟨result, hresult, -⟩ := Outcome.bind_eq_ok.1 h
  obtain ⟨names, hpair⟩ := Compile.exists_mem_zip (assignTargets_eq_ok hresult) ht
  obtain ⟨isStage, className, hnames⟩ := List.forall₂_zip (assignTargets_eq_ok hresult) hpair
  obtain ⟨data, candidates, reachable, params, hdata, -⟩ := assignTarget_eq_ok hnames
  refine text_of_assignData hdata (d.id, d.name) ?_
  rcases List.mem_append.1 hd with hd | hd
  · obtain ⟨v, hv, rfl⟩ := List.mem_map.1 hd
    exact List.mem_append_right _ (List.mem_map_of_mem hv)
  · obtain ⟨l, hl, rfl⟩ := List.mem_map.1 hd
    exact List.mem_append_left _ (List.mem_map_of_mem hl)

end Name

namespace Export
open Compile

/-! ### Data that scripts refer to -/

/-- A block in a script of the owner, or of any target if the owner is the stage, shows or hides the
watcher of data. -/
def Toggled (project : Project) (owner : Nat) (d : Datum) : Prop :=
  ∃ i t, (i = owner ∨ owner = 0) ∧ project.targets[i]? = some t ∧
    ∃ s ∈ t.scripts, ∃ b ∈ s.nested, ∃ ref, watcherRef? b = .ok (some ref) ∧ refersTo ref d = true

variable {project : Project} {t : Target} {d : Datum} {owner : Nat}

theorem mem_watcherRefs {refs : List DataRef} (h : watcherRefs t = .ok refs) {ref : DataRef} :
    ref ∈ refs ↔ ∃ s ∈ t.scripts, ∃ b ∈ s.nested, watcherRef? b = .ok (some ref) := by
  obtain ⟨blocks, hblocks, h⟩ := Outcome.bind_eq_ok.1 h
  obtain ⟨found, hfound, h⟩ := Outcome.bind_eq_ok.1 h
  have hwalk {s : Script} {bs : List Block} (h : s.walk = .ok bs) : s.nested = bs := by
    unfold Script.walk at h
    split at h
    · cases h
    · exact Except.ok.inj h
  rw [← Outcome.pure_eq_ok.1 h, List.mem_filterMap]
  constructor
  · rintro ⟨ref?, hmem, rfl⟩
    obtain ⟨b, hb, href⟩ := Outcome.mem_of_mapM_eq_ok hfound hmem
    obtain ⟨bs, hbs, hb⟩ := List.mem_flatten.1 hb
    obtain ⟨s, hs, hsbs⟩ := Outcome.mem_of_mapM_eq_ok hblocks hbs
    exact ⟨s, hs, b, hwalk hsbs ▸ hb, href⟩
  · rintro ⟨s, hs, b, hb, href⟩
    obtain ⟨bs, hbs, hsbs⟩ := Outcome.exists_of_mapM_eq_ok hblocks hs
    rw [hwalk hsbs] at hb
    obtain ⟨ref?, hmem, href'⟩ :=
      Outcome.exists_of_mapM_eq_ok hfound (List.mem_flatten_of_mem hbs hb)
    rw [href] at href'
    cases href'
    exact ⟨some ref, hmem, rfl⟩

theorem mem_watchedIds {watched : List String} (h : watchedIds project t (owner == 0) = .ok watched)
    (ht : project.targets[owner]? = some t) (hids : ((dataOf t).map (·.id)).Nodup)
    (hd : d ∈ dataOf t) : d.id ∈ watched ↔ Toggled project owner d := by
  obtain ⟨refs, hrefs, h⟩ := Outcome.bind_eq_ok.1 h
  have hscanned {other : Target} : other ∈ (if (owner == 0) = true then project.targets else [t]) ↔
      ∃ i, (i = owner ∨ owner = 0) ∧ project.targets[i]? = some other := by
    split_ifs with hstage
    · rw [List.mem_iff_getElem?]
      simp only [beq_iff_eq.1 hstage, or_true, true_and]
    · simp only [mt beq_iff_eq.2 hstage, or_false, exists_eq_left, ht, List.mem_singleton,
        Option.some.injEq]
      exact eq_comm
  have hany : refs.flatten.any (refersTo · d) = true ↔ Toggled project owner d := by
    simp only [List.any_eq_true, List.mem_flatten]
    constructor
    · rintro ⟨ref, ⟨found, hfound, href⟩, hrefers⟩
      obtain ⟨other, hother, hotherRefs⟩ := Outcome.mem_of_mapM_eq_ok hrefs hfound
      obtain ⟨i, hi, hget⟩ := hscanned.1 hother
      obtain ⟨s, hs, b, hb, hblock⟩ := (mem_watcherRefs hotherRefs).1 href
      exact ⟨i, other, hi, hget, s, hs, b, hb, ref, hblock, hrefers⟩
    · rintro ⟨i, other, hi, hget, s, hs, b, hb, ref, hblock, hrefers⟩
      obtain ⟨found, hfound, hotherRefs⟩ :=
        Outcome.exists_of_mapM_eq_ok hrefs (hscanned.2 ⟨i, hi, hget⟩)
      exact ⟨ref, ⟨found, hfound, (mem_watcherRefs hotherRefs).2 ⟨s, hs, b, hb, hblock⟩⟩, hrefers⟩
  rw [← Outcome.pure_eq_ok.1 h, List.mem_map, ← hany]
  constructor
  · rintro ⟨other, hother, heq⟩
    obtain ⟨hother, hrefers⟩ := List.mem_filter.1 hother
    rwa [List.inj_on_of_nodup_map hids hother hd heq] at hrefers
  · intro hrefers
    exact ⟨d, List.mem_filter.2 ⟨hd, hrefers⟩, rfl⟩

/-! ### Watchers in a constructor -/

/-- The line makes the watcher of a property. -/
def makesWatcher (property line : String) : Bool :=
  begins ("this.watchers." ++ property ++ " = new Watcher(") line

theorem makesWatcher_eq_false {line : String} (h : begins "this.watchers." line = false)
    (property : String) : makesWatcher property line = false := by
  rw [makesWatcher, String.append_assoc]
  exact begins_longer_eq_false h _

theorem makesWatcher_watcherSource {isStage : Bool} {property property' source : String}
    (hsource : watcherSource t isStage property' d = .ok source) (h : Name.IsIdentifier property)
    (h' : Name.IsIdentifier property') :
    makesWatcher property source = true ↔ property = property' := by
  obtain ⟨fields, rfl⟩ := watcherSource_eq_record hsource
  have hblank : Name.isIdentifierTail ' ' = false := by decide
  have hiff := begins_word_iff (not_mem_identifier h hblank) (not_mem_identifier h' hblank)
    (show " = new Watcher(".toList = _ from rfl) "this.watchers."
    ("\x7b\n" ++ ",\n".intercalate fields ++ "\n\x7d" ++ ");")
  rw [recordSource]
  simpa only [makesWatcher, String.append_assoc] using hiff

/-- A constructor makes the watchers of the data that is visible from the start or toggled by a
script. -/
theorem exists_makesWatcher_iff {job : Job} {names : Name.TargetNames}
    {members triggers lines : List String} {property : String}
    (hfree : names.CollisionFree members t) (hids : ((dataOf t).map (·.id)).Nodup)
    (htriggers : ∀ s ∈ triggers, s.toList.head? = some 'n')
    (h : constructorLines job (owner == 0) t names triggers = .ok lines)
    (ht : job.project.targets[owner]? = some t) (hd : d ∈ dataOf t)
    (hproperty : names.data.lookup d.id = some property) :
    (∃ line ∈ lines, makesWatcher property line = true) ↔
      d.visible.truthy = true ∨ Toggled job.project owner d := by
  obtain ⟨before, data, watched, watchers, hbefore, hdata, hwatched, hwatchers, rfl⟩ :=
    constructorLines_eq_ok htriggers h
  rw [← mem_watchedIds hwatched ht hids hd, ← List.contains_iff_mem, ← Bool.or_eq_true]
  constructor
  · rintro ⟨line, hline, hmakes⟩
    -- The line can only be among the watchers: all others begin in another way.
    have hbegins : begins "this.watchers." line ≠ false := fun hfalse => by
      rw [makesWatcher_eq_false hfalse] at hmakes
      cases hmakes
    simp only [List.mem_append, List.mem_singleton] at hline
    obtain ((hline | hline) | rfl) | hline := hline
    · exact absurd (hbefore line hline).watcher hbegins
    · obtain ⟨d', hpair⟩ := exists_mem_zip hdata.flip hline
      obtain ⟨property', value, -, -, rfl⟩ := dataLine_eq_ok (List.forall₂_zip hdata.flip hpair)
      simp only [String.append_assoc] at hbegins
      exact absurd (begins_append_eq_false (by decide) (by decide) _) hbegins
    · exact absurd rfl hbegins
    · obtain ⟨line?, hmem, rfl⟩ := List.mem_filterMap.1 hline
      obtain ⟨d', hpair⟩ := exists_mem_zip hwatchers.flip hmem
      rcases watcherLine?_eq_ok (List.forall₂_zip hwatchers.flip hpair) with
        ⟨hshown, property', source, hproperty', hsource, heq⟩ | ⟨-, heq⟩
      · cases heq
        obtain rfl := (makesWatcher_watcherSource hsource (property_identifier hfree hproperty)
          (property_identifier hfree hproperty')).1 hmakes
        -- The property has one id, and the id has one datum.
        have hid := hfree.data.injective _ _ _ hproperty' hproperty
        rwa [List.inj_on_of_nodup_map hids (List.of_mem_zip hpair).2 hd hid] at hshown
      · cases heq
  · intro hshown
    obtain ⟨line?, hpair⟩ := exists_mem_zip hwatchers hd
    rcases watcherLine?_eq_ok (List.forall₂_zip hwatchers hpair) with
      ⟨-, property', source, hproperty', hsource, rfl⟩ | ⟨hhidden, -⟩
    · rw [hproperty] at hproperty'
      cases hproperty'
      have hidentifier := property_identifier hfree hproperty
      refine ⟨source,
        List.mem_append_right _ (List.mem_filterMap.2 ⟨some source, (List.of_mem_zip hpair).2,
        rfl⟩), ?_⟩
      exact (makesWatcher_watcherSource hsource hidentifier hidentifier).2 rfl
    · rw [hshown] at hhidden
      cases hhidden

/-! ### References to watchers -/

/-- What a slot holds is read alike by the compiler and by the constructors: a reference with the id
of data in scope or with no id, or a value with one text. -/
inductive Current (project : Project) (index : Nat) (kind : DataKind) : Input → Prop
  | id {word : DataKind} {ref : DataRef} {owner : Nat} {d : Datum}
      (hscope : owner = index ∨ owner = 0)
      (howns : Owns project owner kind d) (hid : ref.id = .text d.id) :
        Current project index kind (.reference word ref)
  | name {word : DataKind} {ref : DataRef} (hid : ref.id = .null) :
      Current project index kind (.reference word ref)
  | plain {word : String} {v : Value} (htext : Literal.spoken v = .ok v.display) :
      Current project index kind (.plain word v)
  | arguments (items : List Argument) : Current project index kind (.arguments items)
  | values (items : List Input) : Current project index kind (.values items)

variable {index : Nat} {kind : DataKind} {ref : DataRef} {input : Input}

/-- What a block does that shows or hides a watcher. -/
structure Toggle where
  slot : String
  kind : DataKind
  visible : Bool

/-- The blocks that show or hide watchers. -/
def toggle? : BlockKind → Option Toggle
  | .known (.data .showVariable) => some ⟨"VARIABLE", .variable, true⟩
  | .known (.data .hideVariable) => some ⟨"VARIABLE", .variable, false⟩
  | .known (.data .showList) => some ⟨"LIST", .list, true⟩
  | .known (.data .hideList) => some ⟨"LIST", .list, false⟩
  | _ => none

theorem toggle?_eq_some {k : BlockKind} {w : Toggle} (h : toggle? k = some w) :
    watcherSlot? k = some w.slot ∧ k.label.asKey = .ok k.label ∧
      ∀ ctx slots desired locals, plan ctx k slots desired locals =
        watcherPlan ctx slots w.slot w.kind w.visible := by
  unfold toggle? at h
  split at h <;> cases h <;> exact ⟨rfl, rfl, fun _ _ _ _ => rfl⟩

variable {b : Block} {w : Toggle}

theorem dataRef?_eq_some (h : input.dataRef? = .ok (some ref)) :
    (∃ word, input = .reference word ref) ∨
    input.content ≠ .null ∧ ∃ s, Literal.spoken input.content = .ok s ∧ ref = ⟨.null, .text s⟩ := by
  unfold Input.dataRef? at h
  split at h
  · cases h
    exact .inl ⟨_, rfl⟩
  · split at h
    · cases h
    · next hnull =>
      obtain ⟨s, hs, h⟩ := Outcome.bind_eq_ok.1 h
      cases h
      exact .inr ⟨hnull, s, hs, rfl⟩

theorem watcherRef?_of_reference (hb : toggle? b.kind = some w) {word : DataKind}
    (hinput : b.input? w.slot = some (.reference word ref)) : watcherRef? b = .ok (some ref) := by
  obtain ⟨hslot, hlabel, -⟩ := toggle?_eq_some hb
  simp only [watcherRef?, hlabel, hslot, Option.bind_some, hinput]
  rfl

/-- A value in a slot is read as a name of data by both sides, which find the same name if it has
one text. -/
theorem watcherRef?_of_value (hb : toggle? b.kind = some w) (hinput : b.input? w.slot = some input)
    (hreference : ∀ word ref, input ≠ .reference word ref)
    (hvalue : input.literal? = some input.content)
    (htext : Literal.spoken input.content = .ok input.content.display)
    (href : input.dataRef? = .ok (some ref)) : watcherRef? b = .ok (some ref) := by
  obtain ⟨hslot, hlabel, -⟩ := toggle?_eq_some hb
  rcases dataRef?_eq_some href with ⟨word, heq⟩ | ⟨hnull, s, hs, rfl⟩
  · exact absurd heq (hreference word ref)
  rw [htext] at hs
  cases hs
  simp only [watcherRef?, hlabel, hslot, Option.bind_some, hinput, Block.literal, hvalue,
    Option.getD_some]
  generalize input.content = v at hnull
  cases input with
  | reference word ref => exact absurd rfl (hreference word ref)
  | _ =>
    cases v with
    | null => exact absurd rfl hnull
    | _ => rfl

theorem watcherRef?_of_current (hb : toggle? b.kind = some w)
    (hinput : b.input? w.slot = some input) (hcurrent : Current project index kind input)
    (href : input.dataRef? = .ok (some ref)) : watcherRef? b = .ok (some ref) := by
  cases hcurrent with
  | id | name =>
    cases href
    exact watcherRef?_of_reference hb hinput
  | plain htext => exact watcherRef?_of_value hb hinput (fun _ _ h => by cases h) rfl htext href
  | arguments | values =>
    exact watcherRef?_of_value hb hinput (fun _ _ h => by cases h) rfl rfl href

theorem refersTo_of_current (hcurrent : Current project index kind input)
    (href : input.dataRef? = .ok (some ref)) (hmeans : Means project index kind ref owner d)
    (hname : ∃ s, d.name = .text s) : refersTo ref d = true := by
  have hnamed (hid : ref.id = .null) : refersTo ref d = true := by
    obtain ⟨s, hs⟩ := hname
    rcases hmeans.found with heq | ⟨hsame, -⟩
    · rw [hid] at heq
      cases heq
    · rw [hs] at hsame
      simp only [refersTo, hid, Value.text_same_iff.1 hsame, hs]
      exact Value.text_same_iff.2 rfl
  rcases dataRef?_eq_some href with ⟨word, rfl⟩ | ⟨-, s, -, rfl⟩
  · cases hcurrent with
    | id hscope howns hid =>
      -- Data in scope has the id, so the meaning was not found by name.
      rcases hmeans.found with heq | ⟨-, hnone⟩
      · simp only [refersTo, heq]
        exact Value.text_same_iff.2 rfl
      · exact absurd hid (hnone _ hscope _ howns)
    | name hid => exact hnamed hid
  · exact hnamed rfl

theorem blockFragment_toggle {ctx : Context} (hnames : Name.assign ctx.project = .ok ctx.names)
    (hb : toggle? b.kind = some w) {desired : Shape} {locals : Name.Space} {f : Fragment}
    (hf : (blockFragment ctx b desired locals).result = .ok f) :
    ∃ ref?, Slots.dataRef? b.inputs w.slot = .ok ref? ∧
      ((∃ ref owner property d, ref? = some ref ∧
        Means ctx.project ctx.targetIndex w.kind ref owner d ∧
          Holds ctx.names owner d property ∧
          f.source = memberSource "watchers" ctx.targetIndex owner property ++ ".visible = " ++
            boolSource w.visible) ∨
        (∀ ref, ref? = some ref → ∀ owner d,
          ¬ Means ctx.project ctx.targetIndex w.kind ref owner d) ∧
          ∃ spoken, Literal.spoken ((ref?.map (·.name)).getD (.text "")) = .ok spoken ∧
            f.source = Plan.missingSource w.kind.word spoken) := by
  obtain ⟨k, slots, id⟩ := b
  obtain ⟨p, hplan, hf⟩ := blockFragment_eq_ok.1 hf
  have hcompiled :
      plan ctx k slots desired locals = watcherPlan ctx slots w.slot w.kind w.visible :=
    (toggle?_eq_some hb).2.2 ..
  rw [hcompiled] at hplan
  obtain ⟨ref?, href, ⟨ref, owner, property, d, rfl, -, hmeans, hholds, rfl⟩ | ⟨hnone, rfl⟩⟩ :=
    (watcherPlan_plans w.slot w.visible p hplan).means hnames
  · refine ⟨some ref, href, .inl ⟨ref, owner, property, d, rfl, hmeans, hholds, ?_⟩⟩
    obtain ⟨source, hsource, rfl⟩ := Plan.fragment_phrase_eq_ok.1 hf
    obtain ⟨start, tail, hstart, htail, rfl⟩ := Phrase.render_append.1 hsource
    obtain ⟨head, middle, hhead, hmiddle, rfl⟩ := Phrase.render_append.1 hstart
    rw [render_ownedPhrase] at hhead
    cases hhead
    cases hmiddle
    cases htail
    rfl
  · exact ⟨ref?, href, .inr ⟨hnone, Plan.fragment_missing_eq_ok hf⟩⟩

theorem toggled_of_current {names : Name.Table} {scriptIndex : Nat} {warp : Bool} {ctx : Context}
    (hnames : Name.assign project = .ok names)
    (hctx : Context.make project names index scriptIndex warp = .ok ctx)
    (hb : toggle? b.kind = some w) (hbody : b ∈ nestedStack ctx.script.body)
    (hcurrent : ∀ input, b.input? w.slot = some input → Current project index w.kind input)
    (href : Slots.dataRef? b.inputs w.slot = .ok (some ref))
    (hmeans : Means project index w.kind ref owner d) : Toggled project owner d := by
  obtain ⟨ht, -, hs, -⟩ := Context.make_eq_ok hctx
  obtain ⟨input, hinput⟩ : ∃ input, b.input? w.slot = some input := by
    cases hinput : b.input? w.slot with
    | some input => exact ⟨input, rfl⟩
    | none =>
      change b.inputs.lookup w.slot = none at hinput
      rw [Slots.dataRef?, hinput] at href
      cases href
  have href : input.dataRef? = .ok (some ref) := by
    change b.inputs.lookup w.slot = some input at hinput
    rwa [Slots.dataRef?, hinput] at href
  obtain ⟨owned, howned, hd⟩ := hmeans.owns.target
  have hname := Name.text_of_assign hnames (List.mem_of_getElem? howned) hd
  have hscope : index = owner ∨ owner = 0 := hmeans.scope.imp_left Eq.symm
  exact ⟨index, ctx.target, hscope, ht, ctx.script, List.mem_of_getElem? hs, b,
    mem_nested_of_mem_body hbody, ref,
    watcherRef?_of_current hb hinput (hcurrent input hinput) href,
    refersTo_of_current (hcurrent input hinput) href hmeans hname⟩

/-- The source of a block, in a script of the target at an index, that shows or hides a watcher: it
toggles the watcher of the data that the reference means, or there is nothing that it means. The
constructor of the owner makes that watcher exactly if the data is visible from the start or some
script toggles it; for a block in the body of the script whose reference is current, it does make
it. -/
def ToggleBound (job : Job) (index : Nat) (body : List Block) (b : Block) (w : Toggle)
    (source : String) : Prop :=
  ∃ ref?, Slots.dataRef? b.inputs w.slot = .ok ref? ∧
    ((∃ ref owner d property, ref? = some ref ∧ Means job.project index w.kind ref owner d ∧
        Holds job.names owner d property ∧
        source = memberSource "watchers" index owner property ++ ".visible = " ++
          boolSource w.visible ∧
        (EveryFile job owner fun lines => (∃ line ∈ lines, makesWatcher property line = true) ↔
          d.visible.truthy = true ∨ Toggled job.project owner d) ∧
        (b ∈ nestedStack body →
          (∀ input, b.input? w.slot = some input → Current job.project index w.kind input) →
          EveryFile job owner fun lines => ∃ line ∈ lines, makesWatcher property line = true)) ∨
      (∀ ref, ref? = some ref → ∀ owner d, ¬ Means job.project index w.kind ref owner d) ∧
        ∃ spoken, Literal.spoken ((ref?.map (·.name)).getD (.text "")) = .ok spoken ∧
          source = Plan.missingSource w.kind.word spoken)

/-- In every project whose targets give their data different ids, the watchers that scripts toggle
by current references exist. -/
theorem toggled_watchers_made {options : Options} {job : Job}
    (hjob : Job.make project options = .ok job)
    (hids : ∀ t ∈ project.targets, ((dataOf t).map (·.id)).Nodup) {targetIndex scriptIndex : Nat}
    {warp : Bool} {ctx : Context}
    (hctx : Context.make project job.names targetIndex scriptIndex warp = .ok ctx)
    (hb : toggle? b.kind = some w) {desired : Shape} {locals : Name.Space} {f : Fragment}
    (hf : (blockFragment ctx b desired locals).result = .ok f) :
    ToggleBound job targetIndex ctx.script.body b w f.source := by
  obtain ⟨rfl, hnames⟩ := Job.make_eq_ok hjob
  have hcontext := isContext_of_make hjob hctx
  obtain ⟨ref?, href, h⟩ := blockFragment_toggle hcontext.assign hb hf
  rw [hcontext.project, hcontext.names, (Context.make_eq_ok_place hctx).2] at h
  refine ⟨ref?, href, h.imp_left ?_⟩
  rintro ⟨ref, owner, property, d, rfl, hmeans, hholds, hsource⟩
  have hmade : EveryFile job owner fun lines =>
      (∃ line ∈ lines, makesWatcher property line = true) ↔
      d.visible.truthy = true ∨ Toggled job.project owner d := by
    refine everyFile_intro hnames hids
      fun t names _ code lines ht htargetNames hfree hnodup hcode hlines => ?_
    obtain ⟨hd, hlookup⟩ := hmeans.owns.at_target hholds ht htargetNames
    exact exists_makesWatcher_iff hfree hnodup (head?_targetCode hcode) hlines ht hd hlookup
  refine ⟨ref, owner, d, property, rfl, hmeans, hholds, hsource, hmade, fun hbody hcurrent => ?_⟩
  intro t names url text ht htargetNames htext
  obtain ⟨lines, hfile, hiff⟩ := hmade t names url text ht htargetNames htext
  exact ⟨lines, hfile, hiff.2 (.inr (toggled_of_current hnames hctx hb hbody hcurrent href hmeans))⟩

/-- A block that shows a score, by a reference with a given id. -/
def showScore (id : String) : Block :=
  .mk (.known (.data .showVariable)) [("VARIABLE", .reference .variable ⟨.text id, .text "score"⟩)]
    "b"

/-- A sprite whose script shows its score. -/
def showScoreProject (id : String) : Project where
  stage := { name := .text "Stage" }
  sprites := [
    { name := .text "Cat", vars := [{ name := .text "score", id := "v1" }],
      scripts := [⟨[.mk (.known (.event .whenFlagClicked)) [] "a", showScore id],
        .text "when_green_flag_clicked", .int 0, .int 0⟩] }]

theorem showScore_mem_body {id : String} {names : Name.Table} {ctx : Context}
    (hctx : Context.make (showScoreProject id) names 1 0 false = .ok ctx) :
    showScore id ∈ nestedStack ctx.script.body := by
  obtain ⟨ht, -, hs, -⟩ := Context.make_eq_ok hctx
  rw [← Option.some.inj ht] at hs
  rw [← Option.some.inj hs]
  exact List.mem_cons_self ..

theorem showScore_watcher_made : ∃ job ctx f text, Job.make (showScoreProject "v1") {} = .ok job ∧
    (∀ t ∈ (showScoreProject "v1").targets, ((dataOf t).map (·.id)).Nodup) ∧
    Context.make (showScoreProject "v1") job.names 1 0 false = .ok ctx ∧
    showScore "v1" ∈ nestedStack ctx.script.body ∧
    (∀ input, (showScore "v1").input? "VARIABLE" = some input →
      Current (showScoreProject "v1") 1 .variable input) ∧
    (blockFragment ctx (showScore "v1") .stack ctx.locals).result = .ok f ∧
    f.source = "this.watchers.score.visible = true" ∧
    (job.targetFile 1 ctx.target ctx.targetNames "http://host/Cat.js").result = .ok text ∧
    ToggleBound job 1 ctx.script.body (showScore "v1") ⟨"VARIABLE", .variable, true⟩ f.source := by
  have hrun : (do
      let job ← Job.make (showScoreProject "v1") {}
      let ctx ← Context.make (showScoreProject "v1") job.names 1 0 false
      let f ← (blockFragment ctx (showScore "v1") .stack ctx.locals).result
      let _ ← (job.targetFile 1 ctx.target ctx.targetNames "http://host/Cat.js").result
      return f.source).toOption = some "this.watchers.score.visible = true" := by decide +kernel
  obtain ⟨job, hjob, hrun⟩ := Outcome.bind_eq_ok.1 (Outcome.toOption_eq_some.1 hrun)
  obtain ⟨ctx, hctx, hrun⟩ := Outcome.bind_eq_ok.1 hrun
  obtain ⟨f, hf, hrun⟩ := Outcome.bind_eq_ok.1 hrun
  obtain ⟨text, htext, hrun⟩ := Outcome.bind_eq_ok.1 hrun
  have hids : ∀ t ∈ (showScoreProject "v1").targets, ((dataOf t).map (·.id)).Nodup := by decide
  refine ⟨job, ctx, f, text, hjob, hids, hctx, showScore_mem_body hctx, fun input hinput => ?_, hf,
    Outcome.pure_eq_ok.1 hrun, htext, toggled_watchers_made hjob hids hctx rfl hf⟩
  cases hinput
  exact .id (.inl rfl) ⟨⟨_, rfl, List.mem_cons_self ..⟩, rfl⟩ rfl

/-- A reference with a stale id toggles a watcher that the constructor does not make. -/
theorem staleScore_watcher_missing :
    ∃ job ctx f text lines, Job.make (showScoreProject "stale") {} = .ok job ∧
    (((showScoreProject "stale").targets.flatMap dataOf).map (·.id)).Nodup ∧
    Context.make (showScoreProject "stale") job.names 1 0 false = .ok ctx ∧
    showScore "stale" ∈ nestedStack ctx.script.body ∧
    (blockFragment ctx (showScore "stale") .stack ctx.locals).result = .ok f ∧
    f.source = "this.watchers.score.visible = true" ∧
    (job.targetFile 1 ctx.target ctx.targetNames "http://host/Cat.js").result = .ok text ∧
    IsFile job 1 ctx.target ctx.targetNames lines text ∧ ∀ line ∈ lines,
    makesWatcher "score" line = false := by
  have hrun : (do
      let job ← Job.make (showScoreProject "stale") {}
      let ctx ← Context.make (showScoreProject "stale") job.names 1 0 false
      let f ← (blockFragment ctx (showScore "stale") .stack ctx.locals).result
      let _ ← (job.targetFile 1 ctx.target ctx.targetNames "http://host/Cat.js").result
      let code ← (targetCode job.project job.names 1).result
      let lines ← constructorLines job false ctx.target ctx.targetNames code.triggers
      return (f.source, lines.all (!makesWatcher "score" ·))).toOption =
      some ("this.watchers.score.visible = true", true) := by decide +kernel
  obtain ⟨job, hjob, hrun⟩ := Outcome.bind_eq_ok.1 (Outcome.toOption_eq_some.1 hrun)
  obtain ⟨ctx, hctx, hrun⟩ := Outcome.bind_eq_ok.1 hrun
  obtain ⟨f, hf, hrun⟩ := Outcome.bind_eq_ok.1 hrun
  obtain ⟨text, htext, hrun⟩ := Outcome.bind_eq_ok.1 hrun
  obtain ⟨lines, hfile⟩ := targetFile_eq_ok htext
  obtain ⟨runtime, code, hcode, hlines, -⟩ := id hfile
  obtain ⟨code', hcode', hrun⟩ := Outcome.bind_eq_ok.1 hrun
  rw [hcode] at hcode'
  cases hcode'
  obtain ⟨lines', hlines', hrun⟩ := Outcome.bind_eq_ok.1 hrun
  rw [show constructorLines job false _ _ _ = .ok lines from hlines] at hlines'
  cases hlines'
  have hsources := Outcome.pure_eq_ok.1 hrun
  simp only [Prod.mk.injEq, List.all_eq_true, Bool.not_eq_true'] at hsources
  exact ⟨job, ctx, f, text, lines, hjob, by decide, hctx, showScore_mem_body hctx, hf, hsources.1,
    htext, hfile, hsources.2⟩

end Export

end ScratchExport
