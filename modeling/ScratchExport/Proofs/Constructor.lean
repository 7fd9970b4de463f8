import ScratchExport.Proofs.References

/-!
# Constructors and the record of sprites

What a constructor does with data: it has one line for each variable and list, and as no two of them
share a property, the lines that set a property are a single one (`filter_assigns`). The other lines
of a constructor start in other ways. In the same manner the record of sprites in the entry module
has one entry under the class of each sprite (`filter_isEntry`).
-/

namespace ScratchExport.Export

/-! ### Beginnings of lines -/

/-- The text begins in a given way. -/
def begins (head s : String) : Bool :=
  head.toList.isPrefixOf s.toList

theorem begins_iff {head s : String} : begins head s = true ↔ head.toList <+: s.toList :=
  List.isPrefixOf_iff_prefix

/-- The line sets a property of the data. -/
def assigns (property line : String) : Bool :=
  begins ("this.vars." ++ property ++ " = ") line

/-- The entry of the record of sprites is under a key. -/
def isEntry (key entry : String) : Bool :=
  begins (key ++ ": ") entry

theorem begins_longer_eq_false {start line : String} (h : begins start line = false)
    (rest : String) : begins (start ++ rest) line = false := by
  rw [Bool.eq_false_iff] at h ⊢
  intro hbegins
  rw [begins_iff, String.toList_append] at hbegins
  exact h (begins_iff.2 ((List.prefix_append ..).trans hbegins))

/-- Of two beginnings of a text one is a beginning of the other. -/
theorem begins_append_eq_false {head start : String} (h : begins head start = false)
    (h' : begins start head = false) (rest : String) : begins head (start ++ rest) = false := by
  rw [Bool.eq_false_iff] at h h' ⊢
  intro hbegins
  rw [begins_iff, String.toList_append] at hbegins
  rcases List.prefix_or_prefix_of_prefix hbegins (List.prefix_append ..) with hprefix | hprefix
  · exact h (begins_iff.2 hprefix)
  · exact h' (begins_iff.2 hprefix)

/-- Words that lack the character after them are told apart by what begins with them. -/
theorem begins_word_iff {word word' after : String} {c : Char} {cs : List Char}
    (h : c ∉ word.toList) (h' : c ∉ word'.toList) (hafter : after.toList = c :: cs)
    (start rest : String) :
    begins (start ++ word ++ after) (start ++ word' ++ after ++ rest) = true ↔ word = word' := by
  simp only [begins_iff, String.toList_append, hafter, List.append_assoc,
    List.prefix_append_right_inj]
  constructor
  · rintro ⟨tail, heq⟩
    rw [List.append_assoc] at heq
    exact String.toList_injective (Compile.eq_of_append_cons_eq h h' heq)
  · rintro rfl
    rw [List.prefix_append_right_inj]
    exact List.prefix_append ..

theorem not_mem_identifier {s : String} (h : Name.IsIdentifier s) {c : Char}
    (hc : Name.isIdentifierTail c = false) : c ∉ s.toList := by
  intro hin
  rw [Name.isIdentifierTail_of_mem h c hin] at hc
  cases hc

theorem assigns_iff {property property' : String} (h : Name.IsIdentifier property)
    (h' : Name.IsIdentifier property') (value : String) :
    assigns property ("this.vars." ++ property' ++ " = " ++ value ++ ";") = true ↔
      property = property' := by
  have hblank : Name.isIdentifierTail ' ' = false := by decide
  have hiff := begins_word_iff (not_mem_identifier h hblank) (not_mem_identifier h' hblank)
    (show " = ".toList = _ from rfl) "this.vars." (value ++ ";")
  rwa [← String.append_assoc] at hiff

theorem isEntry_iff {key key' : String} (h : Name.IsIdentifier key) (h' : Name.IsIdentifier key')
    (rest : String) : isEntry key (key' ++ ": " ++ rest) = true ↔ key = key' := by
  have hcolon : Name.isIdentifierTail ':' = false := by decide
  have hiff := begins_word_iff (not_mem_identifier h hcolon) (not_mem_identifier h' hcolon)
    (show ": ".toList = _ from rfl) "" rest
  rwa [String.empty_append, String.empty_append] at hiff

/-! ### Lines that set no data and make no watcher -/

/-- The line begins neither as one that sets data nor as one that makes a watcher. -/
structure Neutral (line : String) : Prop where
  data : begins "this.vars." line = false
  watcher : begins "this.watchers." line = false

theorem assigns_eq_false {line : String} (h : begins "this.vars." line = false)
    (property : String) : assigns property line = false := by
  rw [assigns, String.append_assoc]
  exact begins_longer_eq_false h _

theorem neutral_intercalate {sep : String} {items : List String}
    (h : ∀ s ∈ items, s.toList.head? = some 'n') : Neutral (sep.intercalate items) := by
  cases items with
  | nil => exact ⟨rfl, rfl⟩
  | cons first rest =>
    obtain ⟨cs, hcs⟩ : ∃ cs, (sep.intercalate (first :: rest)).toList = 'n' :: cs := by
      obtain ⟨cs, hcs⟩ := List.head?_eq_some_iff.1 (h first (List.mem_cons_self ..))
      cases rest with
      | nil => rw [String.intercalate_singleton]; exact ⟨cs, hcs⟩
      | cons second rest =>
        rw [String.intercalate_cons_cons, String.toList_append, String.toList_append, hcs]
        exact ⟨_, rfl⟩
    constructor <;>
    · unfold begins
      rw [hcs]
      rfl

theorem filter_eq_nil {property : String} {lines : List String}
    (h : ∀ line ∈ lines, begins "this.vars." line = false) :
    lines.filter (assigns property) = [] := by
  rw [List.filter_eq_nil_iff]
  intro line hline
  rw [assigns_eq_false (h line hline) property]
  exact Bool.false_ne_true

theorem neutral_listLines {name : String} (hname : Neutral ("this." ++ name ++ " = ["))
    {items : List String} (h : ∀ s ∈ items, s.toList.head? = some 'n') :
    ∀ line ∈ listLines name items, Neutral line := by
  intro line hline
  simp only [listLines, List.mem_cons, List.not_mem_nil, or_false] at hline
  rcases hline with rfl | rfl | rfl | rfl
  · exact hname
  · exact neutral_intercalate h
  · exact ⟨rfl, rfl⟩
  · exact ⟨rfl, rfl⟩

theorem neutral_volumeLines {volume : Value} {lines : List String}
    (h : volumeLines volume = .ok lines) : ∀ line ∈ lines, Neutral line := by
  unfold volumeLines at h
  split_ifs at h
  · cases h
    exact fun _ hline => nomatch hline
  · obtain ⟨value, -, h⟩ := Outcome.bind_eq_ok.1 h
    cases h
    intro line hline
    simp only [List.mem_cons, List.not_mem_nil, or_false] at hline
    rcases hline with rfl | rfl
    · rw [String.append_assoc]
      exact ⟨begins_append_eq_false (by decide) (by decide) _,
        begins_append_eq_false (by decide) (by decide) _⟩
    · exact ⟨rfl, rfl⟩

theorem watcherSource_eq_ok {t : Target} {isStage : Bool} {property : String} {d : Datum}
    {source : String} (h : watcherSource t isStage property d = .ok source) :
    ∃ style visible slider left x top y extents, styleField d = .ok style ∧
      Literal.initial d.visible = .ok visible ∧ sliderFields property d = .ok slider ∧
      d.x.add (.int 240) = .ok left ∧ Literal.initial left = .ok x ∧
      Value.sub (.int 180) d.y = .ok top ∧ Literal.initial top = .ok y ∧
      extentFields d = .ok extents ∧
      source = recordSource ("this.watchers." ++ property ++ " = new Watcher(")
        (["label: " ++ (watcherLabel t isStage d).json, style, "visible: " ++ visible,
          "value: () => this.vars." ++ property] ++ slider ++ ["x: " ++ x, "y: " ++ y] ++ extents)
        ");" := by
  obtain ⟨style, hstyle, h⟩ := Outcome.bind_eq_ok.1 h
  obtain ⟨visible, hvisible, h⟩ := Outcome.bind_eq_ok.1 h
  obtain ⟨slider, hslider, h⟩ := Outcome.bind_eq_ok.1 h
  obtain ⟨left, hleft, h⟩ := Outcome.bind_eq_ok.1 h
  obtain ⟨x, hx, h⟩ := Outcome.bind_eq_ok.1 h
  obtain ⟨top, htop, h⟩ := Outcome.bind_eq_ok.1 h
  obtain ⟨y, hy, h⟩ := Outcome.bind_eq_ok.1 h
  obtain ⟨extents, hextents, h⟩ := Outcome.bind_eq_ok.1 h
  exact ⟨style, visible, slider, left, x, top, y, extents, hstyle, hvisible, hslider, hleft, hx,
    htop, hy, hextents, (Outcome.pure_eq_ok.1 h).symm⟩

theorem watcherSource_eq_record {t : Target} {isStage : Bool} {property : String} {d : Datum}
    {source : String} (h : watcherSource t isStage property d = .ok source) :
    ∃ fields, source = recordSource ("this.watchers." ++ property ++ " = new Watcher(") fields
    ");" := by
  obtain ⟨style, visible, slider, left, x, top, y, extents, -, -, -, -, -, -, -, -, heq⟩ :=
    watcherSource_eq_ok h
  exact ⟨_, heq⟩

theorem begins_watcherSource {t : Target} {isStage : Bool} {property : String} {d : Datum}
    {source : String} (h : watcherSource t isStage property d = .ok source) :
    begins "this.vars." source = false := by
  obtain ⟨fields, rfl⟩ := watcherSource_eq_record h
  unfold recordSource
  simp only [String.append_assoc]
  exact begins_append_eq_false (by decide) (by decide) _

theorem head?_append {head : String} {c : Char} (h : head.toList.head? = some c) (rest : String) :
    (head ++ rest).toList.head? = some c := by
  rw [String.toList_append, List.head?_append, h]
  rfl

theorem head?_triggerSource (ctx : Compile.Context) (parts : String) :
    (Compile.triggerSource ctx parts).toList.head? = some 'n' := by
  unfold Compile.triggerSource
  simp only [String.append_assoc]
  exact head?_append (by decide) _

theorem head?_trigger (ctx : Compile.Context) :
    Outcome.Ensures (Compile.trigger ctx).result fun s? => ∀ s ∈ s?, s.toList.head? = some 'n' := by
  have hsome (parts : String) : ∀ s ∈ some (Compile.triggerSource ctx parts),
      s.toList.head? = some 'n' := by
    intro s hs
    rw [← Option.mem_some.1 hs]
    exact head?_triggerSource ctx parts
  have hnone : ∀ s ∈ (none : Option String), s.toList.head? = some 'n' := fun _ h => nomatch h
  have hvalue (hat : Block) : Outcome.Ensures (Compile.greaterThanTrigger ctx hat).result
      fun s => s.toList.head? = some 'n' := by
    intro s hs
    simp only [Compile.greaterThanTrigger, Noted.result_bind, Outcome.bind_eq_ok, Noted.result_pure,
      Except.ok.injEq] at hs
    obtain ⟨_, _, _, _, value, _, rfl⟩ := hs
    exact head?_triggerSource ..
  unfold Compile.trigger
  split
  · next hat _ =>
    unfold Compile.hatTrigger
    split
    · exact .ok hnone
    · exact .ok (hsome _)
    · rw [Noted.result_bind]
      exact .bind fun _ _ => .pure (hsome _)
    · exact .ok (hsome _)
    · exact .ok (hsome _)
    · rw [Noted.result_bind]
      exact .bind fun _ _ => .pure (hsome _)
    · rw [Noted.result_bind]
      exact .bind fun _ _ => .pure (hsome _)
    · rw [Noted.result_bind]
      exact .bind fun s hs => .pure fun s' hs' => Option.mem_some.1 hs' ▸ hvalue hat s hs
    · exact .ok (hsome _)
    · rw [Noted.result_bind]
      exact .bind fun _ _ => .pure hnone
  · exact .ok hnone

theorem head?_scriptsCode {project : Project} {names : Name.Table} {targetIndex : Nat}
    (indices : List Nat) :
    Outcome.Ensures (Compile.scriptsCode project names targetIndex indices).result
      fun code => ∀ s ∈ code.triggers, s.toList.head? = some 'n' := by
  induction indices with
  | nil => exact .ok fun _ h => nomatch h
  | cons i rest ih =>
    intro code h
    simp only [Compile.scriptsCode, Noted.result_bind, Outcome.bind_eq_ok, Noted.result_pure,
      Except.ok.injEq] at h
    obtain ⟨first, hfirst, others, hothers, rfl⟩ := h
    refine List.forall_mem_append.2 ⟨?_, ih others hothers⟩
    simp only [Compile.scriptCode, Noted.result_bind, Noted.result_lift,
      Outcome.bind_eq_ok] at hfirst
    obtain ⟨ctx, -, method, -, trigger, htrigger, hfirst⟩ := hfirst
    have htrigger : ∀ s ∈ trigger.toList, s.toList.head? = some 'n' := fun s hs =>
      head?_trigger _ trigger htrigger s (Option.mem_toList.1 hs)
    split at hfirst
    · simp only [Noted.result_bind, Outcome.bind_eq_ok, Noted.result_pure,
        Except.ok.injEq] at hfirst
      obtain ⟨variant, -, rfl⟩ := hfirst
      exact htrigger
    · simp only [Noted.result_pure, Except.ok.injEq] at hfirst
      subst hfirst
      exact htrigger

theorem head?_targetCode {project : Project} {names : Name.Table} {targetIndex : Nat}
    {code : Compile.TargetCode}
    (h : (Compile.targetCode project names targetIndex).result = .ok code) :
    ∀ s ∈ code.triggers, s.toList.head? = some 'n' := by
  unfold Compile.targetCode at h
  split at h
  · cases h
  · simp only [Noted.result_bind, Outcome.bind_eq_ok, Noted.result_note, Noted.result_pure,
      Except.ok.injEq] at h
    obtain ⟨code', hcode, -, -, rfl⟩ := h
    exact head?_scriptsCode _ code' hcode

/-! ### The lines of a constructor -/

theorem filter_eq_singleton {α β κ : Type} {R : α → β → Prop} {k : α → κ} {p : β → Bool}
    {as : List α} {bs : List β} (h : List.Forall₂ R as bs) (hnodup : (as.map k).Nodup) {a : α}
    (ha : a ∈ as) (hp : ∀ a' ∈ as, ∀ b, R a' b → (p b = true ↔ k a' = k a)) :
    ∃ b, R a b ∧ bs.filter p = [b] := by
  induction h with
  | nil => cases ha
  | @cons a' b as bs hb hrest ih =>
    rw [List.map_cons, List.nodup_cons] at hnodup
    rw [List.forall_mem_cons] at hp
    rcases List.mem_cons.1 ha with rfl | ha
    · refine ⟨b, hb, ?_⟩
      rw [List.filter_cons_of_pos ((hp.1 b hb).2 rfl), List.filter_eq_nil_iff.2 fun b' hb' hpb =>
        ?_]
      obtain ⟨a', hpair⟩ := Compile.exists_mem_zip hrest.flip hb'
      have ha' := (List.of_mem_zip hpair).2
      exact hnodup.1
        ((hp.2 a' ha' b' (List.forall₂_zip hrest.flip hpair)).1 hpb ▸ List.mem_map_of_mem ha')
    · obtain ⟨b', hR, hfilter⟩ := ih hnodup.2 ha hp.2
      refine ⟨b', hR, ?_⟩
      rw [List.filter_cons_of_neg fun hpb => hnodup.1 ((hp.1 b hb).1 hpb ▸ List.mem_map_of_mem ha),
        hfilter]

theorem constructorLines_eq_parts {job : Job} {isStage : Bool} {t : Target}
    {names : Name.TargetNames} {triggers lines : List String}
    (h : constructorLines job isStage t names triggers = .ok lines) :
    ∃ costumes volume data watched watchers,
      List.Forall₂ (fun c s => costumeSource job.options names.className c = .ok s)
        t.costumes costumes ∧
      volumeLines t.volume = .ok volume ∧
      List.Forall₂ (fun d line => dataLine names d = .ok line) (dataOf t) data ∧
      watchedIds job.project t isStage = .ok watched ∧
      List.Forall₂ (fun d line? => watcherLine? t isStage names watched d = .ok line?)
        (dataOf t) watchers ∧
      lines = listLines "costumes" costumes
        ++ listLines "sounds" (t.sounds.map (soundSource job.options names.className))
        ++ listLines "triggers" triggers ++ volume ++ data ++ [""] ++ watchers.filterMap id := by
  obtain ⟨costumes, hcostumes, h⟩ := Outcome.bind_eq_ok.1 h
  obtain ⟨volume, hvolume, h⟩ := Outcome.bind_eq_ok.1 h
  obtain ⟨data, hdata, h⟩ := Outcome.bind_eq_ok.1 h
  obtain ⟨watched, hwatched, h⟩ := Outcome.bind_eq_ok.1 h
  obtain ⟨watchers, hwatchers, h⟩ := Outcome.bind_eq_ok.1 h
  exact ⟨costumes, volume, data, watched, watchers, Outcome.mapM_eq_ok hcostumes, hvolume,
    Outcome.mapM_eq_ok hdata, hwatched, Outcome.mapM_eq_ok hwatchers, (Outcome.pure_eq_ok.1 h).symm⟩

theorem head?_costumes {o : Options} {className : String} {t : Target} {costumes : List String}
    (h : List.Forall₂ (fun c s => costumeSource o className c = .ok s) t.costumes costumes) :
    ∀ s ∈ costumes, s.toList.head? = some 'n' := by
  intro s hs
  obtain ⟨c, hpair⟩ := Compile.exists_mem_zip h.flip hs
  obtain ⟨center, -, hc⟩ := Outcome.bind_eq_ok.1 (List.forall₂_zip h.flip hpair)
  rw [← Outcome.pure_eq_ok.1 hc]
  simp only [String.append_assoc]
  exact head?_append (by decide) _

theorem head?_sounds (o : Options) (className : String) (t : Target) :
    ∀ s ∈ t.sounds.map (soundSource o className), s.toList.head? = some 'n' := by
  intro s hs
  obtain ⟨sound, -, rfl⟩ := List.mem_map.1 hs
  unfold soundSource
  simp only [String.append_assoc]
  exact head?_append (by decide) _

/-- What a constructor is made of: lines that set no data, then a line for each of the data, then
watchers. -/
theorem constructorLines_eq_ok {job : Job} {isStage : Bool} {t : Target} {names : Name.TargetNames}
    {triggers lines : List String} (htriggers : ∀ s ∈ triggers, s.toList.head? = some 'n')
    (h : constructorLines job isStage t names triggers = .ok lines) :
    ∃ before data watched watchers, (∀ line ∈ before, Neutral line) ∧
      List.Forall₂ (fun d line => dataLine names d = .ok line) (dataOf t) data ∧
      watchedIds job.project t isStage = .ok watched ∧
      List.Forall₂ (fun d line? => watcherLine? t isStage names watched d = .ok line?)
      (dataOf t) watchers ∧
      lines = before ++ data ++ [""] ++ watchers.filterMap id := by
  obtain ⟨costumes, volume, data, watched, watchers, hcostumes, hvolume, hdata, hwatched, hwatchers,
      heq⟩ :=
    constructorLines_eq_parts h
  refine ⟨_, data, watched, watchers, ?_, hdata, hwatched, hwatchers, heq⟩
  simp only [List.forall_mem_append]
  exact ⟨⟨⟨neutral_listLines ⟨by decide, by decide⟩ (head?_costumes hcostumes),
    neutral_listLines ⟨by decide, by decide⟩ (head?_sounds job.options names.className t)⟩,
    neutral_listLines ⟨by decide, by decide⟩ htriggers⟩, neutral_volumeLines hvolume⟩

theorem propertyOf_eq_ok {names : Name.TargetNames} {d : Datum} {property : String} :
    propertyOf names d = .ok property ↔ names.data.lookup d.id = some property := by
  unfold propertyOf
  cases names.data.lookup d.id <;> simp

theorem dataLine_eq_ok {names : Name.TargetNames} {d : Datum} {line : String}
    (h : dataLine names d = .ok line) :
    ∃ property value, names.data.lookup d.id = some property ∧ Literal.initial d.value = .ok value ∧
      line = "this.vars." ++ property ++ " = " ++ value ++ ";" := by
  obtain ⟨property, hproperty, h⟩ := Outcome.bind_eq_ok.1 h
  obtain ⟨value, hvalue, h⟩ := Outcome.bind_eq_ok.1 h
  exact ⟨property, value, propertyOf_eq_ok.1 hproperty, hvalue, (Outcome.pure_eq_ok.1 h).symm⟩

theorem watcherLine?_eq_ok {t : Target} {isStage : Bool} {names : Name.TargetNames}
    {watched : List String} {d : Datum} {line? : Option String}
    (h : watcherLine? t isStage names watched d = .ok line?) :
    (d.visible.truthy || watched.contains d.id) = true ∧
    (∃ property source, names.data.lookup d.id = some property ∧
        watcherSource t isStage property d = .ok source ∧ line? = some source) ∨
      (d.visible.truthy || watched.contains d.id) = false ∧ line? = none := by
  unfold watcherLine? at h
  split_ifs at h with hshown
  · obtain ⟨property, hproperty, h⟩ := Outcome.bind_eq_ok.1 h
    obtain ⟨source, hsource, h⟩ := Outcome.bind_eq_ok.1 h
    exact .inl ⟨hshown, property, source, propertyOf_eq_ok.1 hproperty, hsource,
      (Outcome.pure_eq_ok.1 h).symm⟩
  · exact .inr ⟨Bool.eq_false_iff.2 hshown, (Outcome.pure_eq_ok.1 h).symm⟩

theorem begins_watchers {t : Target} {isStage : Bool} {names : Name.TargetNames}
    {watched : List String} {watchers : List (Option String)}
    (h : List.Forall₂ (fun d line? => watcherLine? t isStage names watched d = .ok line?)
      (dataOf t) watchers) :
    ∀ line ∈ watchers.filterMap id, begins "this.vars." line = false := by
  intro line hline
  obtain ⟨line?, hmem, heq⟩ := List.mem_filterMap.1 hline
  obtain ⟨d, hpair⟩ := Compile.exists_mem_zip h.flip hmem
  rcases watcherLine?_eq_ok (List.forall₂_zip h.flip hpair) with ⟨-, property, source, -, hsource,
    rfl⟩ | ⟨-, rfl⟩
  · cases heq
    exact begins_watcherSource hsource
  · cases heq

variable {job : Job} {isStage : Bool} {t : Target} {names : Name.TargetNames}
  {members lines : List String} {d : Datum} {property : String}

theorem property_identifier (hfree : names.CollisionFree members t)
    (h : names.data.lookup d.id = some property) : Name.IsIdentifier property :=
  hfree.data.clear.identifier _ (List.mem_map_of_mem (f := Prod.snd) (Assoc.mem_of_lookup h))

/-- One of the lines for data sets a property, and it sets it to the value that the data starts
with. -/
theorem filter_assigns_data (hfree : names.CollisionFree members t)
    (hids : ((dataOf t).map (·.id)).Nodup) {data : List String}
    (hdata : List.Forall₂ (fun d line => dataLine names d = .ok line) (dataOf t) data)
    (hd : d ∈ dataOf t) (hproperty : names.data.lookup d.id = some property) :
    ∃ value, Literal.initial d.value = .ok value ∧
      data.filter (assigns property) = ["this.vars." ++ property ++ " = " ++ value ++ ";"] := by
  obtain ⟨line, hd, hfilter⟩ :=
      filter_eq_singleton (p := assigns property) hdata hids hd fun d' _ line h => by
    obtain ⟨property', value, hproperty', -, rfl⟩ := dataLine_eq_ok h
    rw [assigns_iff (property_identifier hfree hproperty) (property_identifier hfree hproperty')]
    constructor
    · rintro rfl
      exact hfree.data.injective _ _ _ hproperty' hproperty
    · intro heq
      rw [heq, hproperty] at hproperty'
      exact Option.some.inj hproperty'
  obtain ⟨property', value, hproperty', hvalue, rfl⟩ := dataLine_eq_ok hd
  rw [hproperty] at hproperty'
  cases hproperty'
  exact ⟨value, hvalue, hfilter⟩

theorem filter_assigns (hfree : names.CollisionFree members t)
    (hids : ((dataOf t).map (·.id)).Nodup) {triggers : List String}
    (htriggers : ∀ s ∈ triggers, s.toList.head? = some 'n')
    (h : constructorLines job isStage t names triggers = .ok lines) (hd : d ∈ dataOf t)
    (hproperty : names.data.lookup d.id = some property) :
    ∃ value, Literal.initial d.value = .ok value ∧
      lines.filter (assigns property) = ["this.vars." ++ property ++ " = " ++ value ++ ";"] := by
  obtain ⟨before, data, watched, watchers, hbefore, hdata, -, hwatchers, rfl⟩ :=
    constructorLines_eq_ok htriggers h
  obtain ⟨value, hvalue, hfilter⟩ := filter_assigns_data hfree hids hdata hd hproperty
  refine ⟨value, hvalue, ?_⟩
  have hempty : [""].filter (assigns property) = [] :=
    filter_eq_nil fun line hline => by rw [List.mem_singleton.1 hline]; rfl
  rw [List.filter_append, List.filter_append, List.filter_append,
    filter_eq_nil fun line hline => (hbefore line hline).data, hfilter, hempty,
    filter_eq_nil (begins_watchers hwatchers)]
  rfl

/-! ### Files -/

/-- The text is the file of the target at an index, with the given lines in its constructor. -/
def IsFile (job : Job) (index : Nat) (t : Target) (names : Name.TargetNames) (lines : List String)
    (text : String) : Prop :=
  ∃ runtime code, (Compile.targetCode job.project job.names index).result = .ok code ∧
    constructorLines job (index == 0) t names code.triggers = .ok lines ∧
    text = "\n".intercalate (headLines (index == 0) names.className runtime ++ lines ++ ["\x7d"] ++
      code.methods.flatMap (fun m => ["", m.render]) ++ ["\x7d"])

theorem targetFile_eq_ok {index : Nat} {url text : String}
    (h : (job.targetFile index t names url).result = .ok text) :
    ∃ lines, IsFile job index t names lines text := by
  simp only [Job.targetFile, Noted.result_bind, Noted.result_lift, Outcome.bind_eq_ok,
    Noted.result_pure, Except.ok.injEq] at h
  obtain ⟨runtime, -, code, hcode, lines, hlines, rfl⟩ := h
  exact ⟨lines, runtime, code, hcode, hlines, rfl⟩

/-- Something holds of the lines of the constructor in every file of the target at an index. -/
def EveryFile (job : Job) (index : Nat) (P : List String → Prop) : Prop :=
  ∀ t names url text, job.project.targets[index]? = some t →
    job.names.targets[index]? = some names →
    (job.targetFile index t names url).result = .ok text →
      ∃ lines, IsFile job index t names lines text ∧ P lines

theorem everyFile_intro (hnames : Name.assign job.project = .ok job.names)
    (hids : ∀ t ∈ job.project.targets, ((dataOf t).map (·.id)).Nodup) {index : Nat}
    {P : List String → Prop}
    (h : ∀ t names members code lines, job.project.targets[index]? = some t →
      job.names.targets[index]? = some names → names.CollisionFree members t →
      ((dataOf t).map (·.id)).Nodup →
      (Compile.targetCode job.project job.names index).result = .ok code →
      constructorLines job (index == 0) t names code.triggers = .ok lines → P lines) :
    EveryFile job index P := by
  intro t names url text ht htargetNames htext
  obtain ⟨_, hfree⟩ := (Name.Table.collisionFree_of_assign hnames).targets.at ht htargetNames
  obtain ⟨lines, hfile⟩ := targetFile_eq_ok htext
  obtain ⟨runtime, code, hcode, hlines, -⟩ := id hfile
  exact ⟨lines, hfile, h t names _ code lines ht htargetNames hfree
    (hids t (List.mem_of_getElem? ht)) hcode hlines⟩

theorem spriteSource_eq_ok {className entry : String} {s : Sprite}
    (h : spriteSource className s = .ok entry) :
    ∃ fields, entry = recordSource (className ++ ": new " ++ className ++ "(") fields ")," := by
  obtain ⟨x, -, h⟩ := Outcome.bind_eq_ok.1 h
  obtain ⟨y, -, h⟩ := Outcome.bind_eq_ok.1 h
  obtain ⟨direction, -, h⟩ := Outcome.bind_eq_ok.1 h
  obtain ⟨costume, -, h⟩ := Outcome.bind_eq_ok.1 h
  obtain ⟨size, -, h⟩ := Outcome.bind_eq_ok.1 h
  obtain ⟨visible, -, h⟩ := Outcome.bind_eq_ok.1 h
  exact ⟨_, (Outcome.pure_eq_ok.1 h).symm⟩

/-- The entries of the record of sprites, which the entry module has between the lines that open and
close it. -/
theorem entry_eq_ok {text : String} (h : job.entry = .ok text) :
    ∃ before entries after,
    text = "\n".intercalate (before ++ "const sprites = \x7b" :: entries ++ "\x7d;" :: after) ∧
      List.Forall₂ (fun sprite entry => spriteSource sprite.1 sprite.2 = .ok entry)
        (job.classNames.tail.zip job.project.sprites) entries := by
  obtain ⟨stageCostume, -, h⟩ := Outcome.bind_eq_ok.1 h
  obtain ⟨sprites, hsprites, h⟩ := Outcome.bind_eq_ok.1 h
  refine ⟨["import \x7b Project, Sprite \x7d from " ++ Text.literal job.options.runtimeModuleUrl ++
    ";", ""] ++ job.classNames.map job.importLine
    ++ ["", "const stage = new " ++ job.stageClass ++ "(\x7b costumeNumber: " ++ stageCostume ++
      " \x7d);", ""],
    sprites, ["", "const project = new Project(stage, sprites, \x7b",
      "  frameRate: 30 // Set to 60 to make your project run faster", "\x7d);",
      "export default project;"],
    ?_, Outcome.mapM_eq_ok hsprites⟩
  rw [← Outcome.pure_eq_ok.1 h]
  simp only [List.append_assoc, List.cons_append, List.nil_append]

/-- The record of sprites has one entry under the class of a sprite, and it makes that sprite. -/
theorem filter_isEntry (hclasses : Name.Clear Name.classSeed job.classNames)
    (hlength : job.classNames.tail.length ≤ job.project.sprites.length) {entries : List String}
    (h : List.Forall₂ (fun sprite entry => spriteSource sprite.1 sprite.2 = .ok entry)
      (job.classNames.tail.zip job.project.sprites) entries)
    {className : String} {s : Sprite}
    (hsprite : (className, s) ∈ job.classNames.tail.zip job.project.sprites) :
    ∃ entry, spriteSource className s = .ok entry ∧
        entries.filter (isEntry className) = [entry] := by
  have hidentifier {sprite : String × Sprite}
      (hin : sprite ∈ job.classNames.tail.zip job.project.sprites) : Name.IsIdentifier sprite.1 :=
    hclasses.identifier _ (List.mem_of_mem_tail (List.of_mem_zip hin).1)
  refine filter_eq_singleton (k := Prod.fst) h ?_ hsprite fun sprite hin entry hentry => ?_
  · rw [List.map_fst_zip hlength]
    exact hclasses.nodup.sublist (List.tail_sublist _)
  · obtain ⟨fields, rfl⟩ := spriteSource_eq_ok hentry
    have hkey := isEntry_iff (hidentifier hsprite) (hidentifier hin)
      ("new " ++ sprite.1 ++ "(" ++ "\x7b\n" ++ ",\n".intercalate fields ++ "\n\x7d" ++ "),")
    rw [@eq_comm _ sprite.1, ← hkey, recordSource]
    have hopening : sprite.1 ++ ": new " ++ sprite.1 ++ "(" = sprite.1 ++ ": " ++
        ("new " ++ sprite.1 ++ "(") := by
      simp only [String.append_assoc]
      rfl
    rw [hopening]
    simp only [String.append_assoc]

end ScratchExport.Export
