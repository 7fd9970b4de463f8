import ScratchExport.Proofs.Constructor
import ScratchExport.Proofs.LiteralLines
import ScratchExport.Proofs.WrittenValues

/-!
# The text of a constructor

`Constructor` looks at what a constructor is put together from, and here are the lines of the text
that it becomes. Literals and numbers stay on their line, but the keys of records and the triggers
are written as they stand. Where none of these has a line feed (`KeepsLines`), one line of the text
gives a property the value that its data starts with (`filter_initialises`). The only other lines
that set it are in the sliders: they pass on a value that the slider was given.
-/

namespace ScratchExport

/-- What a constructor writes of data: its value, whether it is shown and where, and its range or
extent. -/
def Export.Datum.values (d : Export.Datum) : List Value :=
  [d.value, d.visible] ++ (d.x.add (.int 240)).toOption.toList ++
    (Value.sub (.int 180) d.y).toOption.toList ++
    match d with
    | .variable v => [v.sliderMin, v.sliderMax]
    | .list l => [l.width, l.height]

/-- The values that a target starts with. -/
def Target.values (t : Target) : List Value :=
  t.volume :: t.costumes.flatMap (fun c => [c.centerX, c.centerY]) ++
    (Export.dataOf t).flatMap (·.values)

namespace Export

/-! ### Lines -/

/-- The lines of a text. -/
def textLines (s : String) : List String :=
  (Text.splitWhere (· == '\n') s.toList).map String.ofList

/-- The text has no line feed. -/
def OneLine (s : String) : Prop :=
  '\n' ∉ s.toList

instance : DecidablePred OneLine := fun s => inferInstanceAs (Decidable ('\n' ∉ s.toList))

variable {s t : String}

theorem textLines_append (s t : String) :
    textLines (s ++ "\n" ++ t) = textLines s ++ textLines t := by
  have hlist : (s ++ "\n" ++ t).toList = s.toList ++ '\n' :: t.toList := by
    rw [String.toList_append, String.toList_append, List.append_assoc]
    rfl
  rw [textLines, hlist, Text.splitWhere_append (by rfl), List.map_append]
  rfl

theorem textLines_intercalate {items : List String} (hne : items ≠ []) :
    textLines ("\n".intercalate items) = items.flatMap textLines := by
  induction items with
  | nil => exact absurd rfl hne
  | cons first rest ih =>
    cases rest with
    | nil => rw [String.intercalate_singleton, List.flatMap_singleton]
    | cons second rest =>
      rw [String.intercalate_cons_cons, textLines_append, ih (List.cons_ne_nil _ _)]
      rfl

namespace OneLine

theorem append (hs : OneLine s) (ht : OneLine t) : OneLine (s ++ t) := by
  unfold OneLine
  rw [String.toList_append, List.mem_append]
  exact not_or_intro hs ht

theorem intercalate {items : List String} (h : ∀ s ∈ items, OneLine s) :
    OneLine (", ".intercalate items) := by
  induction items with
  | nil => rw [String.intercalate_nil]; decide
  | cons first rest ih =>
    rw [List.forall_mem_cons] at h
    cases rest with
    | nil => rw [String.intercalate_singleton]; exact h.1
    | cons second rest =>
      rw [String.intercalate_cons_cons]
      exact (h.1.append (by decide)).append (ih h.2)

theorem textLines (h : OneLine s) : textLines s = [s] := by
  have hfree : ∀ c ∈ s.toList, (c == '\n') = false := by
    intro c hc
    rw [beq_eq_false_iff_ne]
    rintro rfl
    exact h hc
  rw [Export.textLines, Text.splitWhere_eq_singleton hfree, List.map_singleton,
    String.ofList_toList]

theorem of_numeral (h : ∀ c ∈ s.toList, c.isDigit = true ∨ c ∈ numeralMarks) : OneLine s :=
  fun hin => absurd (h _ hin) (by decide)

theorem of_identifier (h : Name.IsIdentifier s) : OneLine s :=
  not_mem_identifier h (by decide)

theorem literal (s : String) : OneLine (Text.literal s) := by
  intro hin
  rw [Text.literal, String.toList_ofList, Text.isLineEnd_mem_literalChars (by decide)] at hin
  exact absurd hin.2 (by decide)

end OneLine

theorem valueLaw_oneLine : ValueLaw OneLine OneLine where
  word := List.all_iff_forall_prop.1 (by decide)
  integer i := .of_numeral fun c hc => (mem_toString_int hc).imp_right fun h => by rw [h]; decide
  double x := by
    cases x with
    | nan => decide
    | infinite negative => cases negative <;> decide
    | finite negative units => exact .of_numeral fun _ => Binary64.mem_text
  number x := by
    cases x with
    | nan => decide
    | infinite negative => cases negative <;> decide
    | finite negative units => exact .of_numeral fun _ => Literal.mem_numberLiteral
  literal := .literal
  key := .literal
  field hkey hs := (hkey.append (by decide)).append hs
  list h := (OneLine.append (by decide) (.intercalate h)).append (by decide)
  json h := (OneLine.append (by decide) (.intercalate h)).append (by decide)
  record h := (OneLine.append (by decide) (.intercalate h)).append (by decide)

/-! ### What a slider is given -/

theorem append_ne_of_begins {start rest text : String} (hstart : begins start text = false) :
    start ++ rest ≠ text := by
  rintro rfl
  rw [Bool.eq_false_iff] at hstart
  exact hstart (begins_iff.2 (by rw [String.toList_append]; exact List.prefix_append ..))

theorem literal_ne_value (s : String) : Text.literal s ≠ "value" := by
  intro heq
  have hhead := congrArg (·.toList.head?) heq
  rw [Text.literal, String.toList_ofList] at hhead
  cases hhead

theorem numberLiteral_ne_value {x : Binary64} (hplain : Literal.isPlain x = true) :
    Literal.numberLiteral x ≠ "value" := by
  intro heq
  cases x with
  | finite negative units =>
    have hin : 'v' ∈ (Literal.numberLiteral (.finite negative units)).toList := by
      rw [heq]
      decide
    exact absurd (Literal.mem_numberLiteral hin) (by decide)
  | _ => cases hplain

theorem initialScalar_ne_value {v : Value} {source : String}
    (h : Literal.initialScalar v = .ok source) : source ≠ "value" := by
  obtain ⟨number, -, h⟩ := Outcome.bind_eq_ok.1 h
  split at h
  · split at h
    · next hplain => cases h; exact numberLiteral_ne_value hplain
    · obtain ⟨s, -, h⟩ := Outcome.bind_eq_ok.1 h
      cases h
      exact literal_ne_value s
  · obtain ⟨s, -, h⟩ := Outcome.bind_eq_ok.1 h
    cases h
    exact literal_ne_value s

/-- No initial value is the name of what a slider is given. -/
theorem initial_ne_value {v : Value} {source : String} (h : Literal.initial v = .ok source) :
    source ≠ "value" := by
  cases v with
  | null => cases h; decide
  | bool b => cases b <;> cases h <;> decide
  | list items =>
    rw [Literal.initial] at h
    obtain ⟨written, -, h⟩ := Outcome.bind_eq_ok.1 h
    rw [← Outcome.pure_eq_ok.1 h, String.append_assoc]
    exact append_ne_of_begins (by decide)
  | record fields =>
    rw [Literal.initial] at h
    obtain ⟨written, -, h⟩ := Outcome.bind_eq_ok.1 h
    rw [← Outcome.pure_eq_ok.1 h, String.append_assoc]
    exact append_ne_of_begins (by decide)
  | rgb r g b =>
    rw [Literal.initial] at h
    obtain ⟨red, -, h⟩ := Outcome.bind_eq_ok.1 h
    obtain ⟨green, -, h⟩ := Outcome.bind_eq_ok.1 h
    obtain ⟨blue, -, h⟩ := Outcome.bind_eq_ok.1 h
    rw [← Outcome.pure_eq_ok.1 h]
    simp only [String.append_assoc]
    exact append_ne_of_begins (by decide)
  | int | float | text | described =>
    rw [Literal.initial] at h
    exact initialScalar_ne_value h

/-! ### Lines that set no data -/

/-- The line sets a property of the data, and not to what a slider was given. -/
def initialises (property line : String) : Bool :=
  assigns property line && line != "this.vars." ++ property ++ " = value;"

theorem filter_initialises_eq (property : String) (lines : List String) :
    lines.filter (initialises property) = (lines.filter (assigns property)).filter fun line =>
      line != "this.vars." ++ property ++ " = value;" := by
  rw [List.filter_filter]
  exact List.filter_congr fun line _ => Bool.and_comm ..

theorem ne_setter {value : String} (h : value ≠ "value") (property : String) :
    "this.vars." ++ property ++ " = " ++ value ++ ";" ≠ "this.vars." ++ property ++
      " = value;" := by
  have hsetter : " = value;" = " = " ++ "value" ++ ";" := rfl
  rw [hsetter, ← String.append_assoc, ← String.append_assoc]
  intro heq
  exact h (String.append_right_inj _ |>.1 (String.append_left_inj _ |>.1 heq))

/-- No line of the text sets the property. -/
def Quiet (property s : String) : Prop :=
  ∀ line ∈ textLines s, initialises property line = false

/-- No line sets the property, whether a comma follows the text or not. -/
structure QuietItem (property s : String) : Prop where
  alone : Quiet property s
  comma : Quiet property (s ++ ",")

variable {property : String}

namespace Quiet

theorem append (hs : Quiet property s) (ht : Quiet property t) :
    Quiet property (s ++ "\n" ++ t) := by
  unfold Quiet
  rw [textLines_append]
  exact List.forall_mem_append.2 ⟨hs, ht⟩

theorem of_line (hs : OneLine s) (h : begins "this.vars." s = false) : Quiet property s := by
  unfold Quiet
  rw [hs.textLines]
  intro line hline
  rw [List.mem_singleton.1 hline, initialises, assigns_eq_false h, Bool.false_and]

/-- Items on lines of their own, with commas between them. -/
theorem intercalate {items : List String} (h : ∀ s ∈ items, QuietItem property s) :
    Quiet property (",\n".intercalate items) := by
  induction items with
  | nil => rw [String.intercalate_nil]; exact of_line (by decide) (by decide)
  | cons first rest ih =>
    rw [List.forall_mem_cons] at h
    cases rest with
    | nil => rw [String.intercalate_singleton]; exact h.1.alone
    | cons second rest =>
      have hcomma : first ++ ",\n" = first ++ "," ++ "\n" := by
        rw [String.append_assoc]
        rfl
      rw [String.intercalate_cons_cons, hcomma]
      exact h.1.comma.append (ih h.2)

theorem recordSource {opening closing : String} {fields : List String}
    (hopening : Quiet property (opening ++ "\x7b"))
    (hfields : ∀ s ∈ fields, QuietItem property s)
    (hclosing : Quiet property ("\x7d" ++ closing)) :
    Quiet property (recordSource opening fields closing) := by
  have heq : Export.recordSource opening fields closing =
      opening ++ "\x7b" ++ "\n" ++ ",\n".intercalate fields ++ "\n" ++ ("\x7d" ++ closing) := by
    unfold Export.recordSource
    simp only [String.append_assoc]
    rfl
  rw [heq]
  exact (hopening.append (intercalate hfields)).append hclosing

theorem listLines {name : String} {items : List String} (hname : OneLine name)
    (hbegins : begins "this.vars." ("this." ++ name ++ " = [") = false)
    (hitems : ∀ s ∈ items, OneLine s ∧ s.toList.head? = some 'n') :
    ∀ line ∈ listLines name items, Quiet property line := by
  have hitem {s : String} (hs : OneLine s) (hhead : s.toList.head? = some 'n') :
      Quiet property s := by
    obtain ⟨cs, hcs⟩ := List.head?_eq_some_iff.1 hhead
    refine of_line hs ?_
    rw [begins, hcs]
    rfl
  intro line hline
  simp only [Export.listLines, List.mem_cons, List.not_mem_nil, or_false] at hline
  rcases hline with rfl | rfl | rfl | rfl
  · exact of_line ((OneLine.append (by decide) hname).append (by decide)) hbegins
  · refine intercalate fun s hs => ?_
    obtain ⟨hline, hhead⟩ := hitems s hs
    exact ⟨hitem hline hhead, hitem (hline.append (by decide)) (head?_append hhead _)⟩
  · exact of_line (by decide) (by decide)
  · exact of_line (by decide) (by decide)

theorem filter_eq_nil {items : List String} (h : ∀ s ∈ items, Quiet property s) :
    (items.flatMap textLines).filter (initialises property) = [] := by
  rw [List.filter_eq_nil_iff]
  intro line hline
  obtain ⟨s, hs, hline⟩ := List.mem_flatMap.1 hline
  rw [h s hs line hline]
  exact Bool.false_ne_true

end Quiet

theorem QuietItem.of_start {start rest : String} (hstart : OneLine start) (hrest : OneLine rest)
    (h : begins "this.vars." start = false) (h' : begins start "this.vars." = false) :
    QuietItem property (start ++ rest) := by
  refine ⟨.of_line (hstart.append hrest) (begins_append_eq_false h h' rest), ?_⟩
  rw [String.append_assoc]
  exact .of_line (hstart.append (hrest.append (by decide))) (begins_append_eq_false h h' _)

/-! ### The parts of a constructor -/

/-- No key of a record among the values has a line feed. -/
def KeysOnLines (values : List Value) : Prop :=
  ∀ v ∈ values, ∀ key ∈ v.keys, OneLine key

variable {job : Job} {isStage : Bool} {t : Target} {names : Name.TargetNames} {d : Datum}

theorem KeysOnLines.initial {values : List Value} (h : KeysOnLines values) {v : Value}
    (hv : v ∈ values) {source : String} (hsource : Literal.initial v = .ok source) :
    OneLine source :=
  valueLaw_oneLine.ofInitial v (h v hv) source hsource

theorem KeysOnLines.datum (h : KeysOnLines t.values) (hd : d ∈ dataOf t) : KeysOnLines d.values :=
  fun v hv => h v (List.mem_append_right _ (List.mem_flatMap.2 ⟨d, hd, hv⟩))

theorem oneLine_costumes (h : KeysOnLines t.values) {o : Options} {className : String}
    {costumes : List String}
    (hcostumes : List.Forall₂ (fun c s => costumeSource o className c = .ok s) t.costumes
      costumes) :
    ∀ s ∈ costumes, OneLine s := by
  intro s hs
  obtain ⟨c, hpair⟩ := Compile.exists_mem_zip hcostumes.flip hs
  obtain ⟨center, hcenter, hc⟩ := Outcome.bind_eq_ok.1 (List.forall₂_zip hcostumes.flip hpair)
  rw [← Outcome.pure_eq_ok.1 hc]
  have hvalues : ∀ v ∈ [c.centerX, c.centerY], v ∈ t.values := by
    intro v hv
    exact List.mem_append_left _
      (List.mem_cons_of_mem _ (List.mem_flatMap.2 ⟨c, (List.of_mem_zip hpair).2, hv⟩))
  have hkeys : ∀ key ∈ Value.keys (.record [("x", c.centerX), ("y", c.centerY)]), OneLine key := by
    simp only [Value.keys, Value.fieldKeys, List.append_nil, List.cons_append, List.forall_mem_cons,
      List.forall_mem_append]
    exact ⟨by decide, h _ (hvalues _ (by simp)), by decide, h _ (hvalues _ (by simp))⟩
  have hcenter : OneLine center := valueLaw_oneLine.ofInitial _ hkeys center hcenter
  have hname : OneLine c.name.json := valueLaw_oneLine.ofJson c.name
  exact (((((OneLine.append (by decide) hname).append (by decide)).append (.literal _)).append
    (by decide)).append hcenter).append (by decide)

theorem oneLine_sounds (o : Options) (className : String) (t : Target) :
    ∀ s ∈ t.sounds.map (soundSource o className), OneLine s := by
  intro s hs
  obtain ⟨sound, -, rfl⟩ := List.mem_map.1 hs
  have hname : OneLine sound.name.json := valueLaw_oneLine.ofJson sound.name
  exact (((OneLine.append (by decide) hname).append (by decide)).append (.literal _)).append
    (by decide)

theorem quiet_volumeLines (h : KeysOnLines t.values) {volume : List String}
    (hvolume : volumeLines t.volume = .ok volume) : ∀ line ∈ volume, Quiet property line := by
  unfold volumeLines at hvolume
  split_ifs at hvolume
  · cases hvolume
    exact List.forall_mem_nil _
  · obtain ⟨value, hvalue, hvolume⟩ := Outcome.bind_eq_ok.1 hvolume
    cases hvolume
    have hvalue : OneLine value := h.initial (by simp [Target.values]) hvalue
    intro line hline
    simp only [List.mem_cons, List.not_mem_nil, or_false] at hline
    rcases hline with rfl | rfl
    · rw [String.append_assoc]
      exact (QuietItem.of_start (by decide) (hvalue.append (by decide)) (by decide)
        (by decide)).alone
    · exact .of_line (by decide) (by decide)

theorem quiet_styleField {style : String} (h : styleField d = .ok style) :
    QuietItem property style := by
  cases d with
  | «variable» v =>
    obtain ⟨mode, -, h⟩ := Outcome.bind_eq_ok.1 h
    rw [← Outcome.pure_eq_ok.1 h]
    exact .of_start (by decide) (.literal _) (by decide) (by decide)
  | list l =>
    cases h
    exact ⟨.of_line (by decide) (by decide), .of_line (by decide) (by decide)⟩

/-- The line on which a slider passes on what it is given is not one that sets the
property first. -/
theorem quiet_setter (hproperty : Name.IsIdentifier property) {property' : String}
    (hproperty' : Name.IsIdentifier property') :
    Quiet property ("this.vars." ++ property' ++ " = value;") := by
  have hline : OneLine ("this.vars." ++ property' ++ " = value;") :=
    (OneLine.append (by decide) (.of_identifier hproperty')).append (by decide)
  have hassigns := assigns_iff hproperty hproperty' "value"
  intro line hin
  rw [hline.textLines, List.mem_singleton] at hin
  subst hin
  by_cases heq : property = property'
  · subst heq
    simp [initialises]
  · have hother : assigns property ("this.vars." ++ property' ++ " = value;") = false := by
      rw [Bool.eq_false_iff, ne_eq, show " = value;" = " = " ++ ("value" ++ ";") from rfl,
        ← String.append_assoc, ← String.append_assoc, hassigns]
      exact heq
    rw [initialises, hother, Bool.false_and]

theorem quiet_sliderFields (hproperty : Name.IsIdentifier property) {property' : String}
    (hproperty' : Name.IsIdentifier property') (h : KeysOnLines d.values) {fields : List String}
    (hfields : sliderFields property' d = .ok fields) : ∀ s ∈ fields, QuietItem property s := by
  cases d with
  | list l =>
    cases hfields
    exact List.forall_mem_nil _
  | «variable» v =>
    unfold sliderFields at hfields
    dsimp only at hfields
    split at hfields
    · obtain ⟨least, hleast, hfields⟩ := Outcome.bind_eq_ok.1 hfields
      obtain ⟨most, hmost, hfields⟩ := Outcome.bind_eq_ok.1 hfields
      rw [← Outcome.pure_eq_ok.1 hfields]
      have hleast : OneLine least := h.initial (by simp [Datum.values]) hleast
      have hmost : OneLine most := h.initial (by simp [Datum.values]) hmost
      have hset : "setValue: value => \x7b\nthis.vars." ++ property' ++ " = value;\n\x7d" =
          "setValue: value => \x7b" ++ "\n" ++ ("this.vars." ++ property' ++ " = value;") ++ "\n" ++
            "\x7d" := by
        simp only [String.append_assoc]
        rfl
      have hopening : Quiet property "setValue: value => \x7b" := .of_line (by decide) (by decide)
      have hlines := hopening.append (quiet_setter hproperty hproperty')
      simp only [List.forall_mem_cons]
      refine ⟨?_, ?_, ?_, ?_, List.forall_mem_nil _⟩
      · rw [hset]
        refine ⟨hlines.append (.of_line (by decide) (by decide)), ?_⟩
        rw [String.append_assoc]
        exact hlines.append (.of_line (by decide) (by decide))
      · refine .of_start (by decide) ?_ (by decide) (by decide)
        split <;> decide
      · exact .of_start (by decide) hleast (by decide) (by decide)
      · exact .of_start (by decide) hmost (by decide) (by decide)
    · cases hfields
      exact List.forall_mem_nil _

theorem quiet_extentField (name : String) (hname : OneLine (name ++ ": "))
    (hbegins : begins "this.vars." (name ++ ": ") = false)
    (hbegins' : begins (name ++ ": ") "this.vars." = false) {v : Value}
    (h : ∀ key ∈ v.keys, OneLine key) {fields : List String}
    (hfields : extentField name v = .ok fields) : ∀ s ∈ fields, QuietItem property s := by
  unfold extentField at hfields
  split at hfields
  · cases hfields
    exact List.forall_mem_nil _
  · obtain ⟨written, hwritten, hfields⟩ := Outcome.bind_eq_ok.1 hfields
    rw [← Outcome.pure_eq_ok.1 hfields, List.forall_mem_singleton]
    exact .of_start hname (valueLaw_oneLine.ofInitial _ h written hwritten) hbegins hbegins'

theorem quiet_extentFields (h : KeysOnLines d.values) {fields : List String}
    (hfields : extentFields d = .ok fields) : ∀ s ∈ fields, QuietItem property s := by
  cases d with
  | «variable» v =>
    cases hfields
    exact List.forall_mem_nil _
  | list l =>
    obtain ⟨width, hwidth, hfields⟩ := Outcome.bind_eq_ok.1 hfields
    obtain ⟨height, hheight, hfields⟩ := Outcome.bind_eq_ok.1 hfields
    rw [← Outcome.pure_eq_ok.1 hfields]
    refine List.forall_mem_append.2 ⟨quiet_extentField "width" ?_ ?_ ?_ ?_ hwidth,
      quiet_extentField "height" ?_ ?_ ?_ ?_ hheight⟩
    case refine_4 | refine_8 => exact h _ (by simp [Datum.values])
    all_goals decide

theorem quiet_watcherSource (hproperty : Name.IsIdentifier property) {property' : String}
    (hproperty' : Name.IsIdentifier property') (h : KeysOnLines d.values) {source : String}
    (hsource : watcherSource t isStage property' d = .ok source) : Quiet property source := by
  obtain ⟨style, visible, slider, left, x, top, y, extents, hstyle, hvisible, hslider, hleft, hx,
    htop, hy, hextents, rfl⟩ := watcherSource_eq_ok hsource
  have hname : OneLine property' := .of_identifier hproperty'
  have hvisible : OneLine visible := h.initial (by simp [Datum.values]) hvisible
  have hx : OneLine x := h.initial (by simp [Datum.values, hleft, Except.toOption]) hx
  have hy : OneLine y := h.initial (by simp [Datum.values, htop, Except.toOption]) hy
  have hlabel : OneLine (watcherLabel t isStage d).json := valueLaw_oneLine.ofJson _
  refine .recordSource ?_ ?_ (.of_line (by decide) (by decide))
  · simp only [String.append_assoc]
    exact (QuietItem.of_start (by decide) (hname.append (by decide)) (by decide) (by decide)).alone
  · simp only [List.forall_mem_append, List.forall_mem_cons]
    exact ⟨⟨⟨⟨.of_start (by decide) hlabel (by decide) (by decide), quiet_styleField hstyle,
      .of_start (by decide) hvisible (by decide) (by decide),
      .of_start (by decide) hname (by decide) (by decide), List.forall_mem_nil _⟩,
      quiet_sliderFields hproperty hproperty' h hslider⟩,
      .of_start (by decide) hx (by decide) (by decide),
      .of_start (by decide) hy (by decide) (by decide), List.forall_mem_nil _⟩,
      quiet_extentFields h hextents⟩

/-! ### One line for each of the data -/

/-- What a constructor writes as it stands has no line feed: no key of a record among the values of
the target, and no trigger. -/
structure KeepsLines (job : Job) (index : Nat) : Prop where
  keys : ∀ t, job.project.targets[index]? = some t → KeysOnLines t.values
  triggers : ∀ code, (Compile.targetCode job.project job.names index).result = .ok code →
    ∀ s ∈ code.triggers, OneLine s

theorem textLines_data {members data : List String} (hfree : names.CollisionFree members t)
    (hkeys : KeysOnLines t.values)
    (hdata : List.Forall₂ (fun d line => dataLine names d = .ok line) (dataOf t) data) :
    ∀ line ∈ data, textLines line = [line] := by
  intro line hline
  obtain ⟨d, hpair⟩ := Compile.exists_mem_zip hdata.flip hline
  obtain ⟨property, value, hproperty, hvalue, rfl⟩ :=
    dataLine_eq_ok (List.forall₂_zip hdata.flip hpair)
  have hname : OneLine property := .of_identifier (property_identifier hfree hproperty)
  have hvalue : OneLine value :=
    (hkeys.datum (List.of_mem_zip hpair).2).initial (by simp [Datum.values]) hvalue
  exact ((((OneLine.append (by decide) hname).append (by decide)).append hvalue).append
    (by decide)).textLines

theorem quiet_watchers {members watched : List String} {watchers : List (Option String)}
    (hfree : names.CollisionFree members t) (hkeys : KeysOnLines t.values)
    (hproperty : Name.IsIdentifier property)
    (hwatchers : List.Forall₂ (fun d line? => watcherLine? t isStage names watched d = .ok line?)
      (dataOf t) watchers) : ∀ source ∈ watchers.filterMap id, Quiet property source := by
  intro source hsource
  obtain ⟨source?, hmem, rfl⟩ := List.mem_filterMap.1 hsource
  obtain ⟨d, hpair⟩ := Compile.exists_mem_zip hwatchers.flip hmem
  rcases watcherLine?_eq_ok (List.forall₂_zip hwatchers.flip hpair) with
    ⟨-, property', source', hproperty', hsource', heq⟩ | ⟨-, heq⟩
  · cases heq
    exact quiet_watcherSource hproperty (property_identifier hfree hproperty')
      (hkeys.datum (List.of_mem_zip hpair).2) hsource'
  · cases heq

/-- Of the lines in the text of a constructor, one gives the property of data its first value. -/
theorem filter_initialises {members triggers lines : List String}
    (hfree : names.CollisionFree members t) (hids : ((dataOf t).map (·.id)).Nodup)
    (hkeys : KeysOnLines t.values)
    (htriggers : ∀ s ∈ triggers, OneLine s ∧ s.toList.head? = some 'n')
    (h : constructorLines job isStage t names triggers = .ok lines) (hd : d ∈ dataOf t)
    (hproperty : names.data.lookup d.id = some property) :
    ∃ value, Literal.initial d.value = .ok value ∧
      (textLines ("\n".intercalate lines)).filter (initialises property) =
        ["this.vars." ++ property ++ " = " ++ value ++ ";"] := by
  obtain ⟨costumes, volume, data, watched, watchers, hcostumes, hvolume, hdata, -, hwatchers,
      rfl⟩ :=
    constructorLines_eq_parts h
  obtain ⟨value, hvalue, hfilter⟩ := filter_assigns_data hfree hids hdata hd hproperty
  refine ⟨value, hvalue, ?_⟩
  have hcostumes := fun s hs =>
    And.intro (oneLine_costumes hkeys hcostumes s hs) (head?_costumes hcostumes s hs)
  have hsounds := fun s hs => And.intro (oneLine_sounds job.options names.className t s hs)
    (head?_sounds job.options names.className t s hs)
  have hdata : (data.flatMap textLines).filter (initialises property) =
      ["this.vars." ++ property ++ " = " ++ value ++ ";"] := by
    rw [List.flatMap_congr (textLines_data hfree hkeys hdata), List.flatMap_singleton',
      filter_initialises_eq, hfilter]
    exact List.filter_cons_of_pos (bne_iff_ne.2 (ne_setter (initial_ne_value hvalue) property))
  have hempty : ([""].flatMap textLines).filter (initialises property) = [] :=
    Quiet.filter_eq_nil (List.forall_mem_singleton.2 (.of_line (by decide) (by decide)))
  rw [textLines_intercalate (by simp [listLines])]
  simp only [List.flatMap_append, List.filter_append]
  rw [Quiet.filter_eq_nil (Quiet.listLines (by decide) (by decide) hcostumes),
    Quiet.filter_eq_nil (Quiet.listLines (by decide) (by decide) hsounds),
    Quiet.filter_eq_nil (Quiet.listLines (by decide) (by decide) htriggers),
    Quiet.filter_eq_nil (quiet_volumeLines hkeys hvolume), hdata,
    Quiet.filter_eq_nil
    (quiet_watchers hfree hkeys (property_identifier hfree hproperty) hwatchers),
    hempty]
  rfl

end Export

end ScratchExport
