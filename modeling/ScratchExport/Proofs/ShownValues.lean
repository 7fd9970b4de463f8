import ScratchExport.Compile.Literal
import ScratchExport.Compile.Slots
import ScratchExport.Literal.Color
import ScratchExport.Proofs.Assoc
import ScratchExport.Proofs.Outcome
import ScratchExport.Proofs.Texts

/-!
# What a value shows of its texts

A scan looks for a word, and `P a b s` says that it gets through the text `s` without finding it.
Before and behind the text the scan is either at its start (`false`), or perhaps in the middle of
the word (`true`). `TextLaw` collects what such a scan has to satisfy: it goes through numbers,
quoting keeps a text apart from what stands around it, and so do the fixed words between texts.

Then, if the scan finds nothing in the texts of a value, it finds nothing in the value where it is
shown, spoken or written as a literal, and nothing in the description of a block. This holds of the
values that the slots of a block hold, since these are made from the texts of the block.
-/

namespace ScratchExport
open Outcome (Ensures)

/-- The fixed words in values, in descriptions and in what placeholders say. -/
def fixedTexts : List String :=
  ["None", "True", "False", "null", "true", "false", "[", "]", "\x7b", "\x7d", "\x7b ", " \x7d",
    "(", ")", ", ", ": ", "Color.rgb(", "Color.num(", ", name=", "ProcedureArgument(type=",
    ", default=", "BlockInput(type=", ", value=", "Block(opcode=", ", inputs=\x7b", "\x7d, id=",
    "label", "numberOrString", "boolean", "variable", "list", "'block'", "'blocks'",
    "'customBlockArguments'", "'customBlockInputValues'", " with a reporter target",
    " without an effect", "rotation style ", "stop ", "mathop ", "pen color param "]

/-- What a scan for a word has to satisfy so that values do not bring the word about. -/
structure TextLaw (P : Bool → Bool → String → Prop) : Prop where
  append : ∀ {a b c : Bool} {s t : String}, P a b s → P b c t → P a c (s ++ t)
  weaken : ∀ {a : Bool} {s : String}, P a false s → P a true s
  narrow : ∀ {b : Bool} {s : String}, P true b s → P false b s
  empty : ∀ a : Bool, P a a ""
  literal : ∀ {s : String}, P false true s → P true false (Text.literal s)
  quoted : ∀ {s : String}, P false true s → P true false (Text.quoted s)
  integer : ∀ i : Int, P false false (toString i)
  double : ∀ x : Binary64, P false false x.text
  number : ∀ x : Binary64, P false true (Literal.numberLiteral x)
  fixed : ∀ s ∈ fixedTexts, P true false s
  reference : P false false "DataRef(id="
  label : ∀ op : Opcode, P false true op.label

namespace TextLaw
variable {P : Bool → Bool → String → Prop}

/-- The scan finds nothing in any of the texts. -/
abbrev Clear (P : Bool → Bool → String → Prop) (texts : List String) : Prop :=
  ∀ s ∈ texts, P false true s

theorem clear_nil : Clear P [] := fun _ h => nomatch h

theorem clear_singleton {s : String} : Clear P [s] ↔ P false true s :=
  List.forall_mem_singleton

/-- A fixed word keeps the texts on its two sides apart. -/
theorem mark (law : TextLaw P) (s : String) (h : s ∈ fixedTexts := by simp [fixedTexts]) :
    P true false s :=
  law.fixed s h

theorem opening (law : TextLaw P) (s : String) (h : s ∈ fixedTexts := by simp [fixedTexts]) :
    P false false s :=
  law.narrow (law.fixed s h)

theorem word (law : TextLaw P) (s : String) (h : s ∈ fixedTexts := by simp [fixedTexts]) :
    P false true s :=
  law.weaken (law.opening s h)

theorem loose (law : TextLaw P) {s : String} (h : P true false s) : P false true s :=
  law.weaken (law.narrow h)

theorem between (law : TextLaw P) {first last s : String} (hfirst : P false false first)
    (hs : P false true s) (hlast : P true false last) : P false false (first ++ s ++ last) :=
  law.append (law.append hfirst hs) hlast

theorem intercalate (law : TextLaw P) {l : List String} (h : Clear P l) :
    P false true (", ".intercalate l) := by
  induction l with
  | nil => rw [String.intercalate_nil]; exact law.weaken (law.empty false)
  | cons t rest ih =>
    rw [Clear, List.forall_mem_cons] at h
    cases rest with
    | nil => rw [String.intercalate_singleton]; exact h.1
    | cons u rest =>
      rw [String.intercalate_cons_cons]
      exact law.append (law.append h.1 (law.mark ", ")) (ih h.2)

theorem triple (law : TextLaw P) {first last : String} (hfirst : P false false first)
    (hlast : P true false last) (r g b : Int) :
    P false false (first ++ toString r ++ ", " ++ toString g ++ ", " ++ toString b ++ last) := by
  have hcomma := law.opening ", "
  have hinside := law.append (law.append (law.append hfirst (law.integer r)) hcomma) (law.integer g)
  exact law.append (law.append (law.append hinside hcomma) (law.integer b)) (law.narrow hlast)

/-! ### Showing values -/

mutual
theorem value_quoted (law : TextLaw P) : ∀ v : Value, Clear P v.texts → P false true v.quoted
  | .null, _ => law.word "None"
  | .bool true, _ => law.word "True"
  | .bool false, _ => law.word "False"
  | .int i, _ => law.weaken (law.integer i)
  | .float x, _ => law.weaken (law.double x)
  | .text s, h => law.loose (law.quoted (h s (List.mem_singleton_self s)))
  | .list items, h =>
    law.weaken (law.between (law.opening "[") (law.intercalate (clear_quotedItems law items h))
      (law.mark "]"))
  | .record fields, h =>
    law.weaken (law.between (law.opening "\x7b") (law.intercalate (clear_quotedFields law fields h))
      (law.mark "\x7d"))
  | .rgb r g b, _ => law.weaken (law.triple (law.opening "(") (law.mark ")") r g b)
  | .described s, h => h s (List.mem_singleton_self s)

theorem clear_quotedItems (law : TextLaw P) :
    ∀ items : List Value, Clear P (Value.itemTexts items) →
    Clear P (Value.quotedItems items)
  | [], _ => clear_nil
  | v :: rest, h => by
    rw [Value.itemTexts, Clear, List.forall_mem_append] at h
    exact List.forall_mem_cons.2 ⟨value_quoted law v h.1, clear_quotedItems law rest h.2⟩

theorem clear_quotedFields (law : TextLaw P) :
    ∀ fields : List (String × Value), Clear P (Value.fieldTexts fields) →
    Clear P (Value.quotedFields fields)
  | [], _ => clear_nil
  | (key, v) :: rest, h => by
    simp only [Value.fieldTexts, List.cons_append, Clear, List.forall_mem_cons,
      List.forall_mem_append] at h
    obtain ⟨hkey, hv, hrest⟩ := h
    have hcolon := law.opening ": "
    have hkey := law.append (law.narrow (law.quoted hkey)) hcolon
    exact List.forall_mem_cons.2 ⟨law.append hkey (value_quoted law v hv),
      clear_quotedFields law rest hrest⟩
end

theorem display (law : TextLaw P) {v : Value} (h : Clear P v.texts) : P false true v.display := by
  unfold Value.display
  split
  · exact h _ (List.mem_singleton_self _)
  · exact law.value_quoted _ h

theorem spoken (law : TextLaw P) {v : Value} (h : Clear P v.texts) :
    Ensures (Literal.spoken v) (P false true) := by
  cases v with
  | null => exact .ok (law.weaken (law.empty false))
  | bool b =>
    cases b with
    | true => exact .ok (law.word "true")
    | false => exact .ok (law.word "false")
  | int i => exact .bind fun x _ => .pure (law.number x)
  | float x => exact .ok (law.number x)
  | text t => exact .ok (h t (List.mem_singleton_self t))
  | list | record | rgb | described => exact .ok (law.display h)

/-! ### Writing values -/

theorem initialScalar (law : TextLaw P) {v : Value} (h : Clear P v.texts) :
    Ensures (Literal.initialScalar v) (P false true) := by
  have htext : Ensures (do return Text.literal (← Literal.spoken v)) (P false true) :=
    .bind fun s hs => .pure (law.loose (law.literal (law.spoken h s hs)))
  unfold Literal.initialScalar
  refine .bind fun number _ => ?_
  split
  · split
    · exact .pure (law.number _)
    · exact htext
  · exact htext

mutual
theorem initial (law : TextLaw P) :
    ∀ v : Value, Clear P v.texts → Ensures (Literal.initial v) (P false true)
  | .null, _ => by rw [Literal.initial]; exact .ok (law.word "null")
  | .bool true, _ => by rw [Literal.initial]; exact .ok (law.word "true")
  | .bool false, _ => by rw [Literal.initial]; exact .ok (law.word "false")
  | .list items, h => by
    rw [Literal.initial]
    refine .bind fun written hwritten => .pure (law.weaken ?_)
    exact law.between (law.opening "[")
      (law.intercalate (initialItems law items h written hwritten)) (law.mark "]")
  | .record fields, h => by
    rw [Literal.initial]
    refine .bind fun written hwritten => .pure (law.weaken ?_)
    exact law.between (law.opening "\x7b ")
      (law.intercalate (initialFields law fields h written hwritten)) (law.mark " \x7d")
  | .rgb r g b, _ => by
    rw [Literal.initial]
    refine .bind fun red hred => .bind fun green hgreen => .bind fun blue hblue => .pure ?_
    have hscalar (i : Int) : Ensures (Literal.initialScalar (.int i)) (P false true) :=
      law.initialScalar clear_nil
    have hopen := law.opening "["
    have hcomma := law.mark ", "
    have hclose := law.weaken (law.mark "]")
    have hinside := law.append (law.append hopen (hscalar _ red hred)) hcomma
    have hinside := law.append (law.append hinside (hscalar _ green hgreen)) hcomma
    exact law.append (law.append hinside (hscalar _ blue hblue)) hclose
  | .int i, h => by rw [Literal.initial]; exact law.initialScalar h
  | .float x, h => by rw [Literal.initial]; exact law.initialScalar h
  | .text t, h => by rw [Literal.initial]; exact law.initialScalar h
  | .described t, h => by rw [Literal.initial]; exact law.initialScalar h

theorem initialItems (law : TextLaw P) : ∀ items : List Value, Clear P (Value.itemTexts items) →
    Ensures (Literal.initialItems items) (Clear P)
  | [], _ => by rw [Literal.initialItems]; exact .ok clear_nil
  | v :: rest, h => by
    rw [Value.itemTexts, Clear, List.forall_mem_append] at h
    rw [Literal.initialItems]
    refine .bind fun first hfirst => .bind fun others hothers => .pure ?_
    exact List.forall_mem_cons.2 ⟨initial law v h.1 first hfirst,
      initialItems law rest h.2 others hothers⟩

theorem initialFields (law : TextLaw P) :
    ∀ fields : List (String × Value), Clear P (Value.fieldTexts fields) →
    Ensures (Literal.initialFields fields) (Clear P)
  | [], _ => by rw [Literal.initialFields]; exact .ok clear_nil
  | (key, v) :: rest, h => by
    simp only [Value.fieldTexts, List.cons_append, Clear, List.forall_mem_cons,
      List.forall_mem_append] at h
    obtain ⟨hkey, hv, hrest⟩ := h
    rw [Literal.initialFields]
    refine .bind fun first hfirst => .bind fun others hothers => .pure ?_
    have hkey := law.append hkey (law.mark ": ")
    exact List.forall_mem_cons.2 ⟨law.append hkey (initial law v hv first hfirst),
      initialFields law rest hrest others hothers⟩
end

theorem colorSource (law : TextLaw P) {v : Value} (h : Clear P v.texts) :
    Ensures (Literal.Color.source v) (P false false) := by
  unfold Literal.Color.source
  refine .bind fun components _ => ?_
  rcases components with _ | ⟨r, g, b⟩
  · refine .bind fun written hwritten => .pure ?_
    exact law.between (law.opening "Color.num(") (law.initial v h written hwritten) (law.mark ")")
  · exact .pure (law.triple (law.opening "Color.rgb(") (law.mark ")") r g b)

/-! ### Describing blocks -/

theorem clear_label (law : TextLaw P) {kind : BlockKind} (h : Clear P kind.texts) :
    Clear P kind.label.texts := by
  cases kind with
  | known op => exact clear_singleton.2 (law.label op)
  | unknown label => exact h

theorem dataRef_describe (law : TextLaw P) {ref : DataRef} (h : Clear P ref.texts) :
    P false true ref.describe := by
  rw [DataRef.texts, Clear, List.forall_mem_append] at h
  have hname := law.mark ", name="
  have hclose := law.mark ")"
  have hid := law.append (law.append law.reference (law.value_quoted ref.id h.1)) hname
  exact law.weaken (law.append (law.append hid (law.value_quoted ref.name h.2)) hclose)

theorem argument_describe (law : TextLaw P) {a : Argument} (h : Clear P a.texts) :
    P false true a.describe := by
  rw [Argument.texts, Clear, List.forall_mem_append] at h
  have hopen := law.opening "ProcedureArgument(type="
  have hword : P false true a.kind.word := by
    cases a.kind <;> exact law.word _ (by simp [fixedTexts, ArgumentKind.word])
  have hkind := law.narrow (law.quoted hword)
  have hname := law.opening ", name="
  have hdefault := law.mark ", default="
  have hclose := law.mark ")"
  have hfirst :=
    law.append (law.append (law.append hopen hkind) hname) (law.value_quoted a.name h.1)
  exact law.weaken
    (law.append (law.append (law.append hfirst hdefault) (law.value_quoted a.default h.2)) hclose)

theorem describeAs (law : TextLaw P) {kind value : String} (hkind : P false false kind)
    (hvalue : P false true value) : P false true (Input.describe.describeAs kind value) := by
  have hopen := law.opening "BlockInput(type="
  have hmiddle := law.opening ", value="
  have hclose := law.mark ")"
  exact law.weaken
    (law.append (law.append (law.append (law.append hopen hkind) hmiddle) hvalue) hclose)

theorem bracketed (law : TextLaw P) {items : List String} (h : Clear P items) :
    P false true ("[" ++ ", ".intercalate items ++ "]") :=
  law.weaken (law.between (law.opening "[") (law.intercalate h) (law.mark "]"))

theorem block_describe_mk (kind : BlockKind) (inputs : List (String × Input)) (id : String) :
    (Block.mk kind inputs id).describe = "Block(opcode=" ++ kind.label.quoted ++ ", inputs=\x7b"
      ++ ", ".intercalate (describeInputs inputs) ++ "\x7d, id=" ++ Text.quoted id ++ ")" := rfl

mutual
theorem block_describe (law : TextLaw P) : ∀ b : Block, Clear P b.texts → P false true b.describe
  | .mk kind inputs id, h => by
    simp only [Block.texts, Clear, List.forall_mem_append, List.forall_mem_singleton] at h
    obtain ⟨hkind, hinputs, hid⟩ := h
    have hopen := law.opening "Block(opcode="
    have hopenInputs := law.mark ", inputs=\x7b"
    have hcloseInputs := law.mark "\x7d, id="
    have hclose := law.opening ")"
    have hlabel :=
      law.append (law.append hopen (law.value_quoted _ (law.clear_label hkind))) hopenInputs
    have hinside := law.append hlabel (law.intercalate (clear_describeInputs law inputs hinputs))
    have hid := law.append (law.append hinside hcloseInputs) (law.narrow (law.quoted hid))
    rw [block_describe_mk]
    exact law.weaken (law.append hid hclose)

theorem clear_describeInputs (law : TextLaw P) :
    ∀ inputs : List (String × Input), Clear P (slotTexts inputs) →
    Clear P (describeInputs inputs)
  | [], _ => clear_nil
  | (slot, input) :: rest, h => by
    simp only [slotTexts, Clear, List.forall_mem_cons, List.forall_mem_append] at h
    obtain ⟨hslot, hinput, hrest⟩ := h
    have hcolon := law.opening ": "
    have hslot := law.append (law.narrow (law.quoted hslot)) hcolon
    exact List.forall_mem_cons.2 ⟨law.append hslot (input_describe law input hinput),
      clear_describeInputs law rest hrest⟩

theorem input_describe (law : TextLaw P) :
    ∀ input : Input, Clear P input.texts → P false true input.describe
  | .plain kind v, h => by
    rw [Input.texts, Clear, List.forall_mem_cons] at h
    exact law.describeAs (law.narrow (law.quoted h.1)) (law.value_quoted v h.2)
  | .reference kind ref, h => by
    have hword : P false true kind.word := by
      cases kind <;> exact law.word _ (by simp [fixedTexts, DataKind.word])
    exact law.describeAs (law.narrow (law.quoted hword)) (law.dataRef_describe h)
  | .block none, _ => law.describeAs (law.opening "'block'") (law.word "None")
  | .block (some b), h => law.describeAs (law.opening "'block'") (block_describe law b h)
  | .stack none, _ => law.describeAs (law.opening "'blocks'") (law.word "None")
  | .stack (some bs), h =>
    law.describeAs (law.opening "'blocks'") (law.bracketed (clear_describeBlocks law bs h))
  | .arguments items, h => by
    refine law.describeAs (law.opening "'customBlockArguments'") (law.bracketed fun s hs => ?_)
    obtain ⟨a, ha, rfl⟩ := List.mem_map.1 hs
    exact law.argument_describe fun t ht => h t (List.mem_flatMap.2 ⟨a, ha, ht⟩)
  | .values items, h =>
    law.describeAs (law.opening "'customBlockInputValues'")
      (law.bracketed (clear_describeItems law items h))

theorem clear_describeBlocks (law : TextLaw P) : ∀ bs : List Block, Clear P (stackTexts bs) →
    Clear P (describeBlocks bs)
  | [], _ => clear_nil
  | b :: rest, h => by
    rw [stackTexts, Clear, List.forall_mem_append] at h
    exact List.forall_mem_cons.2 ⟨block_describe law b h.1, clear_describeBlocks law rest h.2⟩

theorem clear_describeItems (law : TextLaw P) : ∀ items : List Input, Clear P (passedTexts items) →
    Clear P (describeItems items)
  | [], _ => clear_nil
  | x :: rest, h => by
    rw [passedTexts, Clear, List.forall_mem_append] at h
    exact List.forall_mem_cons.2 ⟨input_describe law x h.1, clear_describeItems law rest h.2⟩
end

/-! ### Reading slots -/

theorem clear_described {α : Type} {f : α → String} {l : List α} (h : ∀ a ∈ l, P false true (f a)) :
    Clear P (Value.itemTexts (l.map fun a => .described (f a))) := by
  induction l with
  | nil => exact clear_nil
  | cons a rest ih =>
    rw [List.forall_mem_cons] at h
    exact List.forall_mem_append.2 ⟨clear_singleton.2 h.1, ih h.2⟩

theorem content (law : TextLaw P) {input : Input} (h : Clear P input.texts) :
    Clear P input.content.texts := by
  have hdescribed {s : String} (hs : P false true s) : Clear P (Value.described s).texts :=
    clear_singleton.2 hs
  match input with
  | .plain _ v => exact (List.forall_mem_cons.1 h).2
  | .reference _ ref => exact hdescribed (law.dataRef_describe h)
  | .block none | .stack none => exact clear_nil
  | .block (some b) => exact hdescribed (law.block_describe b h)
  | .stack (some bs) =>
    exact clear_described fun b hb => law.block_describe b fun s hs => h s (mem_stackTexts hb hs)
  | .arguments items =>
    exact clear_described fun a ha => law.argument_describe fun s hs =>
      h s (List.mem_flatMap.2 ⟨a, ha, hs⟩)
  | .values items =>
    exact clear_described fun x hx => law.input_describe x fun s hs => h s (mem_passedTexts hx hs)

theorem literal? (law : TextLaw P) {input : Input} (h : Clear P input.texts) {v : Value}
    (hv : input.literal? = some v) :
    Clear P v.texts := by
  unfold Input.literal? at hv
  split_ifs at hv
  rw [← Option.some.inj hv]
  exact law.content h

theorem menuValue (law : TextLaw P) {slots : Slots} (h : Clear P (slotTexts slots)) :
    Clear P slots.menuValue.texts := by
  unfold Slots.menuValue
  generalize hfind : List.findSome? _ slots = found
  cases found with
  | none => exact clear_nil
  | some v =>
    obtain ⟨⟨slot, input⟩, hmem, hv⟩ := List.exists_of_findSome?_eq_some hfind
    exact law.literal? (fun s hs => h s (mem_slotTexts hmem hs)) hv

theorem input_choice (law : TextLaw P) {input : Input} (h : Clear P input.texts) :
    Ensures input.choice fun v => Clear P v.texts := by
  have hspoken {v : Value} (hv : Clear P v.texts) :
      Ensures (do return .text (← Literal.spoken v)) fun v : Value => Clear P v.texts :=
    .bind fun s hs => .pure (clear_singleton.2 (law.spoken hv s hs))
  unfold Input.choice
  split
  · next b =>
    split_ifs
    · refine hspoken (law.menuValue fun s hs => h s ?_)
      obtain ⟨kind, inputs, id⟩ := b
      exact List.mem_append_right _ (List.mem_append_left _ hs)
    · exact .ok (clear_singleton.2 (law.weaken (law.empty false)))
  · exact .ok (List.forall_mem_append.1 h).2
  · exact hspoken (law.content h)

theorem lookup {slots : Slots} (h : Clear P (slotTexts slots)) {slot : String} {input : Input}
    (hinput : slots.lookup slot = some input) : Clear P input.texts :=
  fun s hs => h s (mem_slotTexts (Assoc.mem_of_lookup hinput) hs)

theorem choice (law : TextLaw P) {slots : Slots} (h : Clear P (slotTexts slots)) (slot : String) :
    Ensures (slots.choice slot) fun v => Clear P v.texts := by
  unfold Slots.choice
  split
  · next hinput => exact law.input_choice (lookup h hinput)
  · exact .ok (clear_singleton.2 (law.weaken (law.empty false)))

theorem slot_literal (law : TextLaw P) {slots : Slots} (h : Clear P (slotTexts slots))
    (slot : String) {default : Value} (hdefault : Clear P default.texts) :
    Clear P (slots.literal slot default).texts := by
  unfold Slots.literal
  cases hinput : slots.lookup slot with
  | none => exact hdefault
  | some input =>
    rw [Option.bind_some]
    cases hv : input.literal? with
    | none => exact hdefault
    | some v => exact law.literal? (lookup h hinput) hv

theorem dataRef? (law : TextLaw P) {slots : Slots} (h : Clear P (slotTexts slots)) (slot : String) :
    Ensures (slots.dataRef? slot) fun ref? => ∀ ref, ref? = some ref → Clear P ref.name.texts := by
  have hnone : Ensures (.ok none) fun ref? : Option DataRef => ∀ ref, ref? = some ref →
      Clear P ref.name.texts :=
    .ok fun _ hsome => nomatch hsome
  unfold Slots.dataRef?
  split
  · next input hinput =>
    have hinput := lookup h hinput
    unfold Input.dataRef?
    split
    · exact .ok fun ref hsome => by
        rw [← Option.some.inj hsome]; exact (List.forall_mem_append.1 hinput).2
    · split
      · exact hnone
      · refine .bind fun s hs => .pure fun ref hsome => ?_
        rw [← Option.some.inj hsome]
        exact clear_singleton.2 (law.spoken (law.content hinput) s hs)
  · exact hnone

end TextLaw

end ScratchExport
