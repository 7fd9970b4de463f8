import ScratchExport.Proofs.Plans
import ScratchExport.Proofs.Seams

/-!
# What a block may become

`Phrase.Fits` reads a phrase from seam to seam and says what stands in its holes. `Plan.Fits` says
of a whole plan what it is made of, and `Stops` for which reasons there is none. All three speak of
a block of some kind with its inputs; the properties of generated source follow from them without
another look at the opcodes.
-/

namespace ScratchExport

/-- The blocks that name an effect. -/
def BlockKind.namesEffect : BlockKind → Bool
  | .known (.looks .changeEffectBy) | .known (.looks .setEffectTo) => true
  | .known (.audio .changeEffectBy) | .known (.audio .setEffectTo) => true
  | _ => false

/-- The blocks that read an argument of their procedure. -/
def BlockKind.isReporter : BlockKind → Bool
  | .known (.procedure .reporterStringNumber) | .known (.procedure .reporterBoolean) => true
  | _ => false

/-- The slot whose word goes into the source as it stands, as the name of an effect or in a
placeholder. -/
def BlockKind.wordSlot? : BlockKind → Option String
  | .known (.looks .changeEffectBy) | .known (.looks .setEffectTo) => some "EFFECT"
  | .known (.audio .changeEffectBy) | .known (.audio .setEffectTo) => some "EFFECT"
  | .known (.control .stop) => some "STOP_OPTION"
  | .known (.operator .mathOp) => some "OPERATOR"
  | .known (.pen .changeColorParamBy) | .known (.pen .setColorParamTo) => some "colorParam"
  | _ => none

theorem BlockKind.wordSlot?_of_namesEffect {kind : BlockKind} (h : kind.namesEffect = true) :
    kind.wordSlot? = some "EFFECT" := by
  unfold namesEffect at h
  split at h
  all_goals first | rfl | cases h

namespace Compile
open Outcome (Ensures Within)

/-! ### What phrases are made of -/

/-- The reasons why a block does not become anything: what stands in a slot is not what it should
be, or the procedure that is called is not. -/
inductive Stops (ctx : Context) (kind : BlockKind) (slots : Slots) : Fault → Prop
  | choice {slot : String} {fault : Fault} (h : slots.choice slot = .error fault) :
      Stops ctx kind slots fault
  | number {slot : String} {fault : Fault} (h : slots.literalNumber slot = .error fault) :
      Stops ctx kind slots fault
  | reference {slot : String} {fault : Fault} (h : slots.dataRef? slot = .error fault) :
      Stops ctx kind slots fault
  | key {slot : String} {v : Value} {fault : Fault} (h : slots.choice slot = .ok v)
    (hkey : v.asKey = .error fault) : Stops ctx kind slots fault
  | effect {v : Value} {fault : Fault} (h : slots.choice "EFFECT" = .ok v)
    (hname : v.asName = .error fault) : Stops ctx kind slots fault
  | label {v : Value} {fault : Fault} (h : kind = .unknown v) (hkey : v.asKey = .error fault) :
    Stops ctx kind slots fault
  | parameter {fault : Fault} (h : kind.isReporter = true)
    (hkey : (slots.literal "VALUE" .null).asKey = .error fault) : Stops ctx kind slots fault
  | passed {fault : Fault} (h : kind = .known (.procedure .call))
    (hpassed : passed slots = .error fault) : Stops ctx kind slots fault
  | argument {given : Nat → Phrase} {position : Nat} {fault : Fault}
    (h : kind = .known (.procedure .call))
    (hpassed : passed slots = .ok given) (hgiven : given position = .stop fault) :
      Stops ctx kind slots fault
  | callee {script : Script} {fault : Fault} (h : script ∈ ctx.target.scripts)
    (harguments : script.arguments = .error fault) : Stops ctx kind slots fault

/-- The phrase leads from one seam to the other. Its names, effects and string literals come from
where they should, a body is compiled where the block stands unless the block counts its rounds, and
it stops for a reason. -/
def Phrase.Fits (ctx : Context) (kind : BlockKind) (slots : Slots) (locals : Name.Space) :
    Phrase → Seam → Seam → Prop
  | .text s, a, b => a.Reads ctx.warp b s
  | .name s, a, b => (ctx.Named → IsName ctx s) ∧ a.Hole false b
  | .effect s, a, b => (kind.namesEffect = true ∧ IsEffect slots s) ∧ a.Hole true b
  | .literal s, a, b => s ∈ ctx.names.identifiers ∧ a.Hole false b
  | .body _ inner, a, b =>
    (inner = locals ∨ kind = .known (.control .loop) ∨ kind = .known (.control .forEach)) ∧
      a.Hole false b
  | .append p q, a, b | .after p q, a, b =>
    ∃ m, p.Fits ctx kind slots locals a m ∧ q.Fits ctx kind slots locals m b
  | .stop fault, _, _ => Stops ctx kind slots fault
  | .number _, a, b | .input .., a, b | .operand .., a, b | .color _, a, b | .argument _, a, b =>
    a.Hole false b

namespace Phrase.Fits
variable {ctx : Context} {kind : BlockKind} {slots : Slots} {locals : Name.Space} {p q : Phrase}
  {a m b : Seam} {cs : List Char} {slash f g : Bool}

/-- A literal text, by its characters: they are found by unification, which spares decoding them. -/
theorem text (h : a.after true cs = some b) :
    (Phrase.text (String.ofList cs)).Fits ctx kind slots locals a b :=
  Seam.reads_of_after h fun _ => rfl

theorem refresh (hwarp : ctx.warp = false) (h : a.after false cs = some b) :
    (Phrase.text (String.ofList cs)).Fits ctx kind slots locals a b := by
  refine Seam.reads_of_after h fun htrue => ?_
  rw [hwarp] at htrue
  cases htrue

theorem append (hp : p.Fits ctx kind slots locals a m) (hq : q.Fits ctx kind slots locals m b) :
    (p ++ q).Fits ctx kind slots locals a b :=
  ⟨m, hp, hq⟩

theorem after (hp : p.Fits ctx kind slots locals a m) (hq : q.Fits ctx kind slots locals m b) :
    (Phrase.after p q).Fits ctx kind slots locals a b :=
  ⟨m, hp, hq⟩

theorem move (h : p.Fits ctx kind slots locals a b) (ha : a.start ≤ f) (hb : g ≤ b.start)
    (k : Nat) :
    p.Fits ctx kind slots locals ⟨a.depth + k, a.slash, f⟩ ⟨b.depth + k, b.slash, g⟩ := by
  induction p generalizing a b f g with
  | text s => exact Seam.Reads.move h ha hb k
  | name s | effect s | literal s | body slot inner => exact ⟨h.1, h.2.move ha hb k⟩
  | append p q ihp ihq | after p q ihp ihq =>
    obtain ⟨m, hp, hq⟩ := h
    exact ⟨_, ihp hp ha le_rfl, ihq hq le_rfl hb⟩
  | stop fault => exact h
  | number x | input slot shape | operand slot shape | color slot | argument position =>
    exact Seam.Hole.move h ha hb k

theorem relax (h : p.Fits ctx kind slots locals a b) (ha : a.start ≤ f) (hb : g ≤ b.start) :
    p.Fits ctx kind slots locals { a with start := f } { b with start := g } :=
  h.move ha hb 0

theorem deeper {start : Bool} (h : p.Fits ctx kind slots locals ⟨0, false, start⟩ ⟨0, slash, false⟩)
    {d : Nat} (hf : start ≤ f) : p.Fits ctx kind slots locals ⟨d, false, f⟩ ⟨d, slash, false⟩ := by
  have hmoved := h.move hf le_rfl d
  rwa [Nat.zero_add] at hmoved

theorem loose {d : Nat} (h : a.after true cs = some ⟨d, slash, g⟩) :
    (Phrase.text (String.ofList cs)).Fits ctx kind slots locals a ⟨d, slash, false⟩ :=
  relax (f := a.start) (text h) le_rfl bot_le

end Phrase.Fits

/-! ### What plans are made of -/

/-- An argument reporter names a parameter of the script. -/
def NamesParameter (ctx : Context) (kind : BlockKind) (slots : Slots) : Prop :=
  kind.isReporter = true → ∃ s, slots.literal "VALUE" .null = .text s ∧ s ∈ ctx.params.map (·.1)

/-- The kinds of things that can be missing. -/
def missingWords : List String := ["sprite", "variable", "list", "procedure"]

/-- What placeholders add to the label of an opcode. -/
def labelEndings : List String := [" with a reporter target", " without an effect"]

/-- What placeholders say before the word of a slot. -/
def wordLabels : List String := ["stop ", "mathop ", "pen color param "]

/-- What the placeholder for a block says: fixed words, the choice of a menu, or the label of an
unknown block. -/
inductive IsLabel (kind : BlockKind) (slots : Slots) : String → Prop
  | opcode {op : Opcode} (h : kind = .known op) : IsLabel kind slots op.label
  | ended {op : Opcode} {ending : String} (h : kind = .known op) (hending : ending ∈ labelEndings) :
    IsLabel kind slots (op.label ++ ending)
  | style {v : Value} (h : slots.choice "STYLE" = .ok v) :
      IsLabel kind slots ("rotation style " ++ v.quoted)
  | word {first slot : String} {v : Value} (hfirst : first ∈ wordLabels)
    (hslot : kind.wordSlot? = some slot)
    (h : slots.choice slot = .ok v) : IsLabel kind slots (first ++ v.display)
  | unknown {v : Value} (h : kind = .unknown v) : IsLabel kind slots v.display

/-- The names of missing things: a choice, a reference, the code of a procedure, or nothing. -/
inductive IsMissed (slots : Slots) : Value → Prop
  | choice {slot : String} {v : Value} (h : slots.choice slot = .ok v) : IsMissed slots v
  | reference {slot : String} {ref : DataRef} (h : slots.dataRef? slot = .ok (some ref)) :
      IsMissed slots ref.name
  | procedure : IsMissed slots (slots.literal "PROCCODE" .null)
  | nothing : IsMissed slots (.text "")

section
variable {P : Bool → Bool → String → Prop} {kind : BlockKind} {slots : Slots}

/-- A scan that finds nothing in the texts of a block finds nothing in what a placeholder says. -/
theorem IsLabel.clear {label : String} (h : IsLabel kind slots label) (law : TextLaw P)
    (htexts : TextLaw.Clear P (kind.texts ++ slotTexts slots)) : P false true label := by
  obtain ⟨hkind, hslots⟩ := List.forall_mem_append.1 htexts
  cases h with
  | opcode => exact law.label _
  | ended _ hending =>
    have hfixed : ∀ s ∈ labelEndings, s ∈ fixedTexts := by decide
    exact law.weaken (law.append (law.label _) (law.fixed _ (hfixed _ hending)))
  | style hchoice =>
    exact law.append (law.opening _) (law.value_quoted _ (law.choice hslots _ _ hchoice))
  | word hfirst _ hchoice =>
    have hfixed : ∀ s ∈ wordLabels, s ∈ fixedTexts := by decide
    exact law.append (law.narrow (law.fixed _ (hfixed _ hfirst)))
      (law.display (law.choice hslots _ _ hchoice))
  | unknown hv =>
    subst hv
    exact law.display hkind

theorem IsMissed.clear {name : Value} (h : IsMissed slots name) (law : TextLaw P)
    (htexts : TextLaw.Clear P (slotTexts slots)) : TextLaw.Clear P name.texts := by
  cases h with
  | choice hchoice => exact law.choice htexts _ _ hchoice
  | reference href => exact law.dataRef? htexts _ _ href _ rfl
  | procedure => exact law.slot_literal htexts _ TextLaw.clear_nil
  | nothing => exact TextLaw.clear_singleton.2 (law.weaken (law.empty false))

end

/-- What the plan for a block is made of. Only a reporter without a parameter is astray. -/
def Plan.Fits (ctx : Context) (kind : BlockKind) (slots : Slots) (locals : Name.Space) : Plan → Prop
  | .phrase p _ => p.Fits ctx kind slots locals ⟨0, false, true⟩ ⟨0, false, false⟩
  | .literal v => v = slots.menuValue
  | .placeholder label => IsLabel kind slots label
  | .missing what name => what ∈ missingWords ∧ IsMissed slots name
  | .stray _ source _ => (source = "0" ∨ source = "false") ∧ ¬ NamesParameter ctx kind slots

theorem Plan.fits_phrase {ctx : Context} {kind : BlockKind} {slots : Slots} {locals : Name.Space}
    {p : Phrase} {shape : Shape}
    (h : p.Fits ctx kind slots locals ⟨0, false, true⟩ ⟨0, false, false⟩) :
    (Plan.phrase p shape).Fits ctx kind slots locals := h

/-- The computation ends with a plan for the block, or it stops for one of the block's reasons. -/
abbrev Becomes (ctx : Context) (kind : BlockKind) (slots : Slots) (locals : Name.Space)
    (x : Except Fault Plan) : Prop :=
  Within (Stops ctx kind slots) x (Plan.Fits ctx kind slots locals)

end Compile

end ScratchExport
