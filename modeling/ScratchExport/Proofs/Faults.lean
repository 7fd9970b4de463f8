import ScratchExport.Proofs.Assoc
import ScratchExport.Proofs.Integers
import ScratchExport.Proofs.SourceLaw

/-!
# Numbers too large for a double

Of the faults that untyped data can lead to, one is left when the data has the types that it should
have: an integer too large for a double. `Settles H x Q` says that `x` ends well with a result as in
`Q`, or stops at such a number, and the latter only if `H` holds. Here are its own rules, the
numbers in question, and what the readers of values and slots do with them.
-/

namespace ScratchExport

namespace Outcome

/-- The computation ends well with a result as in `Q`, or at a number that is too large, and then
`H` holds. -/
abbrev Settles {α : Type} (H : Prop) (x : Except Fault α) (Q : α → Prop) : Prop :=
  Within (fun fault => fault = .tooLarge ∧ H) x Q

namespace Settles
variable {α β : Type} {H : Prop} {x : Except Fault α} {Q : α → Prop}

theorem tooLarge (h : H) : Settles H (.error .tooLarge : Except Fault α) Q :=
  ⟨.error _, .error ⟨rfl, h⟩⟩

theorem bind {f : α → Except Fault β} {S : β → Prop} (hx : Settles H x Q)
    (hf : ∀ a, Q a → Settles H (f a) S) : Settles H (x >>= f) S :=
  Within.bind hx.faults fun a ha => hf a (hx.result a ha)

theorem ok_or_tooLarge (hx : Settles H x Q) :
    (∃ a, x = .ok a ∧ Q a) ∨ (x = .error .tooLarge ∧ H) := by
  cases x with
  | error fault =>
    obtain ⟨rfl, h⟩ := hx.faults fault rfl
    exact .inr ⟨rfl, h⟩
  | ok a => exact .inl ⟨a, rfl, hx.result a rfl⟩

end Settles

/-- The same without a property of the result. -/
abbrev Ends {α : Type} (H : Prop) (x : Except Fault α) : Prop :=
  Settles H x fun _ => True

end Outcome

open Outcome (Settles Ends)

variable {H : Prop} {v : Value}

/-! ### Values -/

/-- An integer that is too large for a double, or a text that writes one in base 16, 8 or 2. -/
def Value.TooLarge : Value → Prop
  | .int i => Binary64.Exceeds i.natAbs
  | .text s => ∃ n, Literal.based? (Text.trim s.toList) = some n ∧ Binary64.Exceeds n
  | _ => False

theorem Value.double_ends {i : Int} (h : Binary64.Exceeds i.natAbs → H) : Ends H (double i) := by
  unfold double
  cases hi : Binary64.ofInt? i with
  | none => exact .tooLarge (h (Binary64.ofInt?_eq_none_iff.1 hi))
  | some x => exact .ok trivial

namespace Literal

theorem number?_ends (hv : v.TooLarge → H) : Ends H (number? v) := by
  cases v with
  | int i => exact (Value.double_ends hv).bind fun _ _ => .pure trivial
  | text s =>
    show Ends H (ofText s)
    unfold ofText
    dsimp only
    split
    · exact .ok trivial
    · split
      · next n hn =>
        refine (Value.double_ends fun hlarge => ?_).bind fun _ _ => .pure trivial
        rw [Int.natAbs_natCast] at hlarge
        exact hv ⟨n, hn, hlarge⟩
      · split_ifs <;> exact .ok trivial
  | _ => exact .ok trivial

theorem spoken_ends (hv : v.TooLarge → H) : Ends H (spoken v) := by
  cases v with
  | int i => exact (Value.double_ends hv).bind fun _ _ => .pure trivial
  | _ => exact .ok trivial

theorem castBoolean_ends (hv : v.TooLarge → H) : Ends H (castBoolean v) := by
  cases v with
  | int i =>
    rw [castBoolean]
    split_ifs
    · exact .ok trivial
    · exact (Value.double_ends hv).bind fun _ _ => .pure trivial
  | _ => exact .ok trivial

theorem castNumber_ends (hv : v.TooLarge → H) : Ends H (castNumber v) := by
  cases v with
  | bool b => exact .ok trivial
  | _ => exact (number?_ends hv).bind fun _ _ => .pure trivial

theorem initial_text_ends {s : String} (hs : (Value.text s).TooLarge → H) :
    Ends H (initial (.text s)) := by
  rw [initial]
  refine (number?_ends hs).bind fun number _ => ?_
  have htext : Ends H (do return Text.literal (← spoken (.text s))) := .ok trivial
  cases number with
  | none => exact htext
  | some x =>
    dsimp only
    split_ifs
    · exact .pure trivial
    · exact htext

end Literal

/-- A colour: a text, or red, green and blue. -/
inductive Value.IsColor : Value → Prop
  | text (s : String) : IsColor (.text s)
  | rgb (r g b : Int) : IsColor (.rgb r g b)
  | list (r g b : Int) : IsColor (.list [.int r, .int g, .int b])

theorem Literal.Color.source_text (s : String) :
    source (.text s) = match ofHex? (Text.trim s.toList) with
    | some (r, g, b) =>
      .ok ("Color.rgb(" ++ toString r ++ ", " ++ toString g ++ ", " ++ toString b ++ ")")
    | none => do return "Color.num(" ++ (← initial (.text s)) ++ ")" := rfl

theorem Literal.Color.source_ends (hcolor : v.IsColor) (hv : v.TooLarge → H) :
    Ends H (source v) := by
  cases hcolor with
  | text s =>
    rw [source_text]
    split
    · exact .ok trivial
    · exact (initial_text_ends hv).bind fun _ _ => .pure trivial
  | rgb r g b => exact .ok trivial
  | list r g b => exact .ok trivial

namespace Compile

theorem literalFragment_ends (hv : v.TooLarge → H) (desired : Shape) :
    Ends H (literalFragment v desired) :=
  literalFragment_within (L := fun _ => True) (Literal.spoken_ends hv)
    (Literal.number?_ends hv).faults
    (Literal.castBoolean_ends hv).faults (Literal.castNumber_ends hv).faults
      (fun _ => trivial) (fun _ => trivial) desired

theorem null_ends (desired : Shape) : Ends H (literalFragment .null desired) :=
  literalFragment_ends False.elim desired

end Compile

/-! ### Inputs and slots -/

/-- A colour where a colour should be, and a text as the name of data. -/
def Input.WellShaped : Input → Prop
  | .plain kind v => kind = "color" → v.IsColor
  | .reference _ ref => ∃ s, ref.name = .text s
  | .block _ | .stack _ | .arguments _ | .values _ => True

/-- The literal in an input, or the name of the data that it refers to. -/
def Input.literalValue? : Input → Option Value
  | .plain _ v => some v
  | .reference _ ref => some ref.name
  | .block _ | .stack _ | .arguments _ | .values _ => none

/-- A well-shaped input, whose number is too large only if `H` holds. -/
structure Input.Admitted (H : Prop) (x : Input) : Prop where
  wellShaped : x.WellShaped
  moderate : ∀ v, x.literalValue? = some v → v.TooLarge → H

theorem Input.Admitted.content {x : Input} (h : x.Admitted H) : x.content.TooLarge → H := by
  rcases x with _ | _ | (_ | b) | (_ | bs) | _ | _
  case plain => exact h.moderate _ rfl
  all_goals exact False.elim

theorem Input.Admitted.written {x : Input} (h : x.Admitted H) (hv : Compile.written? x = some v) :
    v.TooLarge → H := by
  rcases x with _ | _ | (_ | b) | (_ | bs) | _ | _
  case plain kind w =>
    rw [Compile.written?] at hv
    split_ifs at hv
    cases hv
    exact h.moderate _ rfl
  case reference => cases hv; exact h.moderate _ rfl
  case block.none => cases hv; exact False.elim
  case arguments => cases hv; exact False.elim
  case values => cases hv; exact False.elim
  all_goals cases hv

namespace Block

/-- A text as the label, inputs where a call passes some, and a key where an argument reporter names
its argument. -/
def WellShaped (b : Block) : Prop :=
  match b.kind with
  | .unknown label => ∃ s, label = .text s
  | .known (.procedure .call) => ∀ x, b.input? "INPUTS" = some x → ∃ items, x = .values items
  | .known (.procedure .reporterStringNumber) | .known (.procedure .reporterBoolean) =>
    (b.literal "VALUE" .null).isKey = true
  | _ => True

/-- The blocks and inputs of the tree are well-shaped. -/
structure WellShapedTree (b : Block) : Prop where
  blocks : ∀ c ∈ b.withInner, c.WellShaped
  inputs : ∀ x ∈ b.innerInputs, x.WellShaped

/-- The literals in the tree, and the names of the data that it refers to. -/
def literals (b : Block) : List Value :=
  b.innerInputs.filterMap (·.literalValue?)

end Block

namespace Slots
variable {slots : Slots} (hslots : ∀ x ∈ innerSlots slots, x.Admitted H)
include hslots

theorem admitted_of_lookup {slot : String} {x : Input} (h : slots.lookup slot = some x) :
    x.Admitted H :=
  hslots x (mem_innerSlots (Assoc.mem_of_lookup h) x.mem_withInner)

theorem literal?_moderate {entry : String × Input} (hentry : entry ∈ slots)
    (h : entry.2.literal? = some v) : v.TooLarge → H := by
  have hadmitted := hslots entry.2 (mem_innerSlots hentry entry.2.mem_withInner)
  unfold Input.literal? at h
  split_ifs at h
  cases h
  exact hadmitted.content

theorem menuValue_moderate : slots.menuValue.TooLarge → H := by
  unfold menuValue
  generalize hfound : List.findSome? _ slots = found
  cases found with
  | none => exact False.elim
  | some v =>
    obtain ⟨entry, hentry, hv⟩ := List.exists_of_findSome?_eq_some hfound
    exact literal?_moderate hslots hentry hv

theorem literal_moderate (slot : String) {default : Value} (hdefault : default.TooLarge → H) :
    (slots.literal slot default).TooLarge → H := by
  unfold literal
  cases hfound : (slots.lookup slot).bind (·.literal?) with
  | none => exact hdefault
  | some v =>
    obtain ⟨x, hx, hv⟩ := Option.bind_eq_some_iff.1 hfound
    exact literal?_moderate hslots (Assoc.mem_of_lookup hx) hv

/-- The choice of a menu is a text. -/
theorem choice_settles (slot : String) :
    Settles H (slots.choice slot) fun v => ∃ s, v = .text s := by
  have hspoken {w : Value} (hw : w.TooLarge → H) :
      Settles H (do return Value.text (← Literal.spoken w)) fun v => ∃ s, v = .text s :=
    (Literal.spoken_ends hw).bind fun s _ => .pure ⟨s, rfl⟩
  unfold choice
  split
  · next x hx =>
    have hadmitted := admitted_of_lookup hslots hx
    rcases x with _ | ⟨kind, ref⟩ | (_ | b) | (_ | bs) | _ | _
    case reference => exact .ok hadmitted.wellShaped
    case block.some =>
      unfold Input.choice
      dsimp only
      split_ifs
      · refine hspoken (menuValue_moderate fun y hy => hslots y ?_)
        have hinner : y ∈ b.innerInputs := by
          cases b
          exact hy
        refine mem_innerSlots (Assoc.mem_of_lookup hx) ?_
        exact Input.mem_withInner_of_blocks (List.mem_singleton_self b) hinner
      · exact .ok ⟨"", rfl⟩
    all_goals exact hspoken hadmitted.content
  · exact .ok ⟨"", rfl⟩

omit hslots in
theorem choice_text (hslots : ∀ x ∈ innerSlots slots, x.WellShaped) (slot : String) :
    Outcome.Ensures (slots.choice slot) fun v => ∃ s, v = .text s :=
  (choice_settles (H := True) (fun x hx => ⟨hslots x hx, fun _ _ _ => trivial⟩) slot).result

theorem literalNumber_ends (slot : String) : Ends H (slots.literalNumber slot) := by
  have hnumber {x : Input} (hx : x.Admitted H) : Ends H
      (if x.word == "color" then .ok none
        else do return (← Literal.number? x.content).filter (!Literal.isUnsafeInteger ·)) := by
    split_ifs
    · exact .ok trivial
    · exact (Literal.number?_ends hx.content).bind fun _ _ => .pure trivial
  unfold literalNumber
  split
  · next x hx =>
    have hadmitted := admitted_of_lookup hslots hx
    cases x with
    | block _ | stack _ => exact .ok trivial
    | _ => exact hnumber hadmitted
  · exact .ok trivial

/-- Data is referred to by a text. -/
theorem dataRef?_settles (slot : String) :
    Settles H (slots.dataRef? slot) fun ref? => ∀ ref, ref? = some ref →
      ∃ s, ref.name = .text s := by
  have hnone : ∀ ref : DataRef, none = some ref → ∃ s, ref.name = .text s := fun _ h => nomatch h
  have hspoken {w : Value} (hw : w.TooLarge → H) :
      Settles H (do return some ⟨.null, .text (← Literal.spoken w)⟩)
        fun ref? => ∀ ref : DataRef, ref? = some ref → ∃ s, ref.name = .text s := by
    refine (Literal.spoken_ends hw).bind fun s _ => .pure fun ref href => ?_
    cases href
    exact ⟨s, rfl⟩
  unfold dataRef?
  split
  · next x hx =>
    have hadmitted := admitted_of_lookup hslots hx
    cases x with
    | reference kind ref =>
      refine .ok fun ref' href => ?_
      cases href
      exact hadmitted.wellShaped
    | _ =>
      unfold Input.dataRef?
      dsimp only
      split
      · exact .ok hnone
      · next v _ hv => exact hspoken hadmitted.content
  · exact .ok hnone

end Slots

end ScratchExport
