import ScratchExport.Proofs.ShownValues
import ScratchExport.Proofs.YieldScan

/-!
# Values that do not mention `yield`

If no text in a value mentions the word, neither does the value where it is shown, spoken or written
as a literal, and the description of a block is no exception: what stands between the texts is
punctuation and fixed words. The scan for the word satisfies the law of texts (`textLaw`), and the
lemmas here are what the law says of it.
-/

namespace ScratchExport.Yield
open Outcome (Ensures)

/-- None of some texts mentions the word. -/
def Quiet (texts : List String) : Prop :=
  ∀ s ∈ texts, Passes 0 4 s

@[simp] theorem quiet_nil : Quiet [] := List.forall_mem_nil _

@[simp] theorem quiet_cons {s : String} {l : List String} :
    Quiet (s :: l) ↔ Passes 0 4 s ∧ Quiet l :=
  List.forall_mem_cons

@[simp] theorem quiet_append {l l' : List String} : Quiet (l ++ l') ↔ Quiet l ∧ Quiet l' :=
  List.forall_mem_append

namespace Passes
variable {first last s : String}

theorem between (hfirst : Passes 0 0 first) (hs : Passes 0 4 s) (hlast : Passes 4 0 last) :
    Passes 0 4 (first ++ s ++ last) :=
  ((hfirst.append hs).append hlast).weaken (by decide)

theorem loose (h : Passes 4 0 s) : Passes 0 4 s :=
  (h.narrow (by decide)).weaken (by decide)

end Passes

theorem passes_fixed : ∀ s ∈ fixedTexts, Passes 4 0 s := by
  simp only [fixedTexts, List.forall_mem_cons]
  and_intros
  all_goals first | exact .ofList (by decide) | exact List.forall_mem_nil _

/-- How far into the word the scan may be. -/
def bound : Bool → Nat
  | false => 0
  | true => 4

theorem textLaw : TextLaw fun a b => Passes (bound a) (bound b) where
  append := .append
  weaken h := h.weaken (by decide)
  narrow h := h.narrow (by decide)
  empty _ := fun _ hk => hk
  literal := passes_literal
  quoted := passes_quoted
  integer := passes_toString_int
  double := passes_text
  number := passes_numberLiteral
  fixed := passes_fixed
  reference := .ofList (by decide)
  label := passes_label

theorem passes_spoken {v : Value} (h : Quiet v.texts) : Ensures (Literal.spoken v) (Passes 0 4) :=
  textLaw.spoken h

theorem passes_colorSource {v : Value} (h : Quiet v.texts) :
    Ensures (Literal.Color.source v) (Passes 0 4) :=
  fun s hs => textLaw.weaken (textLaw.colorSource h s hs)

theorem quiet_content {input : Input} (h : Quiet input.texts) : Quiet input.content.texts :=
  textLaw.content h

section Slots
variable {slots : Slots} (h : Quiet (slotTexts slots))
include h

theorem quiet_menuValue : Quiet slots.menuValue.texts :=
  textLaw.menuValue h

theorem quiet_lookup {slot : String} {input : Input} (hinput : slots.lookup slot = some input) :
    Quiet input.texts :=
  TextLaw.lookup (P := fun a b => Passes (bound a) (bound b)) h hinput

theorem quiet_choice (slot : String) : Ensures (slots.choice slot) fun v => Quiet v.texts :=
  textLaw.choice h slot

end Slots

end ScratchExport.Yield
