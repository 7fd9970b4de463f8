import ScratchExport.Proofs.PlanLaw
import ScratchExport.Proofs.YieldValues

/-!
# Plans without screen refresh

The word `yield` is written in few places, and each of them asks the context whether the script runs
without screen refresh; what remains is that the word cannot come about by accident, from a text of
the project or from two pieces of source that stand side by side. The scan for the word gets through
a phrase from seam to seam: the text in front of a hole leaves it at its start, and the text behind
a hole can be read from any state (`planLaw_silent`).
-/

namespace ScratchExport.Compile
open Outcome (Ensures)
open Yield (Passes Quiet)

variable {ctx : Context} {kind : BlockKind} {slots : Slots}

/-- The source of a fragment does not mention the word. -/
def Fragment.Silent (f : Fragment) : Prop :=
  Passes 0 4 f.source

theorem sourceLaw_passes : SourceLaw (Passes 0 4) := by
  intro w hw s hs
  have hwrap : ∀ w ∈ wrappings, Passes 0 0 w.1 ∧ Passes 4 0 w.2 := by decide +kernel
  exact .between (hwrap w hw).1 hs (hwrap w hw).2

theorem literalFragment_silent {v : Value} (h : Quiet v.texts) (desired : Shape) :
    Ensures (literalFragment v desired) Fragment.Silent :=
  literalFragment_ensures (fun s hs => (Yield.passes_literal (Yield.passes_spoken h s hs)).loose)
    (fun b => by cases b <;> decide) Yield.passes_numberLiteral desired

theorem joinStatements_passes {sources : List String} (h : Quiet sources) :
    Passes 0 4 (joinStatements sources) := by
  have hline : Passes 4 0 "\n" := by decide
  exact sourceLaw_passes.joinStatements (by decide) (fun hs ht => (hs.append hline).append ht) h

theorem passes_missingSource {what spoken : String} (hwhat : what ∈ missingWords)
    (h : Passes 0 4 spoken) : Passes 0 4 (Plan.missingSource what spoken) := by
  have hopen : Passes 0 0 "/* Missing " := by decide
  have hwords : ∀ s ∈ missingWords, Passes 0 4 s := by decide +kernel
  have hblank : Passes 4 4 " " := by decide
  have hclose : Passes 0 4 " */ 0" := by decide
  have hname := Yield.passes_commentText (Yield.passes_literal h)
  exact (((hopen.append (hwords what hwhat)).append hblank).append hname).append hclose

/-- Without screen refresh a block becomes source that does not mention the word, if its names and
texts do not. -/
theorem planLaw_silent (hwarp : ctx.warp = true) (hnames : ∀ s, IsName ctx s → Passes 0 4 s)
    (hidentifiers : Quiet ctx.names.identifiers) (htexts : Quiet (kind.texts ++ slotTexts slots)) :
    PlanLaw ctx kind slots (Passes 0 4) fun a b => Passes (bound a.start) (bound b.start) where
  source := sourceLaw_passes
  empty := by decide
  null := literalFragment_silent Yield.quiet_nil
  name := hnames
  literal s hs := (Yield.passes_literal (hidentifiers s hs)).loose
  number := Yield.passes_numberLiteral
  color slot v hv := by
    have hslots := (Yield.quiet_append.1 htexts).2
    exact Yield.passes_colorSource (Yield.quiet_cons.1 (Yield.quiet_lookup hslots hv)).2
  text h := h.word hwarp
  hole h hs := by
    rw [h.2.1, h.2.2]
    exact hs
  effect _ heffect h := by
    obtain ⟨t, ht, rfl⟩ := heffect
    have hslots := (Yield.quiet_append.1 htexts).2
    rw [h.2.1, h.2.2]
    exact Yield.passes_lower (Yield.quiet_choice hslots _ _ ht t (List.mem_singleton_self t))
  append := .append
  whole h := h
  menu := literalFragment_silent (Yield.quiet_menuValue (Yield.quiet_append.1 htexts).2)
  placeholder label h :=
    .between (by decide) (Yield.passes_commentText (h.clear Yield.textLaw htexts)) (by decide)
  missing what hwhat name hname := fun spoken hspoken =>
    passes_missingSource hwhat
      (Yield.passes_spoken (hname.clear Yield.textLaw (Yield.quiet_append.1 htexts).2) spoken
        hspoken)
  stray source h := by rcases h with rfl | rfl <;> decide

end ScratchExport.Compile
