import ScratchExport.Proofs.ClosedSource
import ScratchExport.Proofs.PlanLaw

/-!
# Closed plans

Whatever a block becomes is closed source: its phrase comes back to depth 0, and what fills a hole
is closed itself. The words that go into the source as they stand have to be bare for that: the
label of an unknown block, the name of an effect, and the choices that a placeholder quotes
(`Block.BareWords`).
-/

namespace ScratchExport
open Source (IsBare)

/-- The word in that slot has no quotes and brackets. -/
def BlockKind.BareWord (kind : BlockKind) (slots : Slots) : Prop :=
  ∀ slot, kind.wordSlot? = some slot → ∀ s, slots.choice slot = .ok (.text s) → IsBare s

/-- The words that a block brings into the source as they stand have no quotes and brackets. -/
structure Block.BareWords (b : Block) : Prop where
  label : ∀ v, b.kind = .unknown v → IsBare v.display
  choice : b.kind.BareWord b.inputs

namespace Compile
open Outcome (Ensures)
open Source (Leads leads_literal leads_quoted)

variable {ctx : Context} {kind : BlockKind} {slots : Slots}

theorem Readers.source_closed {readers : Readers}
    (hreaders : readers.All (Ensures · Fragment.Closed)) (slot : String) (shape : Shape)
    (locals : Name.Space) : Ensures (readers.source slot shape locals).result (Leads 0 0) :=
  sourceLaw_leads.readers_source hreaders (literalFragment_closed .null) slot shape locals

theorem leads_label (hslots : ∀ x ∈ innerSlots slots, x.WellShaped)
    (hlabel : ∀ v, kind = .unknown v → IsBare v.display) (hword : kind.BareWord slots)
    {label : String} (h : IsLabel kind slots label) : Leads 0 0 label := by
  cases h with
  | opcode => exact (Source.isBare_identifier (Yield.isIdentifier_label _)).leads 0
  | ended _ hending =>
    have hendings : ∀ s ∈ labelEndings, Leads 0 0 s := by decide +kernel
    exact ((Source.isBare_identifier (Yield.isIdentifier_label _)).leads 0).append
      (hendings _ hending)
  | style hchoice =>
    obtain ⟨s, rfl⟩ := Slots.choice_text hslots _ _ hchoice
    have hfirst : Leads 0 0 "rotation style " := .ofList (by decide)
    exact hfirst.append (leads_quoted s)
  | word hfirst hslot hchoice =>
    obtain ⟨s, rfl⟩ := Slots.choice_text hslots _ _ hchoice
    have hlabels : ∀ s ∈ wordLabels, Leads 0 0 s := by decide +kernel
    exact (hlabels _ hfirst).append ((hword _ hslot s hchoice).leads 0)
  | unknown hv => exact (hlabel _ hv).leads 0

theorem leads_missingSource {what : String} (h : what ∈ missingWords) (spoken : String) :
    Leads 0 0 (Plan.missingSource what spoken) := by
  have hopen : Leads 0 0 "/* Missing " := by decide
  have hblank : Leads 0 0 " " := by decide
  have hclose : Leads 0 0 " */ 0" := by decide
  have hwhat : ∀ s ∈ missingWords, Leads 0 0 s := by decide +kernel
  exact (((hopen.append (hwhat what h)).append hblank).append
    (leads_literal spoken).commentText).append hclose

/-- A block becomes closed source, if its names and words are bare. -/
theorem planLaw_closed (hnames : ∀ s, IsName ctx s → IsBare s)
    (hslots : ∀ x ∈ innerSlots slots, x.WellShaped)
    (hlabel : ∀ v, kind = .unknown v → IsBare v.display) (hword : kind.BareWord slots) :
    PlanLaw ctx kind slots (Leads 0 0) fun a b => Leads a.depth b.depth where
  source := sourceLaw_leads
  empty := .empty 0
  null := literalFragment_closed .null
  name s hs := (hnames s hs).leads 0
  literal s _ := leads_literal s
  number := leads_numberLiteral
  color slot v hv :=
    colorSource_closed
    (hslots _ (mem_innerSlots (Assoc.mem_of_lookup hv) (Input.mem_withInner _)) rfl)
  text h := h.level
  hole h hs := by
    rw [h.2.2]
    exact hs.deeper _
  effect hkind heffect h := by
    obtain ⟨t, ht, rfl⟩ := heffect
    rw [h.2.2]
    exact (Source.isBare_lower (hword _ (BlockKind.wordSlot?_of_namesEffect hkind) t ht)).leads _
  append := .append
  whole h := h
  menu := literalFragment_closed _
  placeholder label h := by
    have hopen : Leads 0 0 "/* TODO: Implement " := .ofList (by decide)
    exact .between hopen (leads_label hslots hlabel hword h).commentText (by decide)
  missing what hwhat name _ := fun spoken _ => leads_missingSource hwhat spoken
  stray source h := by rcases h with rfl | rfl <;> decide

end Compile

end ScratchExport
