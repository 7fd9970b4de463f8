import ScratchExport.Proofs.Opcodes
import ScratchExport.Proofs.SourceLaw

/-!
# Where compiled blocks stand

A plan need not read all inputs of its block. `CompiledAs` says which blocks inside a block are
compiled, and for which shape and with which local names taken; there is a fragment for each of
them, and its source stands in the source of the block (`CompiledAs.stands`), hence in the body of
the method that the block belongs to (`Method.body_stands`).

Source stands in other source where there is a gap: at the start, or behind a text that ends neither
in a part of a word nor in `yield* `. That each hole of a phrase is such a place is what its seams
say.
-/

namespace ScratchExport.Compile

/-! ### Source inside source -/

theorem endsInGap_append {cs : List Char} (h : endsInGap cs = true) (ds : List Char) :
    endsInGap (cs ++ ds) = true := by
  rcases cs with _ | ⟨c, _ | ⟨d, _ | ⟨e, rest⟩⟩⟩
  · cases h
  all_goals
    simp [endsInGap] at h ⊢
    tauto

/-- What leaves a gap does so behind any text, and none keeps the gap in front of it. -/
theorem leavesGap_append {start middle : Bool} {cs ds : List Char}
    (hcs : middle = true → leavesGap start cs = true) (hds : leavesGap middle ds = true) :
    leavesGap start (cs ++ ds) = true := by
  cases ds with
  | nil =>
    rw [List.append_nil]
    exact hcs hds
  | cons d ds =>
    have hgap : endsInGap (d :: ds).reverse = true := hds
    unfold leavesGap
    rw [if_neg (by simp), List.reverse_append]
    exact endsInGap_append hgap _

/-- One source stands in the other, in a gap. In front of the other there is one if `start`. -/
def StandsFrom (start : Bool) (part whole : String) : Prop :=
  ∃ before after, whole.toList = before ++ part.toList ++ after ∧ leavesGap start before = true

/-- One source stands in the other, in a gap. -/
abbrev Stands : String → String → Prop :=
  StandsFrom true

theorem StandsFrom.append_right {start : Bool} {part first : String}
    (h : StandsFrom start part first) (second : String) :
    StandsFrom start part (first ++ second) := by
  obtain ⟨before, after, hfirst, hgap⟩ := h
  refine ⟨before, after ++ second.toList, ?_, hgap⟩
  rw [String.toList_append, hfirst, List.append_assoc]

theorem StandsFrom.append_left {start middle : Bool} {part first second : String}
    (hfirst : middle = true → leavesGap start first.toList = true)
    (h : StandsFrom middle part second) : StandsFrom start part (first ++ second) := by
  obtain ⟨before, after, hsecond, hgap⟩ := h
  refine ⟨first.toList ++ before, after, ?_, leavesGap_append hfirst hgap⟩
  rw [String.toList_append, hsecond]
  simp only [List.append_assoc]

namespace Stands
variable {part whole middle : String}

theorem refl (s : String) : Stands s s :=
  ⟨[], [], by simp, rfl⟩

theorem empty (s : String) : Stands "" s :=
  ⟨[], s.toList, by simp, rfl⟩

theorem trans (h : Stands part middle) (h' : Stands middle whole) : Stands part whole := by
  obtain ⟨before, after, hmiddle, hgap⟩ := h
  obtain ⟨before', after', hwhole, hgap'⟩ := h'
  refine ⟨before' ++ before, after ++ after', ?_, leavesGap_append (fun _ => hgap') hgap⟩
  rw [hwhole, hmiddle]
  simp only [List.append_assoc]

/-- What stands in source still does in parentheses and casts, and in a statement. -/
theorem sourceLaw (part : String) : SourceLaw (Stands part) := by
  intro w hw s hs
  have hwrappings : ∀ w ∈ wrappings, leavesGap true w.1.toList = true :=
    List.all_iff_forall_prop.1 (by decide +kernel)
  exact (hs.append_left fun _ => hwrappings w hw).append_right _

theorem joinStatements_of_mem {s : String} {statements : List String} (h : s ∈ statements) :
    Stands s (joinStatements statements) := by
  induction statements with
  | nil => cases h
  | cons first rest ih =>
    rcases List.mem_cons.1 h with rfl | h
    · have hend := (sourceLaw s).terminate (refl s)
      rcases joinStatements_cons s rest with ⟨-, rfl⟩ | ⟨heq, -⟩ | heq
      · exact empty _
      · rw [heq]
        exact hend
      · rw [heq]
        exact (hend.append_right _).append_right _
    · rcases joinStatements_cons first rest with ⟨heq, -⟩ | ⟨-, hempty⟩ | heq
      · rw [heq]
        exact ih h
      · have hnone := ih h
        rw [hempty] at hnone
        exact hnone.trans (empty _)
      · rw [heq]
        refine (ih h).append_left fun _ => ?_
        rw [String.toList_append]
        exact leavesGap_append (fun hfalse => by cases hfalse)
          (show leavesGap false _ = true from rfl)

end Stands

/-! ### Which blocks are compiled -/

variable {ctx : Context} {kind : BlockKind} {slots : Slots} {locals inner : Name.Space}
  {want : Shape} {x : Input}

/-- A hole of the phrase reads the input, for a shape and with local names taken. -/
def Phrase.ReadsInput (slots : Slots) (locals : Name.Space) :
    Phrase → Input → Shape → Name.Space → Prop
  | .input slot shape, x, want, inner | .operand slot shape, x, want, inner =>
    slots.lookup slot = some x ∧ want = shape ∧ inner = locals
  | .color slot, x, want, inner => slots.lookup slot = some x ∧ want = .any ∧ inner = locals
  | .argument position, x, want, inner =>
    (∃ y, slots.lookup "INPUTS" = some y ∧ y.items[position]? = some x) ∧ want = .any ∧
      inner = locals
  | .body slot taken, x, want, inner => slots.lookup slot = some x ∧ want = .stack ∧ inner = taken
  | .append p q, x, want, inner | .after p q, x, want, inner =>
    p.ReadsInput slots locals x want inner ∨ q.ReadsInput slots locals x want inner
  | _, _, _, _ => False

/-- The shape for which the blocks of an input are compiled. -/
def blockShape (want : Shape) : Input → Shape
  | .stack _ => .stack
  | _ => want

/-- The blocks that are compiled on the way to the source of a block, each with the shape and the
local names that it is compiled for: the block itself, and those in the inputs that its phrase
reads. -/
inductive CompiledAs (ctx : Context) :
    Block → Shape → Name.Space → Block → Shape → Name.Space → Prop
  | self (b : Block) (desired : Shape) (locals : Name.Space) :
    CompiledAs ctx b desired locals b desired locals
  | step {b c d : Block} {desired shape want target : Shape} {locals inner taken : Name.Space}
      {p : Phrase} {x : Input}
      (hplan : plan ctx b.kind b.inputs desired locals = .ok (.phrase p shape))
      (hreads : p.ReadsInput b.inputs locals x want inner) (hc : c ∈ x.blocks)
      (hd : CompiledAs ctx c (blockShape want x) inner d target taken) :
    CompiledAs ctx b desired locals d target taken

/-- The same, for some shape and some local names. -/
def Compiled (ctx : Context) (b : Block) (desired : Shape) (locals : Name.Space) (d : Block) :
    Prop :=
  ∃ target taken, CompiledAs ctx b desired locals d target taken

theorem Phrase.ReadsInput.mem {p : Phrase} (h : p.ReadsInput slots locals x want inner) :
    ∃ slot y, (slot, y) ∈ slots ∧ x ∈ y :: y.items := by
  induction p with
  | input slot shape | operand slot shape | color slot | body slot taken =>
    exact ⟨slot, x, Assoc.mem_of_lookup h.1, List.mem_cons_self ..⟩
  | argument position =>
    obtain ⟨⟨y, hy, hx⟩, -⟩ := h
    exact ⟨"INPUTS", y, Assoc.mem_of_lookup hy, List.mem_cons_of_mem _ (List.mem_of_getElem? hx)⟩
  | append p q ihp ihq | after p q ihp ihq => exact h.elim ihp ihq
  | text | name | effect | literal | number | stop => exact h.elim

theorem mem_innerItems {items : List Input} {y : Input} (hx : x ∈ items) (hy : y ∈ x.withInner) :
    y ∈ innerItems items := by
  induction items with
  | nil => cases hx
  | cons first rest ih =>
    rw [innerItems, List.mem_append]
    rcases List.mem_cons.1 hx with rfl | hx
    · exact .inl hy
    · exact .inr (ih hx)

theorem Phrase.ReadsInput.withInner_subset {p : Phrase}
    (h : p.ReadsInput slots locals x want inner) : x.withInner ⊆ innerSlots slots := by
  obtain ⟨slot, y, hy, hx⟩ := h.mem
  intro z hz
  refine mem_innerSlots hy ?_
  rcases List.mem_cons.1 hx with rfl | hx
  · exact hz
  · cases y with
    | values items =>
      rw [Input.withInner]
      exact List.mem_cons_of_mem _ (mem_innerItems hx hz)
    | _ => cases hx

namespace Compiled
variable {b c d : Block} {desired : Shape}

theorem self (b : Block) (desired : Shape) (locals : Name.Space) :
    Compiled ctx b desired locals b :=
  ⟨_, _, .self b desired locals⟩

theorem step {shape : Shape} {p : Phrase}
    (hplan : plan ctx b.kind b.inputs desired locals = .ok (.phrase p shape))
    (hreads : p.ReadsInput b.inputs locals x want inner) (hc : c ∈ x.blocks)
    (hd : Compiled ctx c (blockShape want x) inner d) : Compiled ctx b desired locals d := by
  obtain ⟨target, taken, hd⟩ := hd
  exact ⟨target, taken, .step hplan hreads hc hd⟩

theorem mem_withInner (h : Compiled ctx b desired locals d) : d ∈ b.withInner := by
  obtain ⟨target, taken, h⟩ := h
  induction h with
  | self b => exact List.mem_cons_self ..
  | step hplan hreads hc hd ih =>
    rename_i b c d _ _ _ _ _ _ _ p x
    obtain ⟨kind, slots, id⟩ := b
    refine List.mem_cons_of_mem _ (List.mem_flatMap.2 ?_)
    rcases List.mem_cons.1 ih with rfl | ih
    · exact ⟨x, hreads.withInner_subset x.mem_withInner, hc⟩
    · obtain ⟨z, hz, hd⟩ := List.mem_flatMap.1 ih
      exact ⟨z, hreads.withInner_subset (Input.mem_withInner_of_blocks hc hz), hd⟩

end Compiled

/-! ### Inputs in phrases -/

theorem Phrase.Fits.leavesGap {p : Phrase} {a b : Seam} {readers : Readers} {source : String}
    (hp : p.Fits ctx kind slots locals a b) (hb : b.start = true)
    (h : (p.render slots readers inner).result = .ok source) :
    Compile.leavesGap a.start source.toList = true := by
  have hhole {slash : Bool} {a b : Seam} (h : a.Hole slash b) (hb : b.start = true) : False := by
    rw [h.2.2] at hb
    cases hb
  induction p generalizing a b source with
  | text s =>
    cases h
    exact Seam.Reads.gap hp hb
  | append p q ihp ihq =>
    obtain ⟨m, hp, hq⟩ := hp
    obtain ⟨first, second, hfirst, hsecond, rfl⟩ := Phrase.render_append.1 h
    rw [String.toList_append]
    exact leavesGap_append (fun hm => ihp hp hm hfirst) (ihq hq hb hsecond)
  | after p q ihp ihq =>
    obtain ⟨m, hp, hq⟩ := hp
    obtain ⟨first, second, hfirst, hsecond, rfl⟩ := Phrase.render_after.1 h
    rw [String.toList_append]
    exact leavesGap_append (fun hm => ihp hp hm hfirst) (ihq hq hb hsecond)
  | stop fault => cases h
  | name | effect | literal | body => exact (hhole hp.2 hb).elim
  | number | input | operand | color | argument => exact (hhole hp hb).elim

theorem Readers.source_stands {slot source : String} (hslot : slots.lookup slot = some x)
    (h : ((readers ctx slots).source slot want inner).result = .ok source) :
    ∃ f, (inputFragment ctx x want inner).result = .ok f ∧ Stands f.source source := by
  unfold Readers.source Readers.fragment at h
  rw [lookup_readers, hslot, Noted.result_bind] at h
  obtain ⟨f, hf, h⟩ := Outcome.bind_eq_ok.1 h
  cases h
  exact ⟨f, hf, (Stands.sourceLaw _).coerce (.refl _) _ _⟩

theorem Readers.argument_stands {position : Nat} {y : Input} {f : Fragment}
    (hslot : slots.lookup "INPUTS" = some y) (hitem : y.items[position]? = some x)
    (h : ((readers ctx slots).argument position inner).result = .ok f) :
    (inputFragment ctx x .any inner).result = .ok f := by
  unfold Readers.argument at h
  rw [lookup_readers, hslot] at h
  simpa only [Option.map_some, Option.bind_some, inputItems_eq, List.getElem?_map, hitem] using h

theorem Phrase.color_stands {slot source : String} (hslot : slots.lookup slot = some x)
    (h : ((Phrase.color slot).render slots (readers ctx slots) inner).result = .ok source) :
    ∃ f, (inputFragment ctx x .any inner).result = .ok f ∧ Stands f.source source := by
  rw [Phrase.render] at h
  split at h
  · next v hv =>
    rw [hslot] at hv
    cases hv
    refine ⟨⟨source, .any⟩, ?_, .refl source⟩
    rw [inputFragment]
    show ((do return ⟨← Literal.Color.source v, .any⟩ : Noted Fragment)).result = _
    rw [Noted.result_bind, Noted.result_lift]
    exact Outcome.bind_eq_ok.2 ⟨source, h, rfl⟩
  · rw [Noted.result_bind] at h
    obtain ⟨color, hcolor, h⟩ := Outcome.bind_eq_ok.1 h
    cases h
    obtain ⟨f, hf, hstands⟩ := Readers.source_stands hslot hcolor
    exact ⟨f, hf, (Stands.sourceLaw _).wrap "Color.num(" ")" hstands⟩

theorem Phrase.render_stands {p : Phrase} {a b : Seam} {source : String}
    (hp : p.Fits ctx kind slots locals a b) (hreads : p.ReadsInput slots locals x want inner)
    (h : (p.render slots (readers ctx slots) locals).result = .ok source) :
    ∃ f, (inputFragment ctx x want inner).result = .ok f ∧ StandsFrom a.start f.source source := by
  have hhole {a b : Seam} {source : String} (hole : a.Hole false b)
      (h : ∃ f, (inputFragment ctx x want inner).result = .ok f ∧ Stands f.source source) :
      ∃ f, (inputFragment ctx x want inner).result = .ok f ∧
      StandsFrom a.start f.source source := by
    rw [hole.2.1]
    exact h
  -- The seams vary in the induction: behind the first of two parts there is a gap if the second
  -- one needs it.
  induction p generalizing a b source with
  | append p q ihp ihq =>
    obtain ⟨m, hp, hq⟩ := hp
    obtain ⟨first, second, hfirst, hsecond, rfl⟩ := Phrase.render_append.1 h
    rcases hreads with hreads | hreads
    · obtain ⟨f, hf, hstands⟩ := ihp hp hreads hfirst
      exact ⟨f, hf, hstands.append_right _⟩
    · obtain ⟨f, hf, hstands⟩ := ihq hq hreads hsecond
      exact ⟨f, hf, hstands.append_left fun hm => hp.leavesGap hm hfirst⟩
  | after p q ihp ihq =>
    obtain ⟨m, hp, hq⟩ := hp
    obtain ⟨first, second, hfirst, hsecond, rfl⟩ := Phrase.render_after.1 h
    rcases hreads with hreads | hreads
    · obtain ⟨f, hf, hstands⟩ := ihp hp hreads hfirst
      exact ⟨f, hf, hstands.append_right _⟩
    · obtain ⟨f, hf, hstands⟩ := ihq hq hreads hsecond
      exact ⟨f, hf, hstands.append_left fun hm => hp.leavesGap hm hfirst⟩
  | input slot shape =>
    obtain ⟨hslot, rfl, rfl⟩ := hreads
    exact hhole hp (Readers.source_stands hslot h)
  | operand slot shape =>
    obtain ⟨hslot, rfl, rfl⟩ := hreads
    rw [Phrase.render, Noted.result_bind] at h
    obtain ⟨operand, hoperand, h⟩ := Outcome.bind_eq_ok.1 h
    cases h
    obtain ⟨f, hf, hstands⟩ := Readers.source_stands hslot hoperand
    exact hhole hp ⟨f, hf, (Stands.sourceLaw _).paren hstands⟩
  | color slot =>
    obtain ⟨hslot, rfl, rfl⟩ := hreads
    exact hhole hp (Phrase.color_stands hslot h)
  | argument position =>
    obtain ⟨⟨y, hslot, hitem⟩, rfl, rfl⟩ := hreads
    rw [Phrase.render, Noted.result_bind] at h
    obtain ⟨f, hf, h⟩ := Outcome.bind_eq_ok.1 h
    cases h
    exact hhole hp ⟨f, Readers.argument_stands hslot hitem hf, .refl _⟩
  | body slot taken =>
    obtain ⟨hslot, rfl, rfl⟩ := hreads
    rw [Phrase.render, Noted.result_bind] at h
    obtain ⟨statements, hstatements, h⟩ := Outcome.bind_eq_ok.1 h
    cases h
    obtain ⟨f, hf, hstands⟩ := Readers.source_stands hslot hstatements
    refine hhole hp.2 ⟨f, hf, ?_⟩
    split_ifs with hempty
    · rwa [String.isEmpty_iff.1 hempty] at hstands
    · exact hstands.append_right _
  | text | name | effect | literal | number | stop => exact hreads.elim

/-! ### Blocks in blocks -/

theorem stackSources_stands {bs : List Block} {sources : List String}
    (h : (stackSources ctx bs inner).result = .ok sources) {c : Block} (hc : c ∈ bs) :
    ∃ f, (blockFragment ctx c .stack inner).result = .ok f ∧
      Stands f.source (joinStatements sources) := by
  have hsource : ∃ f, (blockFragment ctx c .stack inner).result = .ok f ∧
      Source.coerce f.source f.shape .stack ∈ sources := by
    induction bs generalizing sources with
    | nil => cases hc
    | cons b rest ih =>
      rw [stackSources, Noted.result_bind] at h
      obtain ⟨f, hf, h⟩ := Outcome.bind_eq_ok.1 h
      rw [Noted.result_bind] at h
      obtain ⟨others, hothers, h⟩ := Outcome.bind_eq_ok.1 h
      cases h
      rcases List.mem_cons.1 hc with rfl | hc
      · exact ⟨f, hf, List.mem_cons_self ..⟩
      · obtain ⟨g, hg, hin⟩ := ih hothers hc
        exact ⟨g, hg, List.mem_cons_of_mem _ hin⟩
  obtain ⟨f, hf, hin⟩ := hsource
  refine ⟨f, hf, Stands.trans ?_ (Stands.joinStatements_of_mem hin)⟩
  exact (Stands.sourceLaw _).coerce (.refl _) _ _

theorem inputFragment_stands {f : Fragment} (h : (inputFragment ctx x want inner).result = .ok f)
    {c : Block} (hc : c ∈ x.blocks) :
    ∃ g, (blockFragment ctx c (blockShape want x) inner).result = .ok g ∧
      Stands g.source f.source := by
  rcases x with _ | _ | (_ | b) | (_ | bs) | _ | _
  case block.some =>
    cases List.mem_singleton.1 hc
    rw [inputFragment] at h
    exact ⟨f, h, .refl _⟩
  case stack.some =>
    rw [inputFragment, Noted.result_bind] at h
    obtain ⟨sources, hsources, h⟩ := Outcome.bind_eq_ok.1 h
    cases h
    exact stackSources_stands hsources hc
  all_goals cases hc

/-- There is a fragment for each block that is compiled with a block, and it stands in that of the
block. -/
theorem CompiledAs.stands {b d : Block} {desired target : Shape} {taken : Name.Space} {f : Fragment}
    (h : CompiledAs ctx b desired locals d target taken)
    (hf : (blockFragment ctx b desired locals).result = .ok f) :
    ∃ g, (blockFragment ctx d target taken).result = .ok g ∧ Stands g.source f.source := by
  induction h generalizing f with
  | self => exact ⟨f, hf, .refl _⟩
  | step hplan hreads hc hd ih =>
    rename_i b _ _ desired _ _ _ locals _ _ _ _
    obtain ⟨kind, slots, id⟩ := b
    obtain ⟨plan, hplan', hf⟩ := blockFragment_eq_ok.1 hf
    cases hplan.symm.trans hplan'
    obtain ⟨source, hsource, rfl⟩ := Plan.fragment_phrase_eq_ok.1 hf
    have hfits := (plan_becomes kind desired locals).result _ hplan
    obtain ⟨fx, hfx, hstands⟩ := Phrase.render_stands hfits hreads hsource
    obtain ⟨fc, hfc, hstands'⟩ := inputFragment_stands hfx hc
    obtain ⟨g, hg, hstands''⟩ := ih hfc
    exact ⟨g, hg, (hstands''.trans hstands').trans hstands⟩

/-- What is compiled in the script of a method stands in its body. -/
theorem Method.body_stands {m : Method} (h : (Method.compile ctx).result = .ok m) {b d : Block}
    (hb : b ∈ ctx.script.body) {target : Shape} {taken : Name.Space}
    (hd : CompiledAs ctx b .stack ctx.locals d target taken) :
    ∃ f, (blockFragment ctx d target taken).result = .ok f ∧ Stands f.source m.body := by
  rw [Method.compile, Noted.result_bind] at h
  obtain ⟨body, hbody, h⟩ := Outcome.bind_eq_ok.1 h
  cases h
  rw [stackSource, Noted.result_bind] at hbody
  obtain ⟨sources, hsources, hbody⟩ := Outcome.bind_eq_ok.1 hbody
  cases hbody
  obtain ⟨f, hf, hstands⟩ := stackSources_stands hsources hb
  obtain ⟨g, hg, hstands'⟩ := hd.stands hf
  exact ⟨g, hg, hstands'.trans hstands⟩

end ScratchExport.Compile
