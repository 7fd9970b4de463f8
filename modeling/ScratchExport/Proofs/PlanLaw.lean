import ScratchExport.Proofs.Opcodes
import ScratchExport.Proofs.SourceLaw

/-!
# Laws of phrases and plans

A property of source is proved of everything that is compiled in the same way each time: texts have
it between their seams, what fills a hole has it, and the two go together. `PhraseLaw` lists what
has to be shown, for a property `G` of source that stands alone and a property `L` of source between
two seams; `PlanLaw` adds what plans without a phrase show. The inductions over phrases and the case
analysis of plans are done here once (`PhraseLaw.render`, `PlanLaw.block`).
-/

namespace ScratchExport.Compile
open Outcome (Ensures)

variable {ctx : Context} {kind : BlockKind} {slots : Slots} {G : String → Prop} {L : Seam → Seam →
  String → Prop} {readers : Readers} {locals inner : Name.Space}

/-- What fills the holes of a phrase has the property `G`, and with it a phrase has the property `L`
from seam to seam. -/
structure PhraseLaw (ctx : Context) (kind : BlockKind) (slots : Slots) (G : String → Prop)
    (L : Seam → Seam → String → Prop) : Prop where
  source : SourceLaw G
  empty : G ""
  null : ∀ desired, Ensures (literalFragment .null desired) (G ·.source)
  name : ∀ s, IsName ctx s → G s
  literal : ∀ s ∈ ctx.names.identifiers, G (Text.literal s)
  number : ∀ x, G (Literal.numberLiteral x)
  color : ∀ slot v, slots.lookup slot = some (.plain "color" v) → Ensures (Literal.Color.source v) G
  text : ∀ {a b s}, a.Reads ctx.warp b s → L a b s
  hole : ∀ {a b s}, a.Hole false b → G s → L a b s
  effect : ∀ {a b s}, kind.namesEffect = true → IsEffect slots s → a.Hole true b → L a b s
  append : ∀ {a m b s t}, L a m s → L m b t → L a b (s ++ t)

/-- What the source of a phrase has from seam to seam. -/
theorem PhraseLaw.render (law : PhraseLaw ctx kind slots G L) (hctx : ctx.Named)
    (hreaders : readers.All (Ensures · (G ·.source))) {p : Phrase} {a b : Seam}
    (hp : p.Fits ctx kind slots locals a b) :
    Ensures (p.render slots readers inner).result (L a b) := by
  have hsource := law.source.readers_source hreaders law.null
  -- The seams vary in the induction: the two parts of a sequence meet at one of their own.
  induction p generalizing a b with
  | text s => exact .ok (law.text hp)
  | append p q ihp ihq =>
    obtain ⟨m, hp, hq⟩ := hp
    intro source h
    obtain ⟨first, second, hfirst, hsecond, rfl⟩ := Phrase.render_append.1 h
    exact law.append (ihp hp first hfirst) (ihq hq second hsecond)
  | after p q ihp ihq =>
    obtain ⟨m, hp, hq⟩ := hp
    intro source h
    obtain ⟨first, second, hfirst, hsecond, rfl⟩ := Phrase.render_after.1 h
    exact law.append (ihp hp first hfirst) (ihq hq second hsecond)
  | stop fault => exact .error fault
  | name s => exact .ok (law.hole hp.2 (law.name s (hp.1 hctx)))
  | effect s => exact .ok (law.effect hp.1.1 hp.1.2 hp.2)
  | literal s => exact .ok (law.hole hp.2 (law.literal s hp.1))
  | number x => exact .ok (law.hole hp (law.number x))
  | input slot shape => exact fun source h => law.hole hp (hsource slot shape inner source h)
  | operand slot shape =>
    rw [Phrase.render, Noted.result_bind]
    exact .bind fun source h =>
      .pure (law.hole hp (law.source.paren (hsource slot shape inner source h)))
  | color slot =>
    rw [Phrase.render]
    split
    · next v hv => exact fun source h => law.hole hp (law.color slot v hv source h)
    · rw [Noted.result_bind]
      refine .bind fun source h => .pure (law.hole hp ?_)
      exact law.source.wrap "Color.num(" ")" (hsource slot .any inner source h)
  | argument position =>
    rw [Phrase.render, Noted.result_bind]
    exact .bind fun f hf => .pure (law.hole hp (hreaders.argument law.null position inner f hf))
  | body slot taken =>
    rw [Phrase.render, Noted.result_bind]
    refine .bind fun source h => .pure (law.hole hp.2 ?_)
    split_ifs
    · exact law.empty
    · exact law.source.wrapEnd "\n" (hsource slot .stack taken source h)

/-- With what plans show that have no phrase, a block has the property `G`. -/
structure PlanLaw (ctx : Context) (kind : BlockKind) (slots : Slots) (G : String → Prop)
    (L : Seam → Seam → String → Prop) : Prop extends PhraseLaw ctx kind slots G L where
  whole : ∀ {s}, L ⟨0, false, true⟩ ⟨0, false, false⟩ s → G s
  menu : ∀ desired, Ensures (literalFragment slots.menuValue desired) (G ·.source)
  placeholder : ∀ label, IsLabel kind slots label → G (Plan.placeholderSource label)
  missing : ∀ what ∈ missingWords, ∀ name, IsMissed slots name →
    Ensures (Literal.spoken name) (G <| Plan.missingSource what ·)
  stray : ∀ source, source = "0" ∨ source = "false" → G source

namespace PlanLaw

theorem fragment (law : PlanLaw ctx kind slots G L) (hctx : ctx.Named)
    (hreaders : readers.All (Ensures · (G ·.source))) {plan : Plan}
    (hplan : plan.Fits ctx kind slots locals) (desired : Shape) :
    Ensures (plan.fragment ctx slots readers desired inner).result (G ·.source) := by
  cases plan with
  | phrase p shape =>
    intro f hf
    obtain ⟨source, hsource, rfl⟩ := Plan.fragment_phrase_eq_ok.1 hf
    exact law.whole (law.render hctx hreaders hplan source hsource)
  | literal v =>
    rw [show v = slots.menuValue from hplan]
    exact law.menu desired
  | placeholder label =>
    rw [Plan.fragment, Noted.result_bind]
    exact .bind fun _ _ => .pure (law.placeholder label hplan)
  | missing what name =>
    rw [Plan.fragment, Noted.result_bind]
    refine .bind fun _ _ => ?_
    rw [Noted.result_bind]
    exact .bind fun spoken hspoken => .pure (law.missing what hplan.1 name hplan.2 spoken hspoken)
  | stray name source shape =>
    rw [Plan.fragment, Noted.result_bind]
    exact .bind fun _ _ => .pure (law.stray source hplan.1)

theorem plan (law : PlanLaw ctx kind slots G L) (hctx : ctx.Named)
    (hreaders : readers.All (Ensures · (G ·.source))) {desired : Shape} {p : Plan}
    (hp : plan ctx kind slots desired locals = .ok p) :
    Ensures (p.fragment ctx slots readers desired locals).result (G ·.source) :=
  law.fragment hctx hreaders ((plan_becomes kind desired locals).result p hp) desired

theorem block (law : PlanLaw ctx kind slots G L) (hctx : ctx.Named)
    (hreaders : (Compile.readers ctx slots).All (Ensures · (G ·.source))) (id : String) :
    (blockFragment ctx (.mk kind slots id)).All (Ensures · (G ·.source)) := by
  intro desired locals f hf
  obtain ⟨p, hplan, hf⟩ := blockFragment_eq_ok.1 hf
  exact law.plan hctx hreaders hplan f hf

end PlanLaw

end ScratchExport.Compile
