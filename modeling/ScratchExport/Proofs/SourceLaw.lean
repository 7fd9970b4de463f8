import ScratchExport.Proofs.Trees

/-!
# How source is put together

Whatever a fragment is, the compiler does few things with its source: it puts parentheses or a call
around it, subtracts one, ends a statement or a line, and writes statements one below the other.
`SourceLaw` says that a property of source survives this, and a literal has the property if the
three forms of a literal have it.
-/

namespace ScratchExport.Compile
open Outcome (Ensures FaultsIn Within)

/-- A statement is written as it is, or with a semicolon behind it. -/
theorem terminate_eq (s : String) : Literal.terminate s = s ∨ Literal.terminate s = s ++ ";" := by
  unfold Literal.terminate
  split
  · exact .inl rfl
  · exact .inl rfl
  · exact .inr rfl

/-- Statements are written one by one: an empty one leaves no trace, and a line feed stands between
two. -/
theorem joinStatements_cons (s : String) (rest : List String) :
    joinStatements (s :: rest) = joinStatements rest ∧ s = "" ∨
      joinStatements (s :: rest) = Literal.terminate s ∧ joinStatements rest = "" ∨
        joinStatements (s :: rest) = Literal.terminate s ++ "\n" ++ joinStatements rest := by
  unfold joinStatements
  by_cases hs : s.isEmpty
  · rw [List.filter_cons_of_neg (by simp [hs])]
    exact .inl ⟨rfl, String.isEmpty_iff.1 hs⟩
  · rw [List.filter_cons_of_pos (by simp [hs]), List.map_cons]
    cases hrest : (rest.filter (!·.isEmpty)).map Literal.terminate with
    | nil => exact .inr (.inl ⟨String.intercalate_singleton, String.intercalate_nil⟩)
    | cons t more => exact .inr (.inr String.intercalate_cons_cons)

/-- What is put before and behind source to make it an operand, to change its shape, or to end a
statement or a line. -/
def wrappings : List (String × String) :=
  [("(", ")"), ("this.toNumber(", ")"), ("this.toBoolean(", ")"), ("this.toString(", ")"),
    ("this.toNumber(", ") - 1"), ("Color.num(", ")"), ("", " - 1"), ("", ";"), ("", "\n")]

/-- Source keeps the property in parentheses and casts, and at the end of a line. -/
def SourceLaw (L : String → Prop) : Prop :=
  ∀ w ∈ wrappings, ∀ s, L s → L (w.1 ++ s ++ w.2)

namespace SourceLaw
variable {L : String → Prop} {s : String}

theorem wrap (law : SourceLaw L) (first last : String) (hs : L s)
    (h : (first, last) ∈ wrappings := by simp [wrappings]) : L (first ++ s ++ last) :=
  law (first, last) h s hs

theorem wrapEnd (law : SourceLaw L) (last : String) (hs : L s)
    (h : ("", last) ∈ wrappings := by simp [wrappings]) : L (s ++ last) := by
  have hlast := law.wrap "" last hs h
  rwa [String.empty_append] at hlast

theorem paren (law : SourceLaw L) (hs : L s) : L (Source.paren s) := by
  unfold Source.paren
  split_ifs
  · exact hs
  · exact law.wrap "(" ")" hs

theorem coerce (law : SourceLaw L) (hs : L s) (produced desired : Shape) :
    L (Source.coerce s produced desired) := by
  unfold Source.coerce
  split
  · exact hs
  · cases desired with
    | any | stack => exact hs
    | number | numberNotNaN => exact law.wrap "this.toNumber(" ")" hs
    | boolean => exact law.wrap "this.toBoolean(" ")" hs
    | string => exact law.wrap "this.toString(" ")" hs
    | index =>
      dsimp only
      split
      · exact law.wrapEnd " - 1" (law.paren hs)
      · exact law.wrap "this.toNumber(" ") - 1" hs

theorem terminate (law : SourceLaw L) (hs : L s) : L (Literal.terminate s) := by
  rcases terminate_eq s with heq | heq
  · rw [heq]; exact hs
  · rw [heq]; exact law.wrapEnd ";" hs

theorem joinStatements (law : SourceLaw L) (hempty : L "")
    (hlines : ∀ {s t}, L s → L t → L (s ++ "\n" ++ t)) {sources : List String}
    (h : ∀ s ∈ sources, L s) : L (joinStatements sources) := by
  induction sources with
  | nil => exact hempty
  | cons s rest ih =>
    rw [List.forall_mem_cons] at h
    rcases joinStatements_cons s rest with ⟨heq, -⟩ | ⟨heq, -⟩ | heq
    · rw [heq]; exact ih h.2
    · rw [heq]; exact law.terminate h.1
    · rw [heq]; exact hlines (law.terminate h.1) (ih h.2)

theorem readers_source (law : SourceLaw L) {readers : Readers}
    (hreaders : readers.All (Ensures · (L ·.source)))
    (hnull : ∀ desired, Ensures (literalFragment .null desired) (L ·.source)) (slot : String)
    (shape : Shape) (locals : Name.Space) :
    Ensures (readers.source slot shape locals).result L := by
  unfold Readers.source
  rw [Noted.result_bind]
  exact .bind fun f hf => .pure (law.coerce (hreaders.fragment hnull slot shape locals f hf) _ _)

theorem stackSources (law : SourceLaw L) {ctx : Context} {bs : List Block}
    (h : ∀ b ∈ bs, (blockFragment ctx b).All (Ensures · (L ·.source))) (locals : Name.Space) :
    Ensures (stackSources ctx bs locals).result fun sources => ∀ s ∈ sources, L s := by
  induction bs with
  | nil => rw [Compile.stackSources]; exact .ok fun _ h => nomatch h
  | cons b rest ih =>
    rw [List.forall_mem_cons] at h
    rw [Compile.stackSources, Noted.result_bind]
    refine .bind fun f hf => ?_
    rw [Noted.result_bind]
    refine .bind fun others hothers => .pure (List.forall_mem_cons.2 ⟨?_, ih h.2 others hothers⟩)
    exact law.coerce (h.1 .stack locals f hf) _ _

end SourceLaw

theorem literalFragment_within {F : Fault → Prop} {L : String → Prop} {v : Value}
    (htext : Within F (Literal.spoken v) (L <| Text.literal ·))
    (hread : FaultsIn F (Literal.number? v)) (hboolean : FaultsIn F (Literal.castBoolean v))
    (hcast : FaultsIn F (Literal.castNumber v)) (hbool : ∀ b, L (boolSource b))
    (hnumber : ∀ x, L (Literal.numberLiteral x)) (desired : Shape) :
    Within F (literalFragment v desired) (L ·.source) := by
  have htext : Within F (textFragment v) (L ·.source) := .bind htext.faults fun s hs =>
    .pure (htext.result s hs)
  have hplain (number : Option Binary64) : Within F (plainFragment v number) (L ·.source) := by
    unfold plainFragment
    split
    · exact .ok (hbool _)
    · split_ifs
      · exact .ok (hnumber _)
      · exact htext
    · exact htext
  cases desired with
  | string => exact htext
  | boolean => exact .bind hboolean fun b _ => .pure (hbool b)
  | index | number | numberNotNaN =>
    refine .bind hread fun number _ => ?_
    split_ifs
    · exact htext
    · exact .bind hcast fun x _ => .pure (hnumber _)
  | any | stack =>
    refine .bind hread fun number _ => ?_
    split_ifs
    · exact htext
    · exact hplain number

theorem literalFragment_ensures {L : String → Prop} {v : Value}
    (htext : Ensures (Literal.spoken v) (L <| Text.literal ·)) (hbool : ∀ b, L (boolSource b))
    (hnumber : ∀ x, L (Literal.numberLiteral x)) (desired : Shape) :
    Ensures (literalFragment v desired) (L ·.source) :=
  (literalFragment_within (F := fun _ => True) ⟨htext, fun _ _ => trivial⟩ (fun _ _ =>
    trivial) (fun _ _ => trivial) (fun _ _ => trivial) hbool hnumber desired).result

end ScratchExport.Compile
