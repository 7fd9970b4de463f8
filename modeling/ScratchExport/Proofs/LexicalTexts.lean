import ScratchExport.Literal.Color
import ScratchExport.Proofs.Escapes
import ScratchExport.Proofs.Identifier
import ScratchExport.Proofs.LexicalScan
import ScratchExport.Proofs.Outcome
import ScratchExport.Proofs.SourceLaw
import ScratchExport.Proofs.WrittenValues
import ScratchExport.Proofs.YieldScan

/-!
# Texts that the lexer gets through

`Lexes d e s` says that the lexer goes from `d` open brackets to `e` through the text `s`. Whatever
an author writes, it does so through an identifier, a number, a string literal and a comment, and
`Lexes` composes, so the same holds of values written as source. Only the keys of a record are
written as they stand: they have to be balanced.
-/

namespace ScratchExport

namespace Layout
open Outcome (Ensures)

/-- The lexer goes from one number of open brackets to another through the text. At both ends it is
outside comments and quotes, and no slash is pending. -/
def Lexes (d e : Nat) (s : String) : Prop :=
  (⟨d, .code⟩ : Lexer).run s.toList = some ⟨e, .code⟩

/-- The text closes all the quotes, comments and brackets that it opens, and nothing else. It may
end in a slash. -/
def IsBalanced (s : String) : Prop :=
  ∃ mode ∈ [Mode.code, .slash], (⟨0, .code⟩ : Lexer).run s.toList = some ⟨0, mode⟩

instance (s : String) : Decidable (IsBalanced s) :=
  inferInstanceAs (Decidable (∃ mode ∈ _, _))

variable {d e k : Nat} {c : Char} {cs : List Char} {s t : String} {v : Value}

/-! ### Putting texts together -/

namespace Lexes

theorem append (hs : Lexes d k s) (ht : Lexes k e t) : Lexes d e (s ++ t) := by
  rw [Lexes, String.toList_append, Lexer.run_append, hs]
  exact ht

theorem ofList (h : (⟨d, .code⟩ : Lexer).run cs = some ⟨e, .code⟩) :
    Lexes d e (String.ofList cs) := by
  rw [Lexes, String.toList_ofList]
  exact h

theorem raise (h : Lexes d e s) (k : Nat) : Lexes (d + k) (e + k) s :=
  Lexer.run_raise h

theorem deeper (h : Lexes 0 0 s) (k : Nat) : Lexes k k s := by
  have := h.raise k
  rwa [Nat.zero_add] at this

theorem empty (d : Nat) : Lexes d d "" := rfl

theorem between {first last : String} (hfirst : Lexes 0 d first) (hs : Lexes 0 0 s)
    (hlast : Lexes d 0 last) : Lexes 0 0 (first ++ s ++ last) :=
  (hfirst.append (hs.deeper d)).append hlast

theorem intercalate {l : List String} (h : ∀ s ∈ l, Lexes 0 0 s) :
    Lexes 0 0 (", ".intercalate l) := by
  have hcomma : Lexes 0 0 ", " := rfl
  induction l with
  | nil => rw [String.intercalate_nil]; exact empty 0
  | cons t rest ih =>
    rw [List.forall_mem_cons] at h
    cases rest with
    | nil => rw [String.intercalate_singleton]; exact h.1
    | cons u rest =>
      rw [String.intercalate_cons_cons]
      exact (h.1.append hcomma).append (ih h.2)

theorem isClosed (h : Lexes 0 0 s) : IsClosed s :=
  isClosed_of_run h rfl rfl

end Lexes

/-- A slash at the end of a balanced text makes no difference if what follows can do without it. -/
theorem IsBalanced.append (hs : IsBalanced s) (ht : Lexes 0 e t)
    (hslash : (⟨0, .slash⟩ : Lexer).run t.toList = some ⟨e, .code⟩) : Lexes 0 e (s ++ t) := by
  obtain ⟨mode, hmode, hrun⟩ := hs
  rw [Lexes, String.toList_append, Lexer.run_append, hrun]
  simp only [List.mem_cons, List.not_mem_nil, or_false] at hmode
  rcases hmode with rfl | rfl
  · exact ht
  · exact hslash

/-! ### Characters without meaning to the lexer -/

/-- The characters outside comments and quotes that mean something to the lexer. -/
def marks : List Char := ['/', '"', '\'', '\x60', '(', '[', '\x7b', ')', ']', '\x7d']

theorem Lexer.plain_of_not_mem (h : c ∉ marks) : Lexer.plain d c = some ⟨d, .code⟩ := by
  simp only [marks, List.mem_cons, List.not_mem_nil, or_false, not_or] at h
  simp [Lexer.plain, isQuote, isOpener, isCloser, h]

theorem lexes_of_not_mem (h : ∀ c ∈ s.toList, c ∉ marks) : Lexes d d s := by
  unfold Lexes
  generalize s.toList = cs at h
  induction cs with
  | nil => rfl
  | cons c rest ih =>
    rw [List.forall_mem_cons] at h
    rw [Lexer.run_cons, Lexer.next, Lexer.plain_of_not_mem h.1]
    exact ih h.2

theorem lexes_identifier (h : Name.IsIdentifier s) : Lexes d d s := by
  have hmarks : ∀ m ∈ marks, ¬ Name.isIdentifierTail m = true :=
    List.all_iff_forall_prop.1 (by decide)
  exact lexes_of_not_mem fun c hc hmem => hmarks c hmem (Name.isIdentifierTail_of_mem h c hc)

theorem lexes_of_numeral (h : ∀ c ∈ s.toList, c.isDigit = true ∨ c ∈ numeralMarks) :
    Lexes d d s := by
  have hmarks : ∀ m ∈ marks, ¬ (m.isDigit = true ∨ m ∈ numeralMarks) :=
    List.all_iff_forall_prop.1 (by decide)
  exact lexes_of_not_mem fun c hc hmem => hmarks c hmem (h c hc)

theorem lexes_toString_int (i : Int) : Lexes d d (toString i) := by
  refine lexes_of_numeral fun c hc => (mem_toString_int hc).imp_right ?_
  rintro rfl
  decide

theorem lexes_text (x : Binary64) : Lexes 0 0 x.text := by
  cases x with
  | nan => exact .ofList rfl
  | infinite negative => cases negative <;> exact .ofList rfl
  | finite negative units => exact lexes_of_numeral fun _ => Binary64.mem_text

theorem lexes_numberLiteral (x : Binary64) : Lexes 0 0 (Literal.numberLiteral x) := by
  cases x with
  | nan => exact .ofList rfl
  | infinite negative => cases negative <;> exact .ofList rfl
  | finite negative units => exact lexes_of_numeral fun _ => Literal.mem_numberLiteral

/-! ### Literals and comments -/

theorem Lexer.next_inside (hline : c ≠ '\n') (hback : c ≠ '\\') (hquote : c ≠ '"') :
    (⟨d, .inside '"'⟩ : Lexer).next c = some ⟨d, .inside '"'⟩ := by
  simp [Lexer.next, hline, hback, hquote]

theorem Lexer.run_digits (h : ∀ c ∈ cs, ∃ n, c = Nat.digitChar n) :
    (⟨d, .inside '"'⟩ : Lexer).run cs = some ⟨d, .inside '"'⟩ := by
  induction cs with
  | nil => rfl
  | cons c rest ih =>
    rw [List.forall_mem_cons] at h
    obtain ⟨⟨n, rfl⟩, hrest⟩ := h
    rw [run_cons,
      next_inside (Nat.digitChar_ne _ rfl) (Nat.digitChar_ne _ rfl) (Nat.digitChar_ne _ rfl)]
    exact ih hrest

/-- An escaped character stays between the quotes. -/
theorem Lexer.run_escapeChar (c : Char) :
    (⟨d, .inside '"'⟩ : Lexer).run (Text.escapeChar c) = some ⟨d, .inside '"'⟩ := by
  rcases Text.escapeChar_cases c with ⟨hplain, hquote, hback,
    hcontrol⟩ | ⟨⟨mark, rest, hescape, hmark, hrest⟩, -⟩
  · have hline : c ≠ '\n' := by
      rintro rfl
      exact absurd hcontrol (by decide)
    rw [hplain, run_cons, next_inside hline hback hquote]
    rfl
  · have hline : mark ≠ '\n' := by
      rintro rfl
      exact absurd hmark (by decide)
    have hnext : (⟨d, .escaped '"'⟩ : Lexer).next mark = some ⟨d, .inside '"'⟩ := by
      simp [next, hline]
    rw [hescape, run_cons, show (⟨d, .inside '"'⟩ : Lexer).next '\\' =
      some ⟨d, .escaped '"'⟩ from rfl, Option.bind_some, run_cons, hnext]
    exact run_digits hrest

theorem lexes_literal (s : String) : Lexes d d (Text.literal s) := by
  refine .ofList ?_
  have hinside : (⟨d, .inside '"'⟩ : Lexer).run (s.toList.flatMap Text.escapeChar) =
      some ⟨d, .inside '"'⟩ := by
    induction s.toList with
    | nil => rfl
    | cons c rest ih =>
      rw [List.flatMap_cons, Lexer.run_append, Lexer.run_escapeChar]
      exact ih
  rw [Text.literalChars, List.cons_append, Lexer.run_cons,
    show (⟨d, .code⟩ : Lexer).next '"' = some ⟨d, .inside '"'⟩ from rfl, Option.bind_some,
    Lexer.run_append, hinside]
  rfl

/-- The characters of a comment do not end it: behind an asterisk no slash follows. -/
theorem Lexer.run_commentChars {mode : Mode}
    (h : mode = .comment ∨ mode = .star ∧ cs.head? ≠ some '/') :
    ∃ mode' ∈ [Mode.comment, .star], (⟨d, mode⟩ : Lexer).run (Literal.commentChars cs) =
      some ⟨d, mode'⟩ := by
  fun_induction Literal.commentChars cs generalizing mode with
  | case1 =>
    refine ⟨mode, ?_, rfl⟩
    rcases h with rfl | ⟨rfl, -⟩ <;> decide
  | case2 rest ih =>
    obtain ⟨mode', hmode', hrun⟩ := ih (.inl rfl)
    refine ⟨mode', hmode', ?_⟩
    rcases h with rfl | ⟨rfl, -⟩ <;> exact hrun
  | case3 c rest hpair ih =>
    by_cases hstar : c = '*'
    · subst hstar
      have hhead : rest.head? ≠ some '/' := by
        intro hhead
        obtain ⟨more, rfl⟩ := List.head?_eq_some_iff.1 hhead
        exact hpair more rfl rfl
      obtain ⟨mode', hmode', hrun⟩ := ih (.inr ⟨rfl, hhead⟩)
      refine ⟨mode', hmode', ?_⟩
      rcases h with rfl | ⟨rfl, -⟩ <;> exact hrun
    · have hnext : (⟨d, mode⟩ : Lexer).next c = some ⟨d, .comment⟩ := by
        rcases h with rfl | ⟨rfl, hslash⟩
        · simp [next, hstar]
        · have hslash : c ≠ '/' := by simpa using hslash
          simp [next, hstar, hslash]
      rw [run_cons, hnext]
      exact ih (.inl rfl)

/-- A comment is closed behind any text. -/
theorem lexes_comment {first last : String}
    (hfirst : (⟨d, .code⟩ : Lexer).run first.toList = some ⟨d, .comment⟩)
    (hlast : ∀ mode ∈ [Mode.comment, .star], (⟨d, mode⟩ : Lexer).run last.toList = some ⟨d, .code⟩)
    (s : String) : Lexes d d (first ++ Literal.commentText s ++ last) := by
  obtain ⟨mode, hmode, hrun⟩ : ∃ mode ∈ [Mode.comment, .star],
      (⟨d, .comment⟩ : Lexer).run (Literal.commentChars s.toList) = some ⟨d, mode⟩ :=
      Lexer.run_commentChars (.inl rfl)
  rw [Lexes, Literal.commentText, String.toList_append, String.toList_append, String.toList_ofList,
    Lexer.run_append, Lexer.run_append, hfirst, Option.bind_some, hrun]
  exact hlast mode hmode

/-! ### Values -/

theorem lexes_triple {first last : String} (hfirst : Lexes 0 d first) (hlast : Lexes d 0 last)
    (r g b : Int) :
    Lexes 0 0 (first ++ toString r ++ ", " ++ toString g ++ ", " ++ toString b ++ last) := by
  have hcomma : Lexes 0 0 ", " := rfl
  have hcomma := hcomma.deeper d
  have hinside :=
    ((hfirst.append (lexes_toString_int r)).append hcomma).append (lexes_toString_int g)
  exact ((hinside.append hcomma).append (lexes_toString_int b)).append hlast

theorem valueLaw_lexes : ValueLaw (Lexes 0 0) IsBalanced where
  word := List.forall_iff_forall_mem.1 ⟨rfl, rfl, rfl, rfl, rfl, rfl⟩
  integer := lexes_toString_int
  double := lexes_text
  number := lexes_numberLiteral
  literal := lexes_literal
  key s := ⟨.code, by decide, lexes_literal s⟩
  field hkey hs := by
    have hcolon : Lexes 0 0 ": " := rfl
    exact (hkey.append hcolon rfl).append hs
  list h := .between (d := 1) rfl (.intercalate h) rfl
  json h := .between (d := 1) rfl (.intercalate h) rfl
  record h := .between (d := 1) rfl (.intercalate h) rfl

theorem lexes_colorSource (h : ∀ key ∈ v.keys, IsBalanced key) :
    Ensures (Literal.Color.source v) (Lexes 0 0) := by
  unfold Literal.Color.source
  refine .bind fun components _ => ?_
  rcases components with _ | ⟨r, g, b⟩
  · exact .bind fun written hwritten =>
      .pure (.between (d := 1) rfl (valueLaw_lexes.ofInitial v h written hwritten) rfl)
  · exact .pure (lexes_triple (d := 1) (by rfl) (by rfl) r g b)

end Layout

/-! ### Source -/

namespace Compile
open Layout (Lexes)
open Outcome (Ensures)

theorem sourceLaw_lexes : SourceLaw (Lexes 0 0) := by
  intro w hw s hs
  have hwrap : ∀ w ∈ wrappings, ∃ d < 2, Lexes 0 d w.1 ∧ Lexes d 0 w.2 := by
    unfold Lexes
    decide +kernel
  obtain ⟨d, -, hfirst, hlast⟩ := hwrap w hw
  exact .between hfirst hs hlast

theorem lexes_literalFragment (v : Value) (desired : Shape) :
    Ensures (literalFragment v desired) (Lexes 0 0 ·.source) := by
  refine literalFragment_ensures (fun s _ => Layout.lexes_literal s)
    (fun b => ?_) Layout.lexes_numberLiteral desired
  cases b <;> rfl

theorem lexes_joinStatements {statements : List String} (h : ∀ s ∈ statements, Lexes 0 0 s) :
    Lexes 0 0 (joinStatements statements) := by
  have hline : Lexes 0 0 "\n" := rfl
  exact sourceLaw_lexes.joinStatements (.empty 0) (fun hs ht => (hs.append hline).append ht) h

end Compile

end ScratchExport
