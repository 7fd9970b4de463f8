import Mathlib.Data.List.Infix
import ScratchExport.Literal.Source
import ScratchExport.Opcode.Basic
import ScratchExport.Proofs.Identifier
import ScratchExport.Proofs.Numerals
import ScratchExport.Text.Case

/-!
# Scanning for `yield`

A text mentions `yield` when the five letters stand in it side by side, in whatever letter case.
`run` is the scan that looks for them. Its state is the number of letters of the word that the text
read so far ends with, and stays at five once the word is found; only `y` starts the word, so a
mismatch never has to look back (`mentions_iff`).

What composes is a scan between bounds: `Passes a b s` says that from a state up to `a` the scan is
at most in state `b` behind `s`. A text that does not mention the word passes from 0 to 4, and
punctuation passes from 4 back to 0. Escapes do not matter: quoting a text, lowering its case or
keeping it from ending a comment leaves every state of the scan as the plain text leaves it.
-/

namespace ScratchExport.Yield

/-- The word that is looked for. -/
def word : List Char := ['y', 'i', 'e', 'l', 'd']

/-- The letters of `yield` stand side by side in a text, in any letter case. -/
def Mentions (s : String) : Prop :=
  word <:+: s.toList.map Char.toLower

instance (s : String) : Decidable (Mentions s) :=
  inferInstanceAs (Decidable (_ <:+: _))

/-- Read one lower-case character. -/
def advance (k : Nat) (c : Char) : Nat :=
  if 5 ≤ k then 5 else if word[k]? = some c then k + 1 else if c = 'y' then 1 else 0

/-- Read characters in any case, from a state. -/
def run (k : Nat) (cs : List Char) : Nat :=
  (cs.map Char.toLower).foldl advance k

/-- From a state up to `a` the scan is at most in state `b` behind the text. -/
def Passes (a b : Nat) (s : String) : Prop :=
  ∀ k ≤ a, run k s.toList ≤ b

instance (a b : Nat) (s : String) : Decidable (Passes a b s) :=
  inferInstanceAs (Decidable (∀ k ≤ a, _))

@[simp] theorem run_nil (k : Nat) : run k [] = k := rfl

@[simp] theorem run_cons (k : Nat) (c : Char) (cs : List Char) :
    run k (c :: cs) = run (advance k c.toLower) cs := rfl

@[simp] theorem run_append (k : Nat) (cs ds : List Char) :
    run k (cs ++ ds) = run (run k cs) ds := by
  rw [run, List.map_append, List.foldl_append]; rfl

/-! ### The scan finds the word -/

theorem foldl_advance_five (cs : List Char) : cs.foldl advance 5 = 5 := by
  induction cs with
  | nil => rfl
  | cons c rest ih => exact ih

theorem foldl_advance_word (k : Nat) : word.foldl advance k = 5 := by
  by_cases h : 5 ≤ k
  · have hy : advance k 'y' = 5 := if_pos h
    rw [word, List.foldl_cons, hy]
    exact foldl_advance_five _
  · have hall : ∀ k < 5, word.foldl advance k = 5 := by decide
    exact hall k (by omega)

/-- Below five, the state is a length to which the text ends in the word. -/
theorem foldl_advance_spec (cs : List Char) :
    (cs.foldl advance 0 = 5 ∧ word <:+: cs) ∨
      (cs.foldl advance 0 < 5 ∧ word.take (cs.foldl advance 0) <:+ cs) := by
  induction cs using List.reverseRecOn with
  | nil => exact .inr ⟨by decide, by simp⟩
  | append_singleton cs c ih =>
    rw [List.foldl_append, List.foldl_cons, List.foldl_nil]
    rcases ih with ⟨hk, hfound⟩ | ⟨hk, hends⟩
    · exact .inl ⟨by rw [hk]; rfl, hfound.trans (List.prefix_append ..).isInfix⟩
    generalize cs.foldl advance 0 = k at hk hends
    unfold advance
    rw [if_neg (by omega)]
    split_ifs with hnext hy
    · -- One more letter of the word; behind the fifth the word stands at the end.
      have hlonger : word.take (k + 1) <:+ cs ++ [c] := by
        rw [List.take_add_one, hnext]
        exact (List.suffix_append_inj_of_length_eq rfl).2 ⟨hends, rfl⟩
      by_cases hlast : k = 4
      · subst hlast; exact .inl ⟨rfl, hlonger.isInfix⟩
      · exact .inr ⟨by omega, hlonger⟩
    · subst hy; exact .inr ⟨by decide, List.suffix_append ..⟩
    · exact .inr ⟨by decide, List.nil_suffix⟩

theorem mentions_iff {s : String} : Mentions s ↔ ¬ Passes 0 4 s := by
  have hrun : Passes 0 4 s ↔ (s.toList.map Char.toLower).foldl advance 0 ≤ 4 :=
    ⟨fun h => h 0 (Nat.le_refl 0), fun h k hk => by rw [Nat.le_zero.1 hk]; exact h⟩
  rw [hrun]
  constructor
  · rintro ⟨before, after, h⟩
    rw [← h, List.foldl_append, List.foldl_append, foldl_advance_word, foldl_advance_five]
    decide
  · intro h
    rcases foldl_advance_spec (s.toList.map Char.toLower) with ⟨-, hfound⟩ | ⟨hk, -⟩
    · exact hfound
    · exact absurd (by omega) h

theorem not_mentions_iff {s : String} : ¬ Mentions s ↔ Passes 0 4 s := by
  rw [mentions_iff, not_not]

theorem Passes.word_absent {s : String} (h : Passes 0 4 s) : ¬ "yield".toList <:+: s.toList := by
  intro hin
  have hword : "yield".toList.map Char.toLower = word := by decide
  have hlower := hin.map Char.toLower
  rw [hword] at hlower
  exact mentions_iff.1 hlower h

/-! ### Scans between bounds -/

namespace Passes
variable {a b c : Nat} {s t : String}

theorem append (hs : Passes a b s) (ht : Passes b c t) : Passes a c (s ++ t) := by
  intro k hk
  rw [String.toList_append, run_append]
  exact ht _ (hs k hk)

/-- A literal passes if its characters do. The characters are found by unification, which spares
decoding them. -/
theorem ofList {cs : List Char} (h : ∀ k ≤ a, run k cs ≤ b) : Passes a b (String.ofList cs) := by
  intro k hk
  rw [String.toList_ofList]
  exact h k hk

theorem weaken (h : Passes a b s) (hbc : b ≤ c) : Passes a c s :=
  fun k hk => (h k hk).trans hbc

theorem narrow (h : Passes b c s) (hab : a ≤ b) : Passes a c s :=
  fun k hk => h k (hk.trans hab)

end Passes

/-! ### Escapes -/

theorem toLower_of_not_ascii {c : Char} (h : 128 ≤ c.toNat) : c.toLower = c := by
  unfold Char.toLower
  refine dif_neg fun hupper => ?_
  have hle : c.toNat ≤ 90 := UInt32.le_iff_toNat_le.1 hupper.2
  omega

theorem mem_of_toLower_mem_word {c : Char} (h : c.toLower ∈ word) : c ∈ "yieldYIELD".toList := by
  by_cases hc : c.toNat < 128
  · exact Name.forall_ascii (P := fun c => c.toLower ∈ word → c ∈ "yieldYIELD".toList)
      (by decide) hc h
  · rw [toLower_of_not_ascii (by omega)] at h
    have hall : ∀ c ∈ word, c ∈ "yieldYIELD".toList := List.all_iff_forall_prop.1 (by decide)
    exact hall _ h

/-- The state behind a character that is not in the word. -/
def reset (k : Nat) : Nat :=
  if 5 ≤ k then 5 else 0

theorem advance_of_not_mem {c : Char} (h : c ∉ word) (k : Nat) : advance k c = reset k := by
  unfold advance reset
  split_ifs with hfound hnext hy
  · rfl
  · exact absurd (List.mem_of_getElem? hnext) h
  · subst hy; exact absurd (by decide) h
  · rfl

theorem run_reset {cs : List Char} (h : ∀ c ∈ cs, c.toLower ≠ 'y') (k : Nat) :
    run (reset k) cs = reset k := by
  induction cs with
  | nil => rfl
  | cons c rest ih =>
    have hc : advance (reset k) c.toLower = reset k := by
      have hy := h c (List.mem_cons_self ..)
      by_cases hk : 5 ≤ k
      · rw [reset, if_pos hk]; rfl
      · rw [reset, if_neg hk, advance, if_neg (by decide), if_neg hy, if_neg]
        exact fun hnext => hy (Option.some.inj hnext).symm
    rw [run_cons, hc]
    exact ih fun d hd => h d (List.mem_cons_of_mem _ hd)

/-- An escape starts outside the word and does not start the word. -/
theorem run_escape {c : Char} {rest : List Char} (hc : c.toLower ∉ word)
    (hrest : ∀ d ∈ rest, d.toLower ≠ 'y') (k : Nat) : run k (c :: rest) = reset k := by
  rw [run_cons, advance_of_not_mem hc]
  exact run_reset hrest k

theorem run_flatMap {f : Char → List Char} (h : ∀ k c, run k (f c) = run k [c]) (k : Nat)
    (cs : List Char) : run k (cs.flatMap f) = run k cs := by
  induction cs generalizing k with
  | nil => rfl
  | cons c rest ih => rw [List.flatMap_cons, run_append, h, ih]; rfl

theorem ne_y_of_mem_hexDigits {width n : Nat} {c : Char} (h : c ∈ Text.hexDigits width n) :
    c.toLower ≠ 'y' := by
  intro hy
  have hletter : c ∈ "yieldYIELD".toList := mem_of_toLower_mem_word (by rw [hy]; decide)
  have hall : ∀ c ∈ "yieldYIELD".toList, c.toLower = 'y' → c = 'y' ∨ c = 'Y' :=
    List.all_iff_forall_prop.1 (by decide)
  rcases List.mem_append.1 h with h | h
  · rw [(List.mem_replicate.1 h).2] at hy; exact absurd hy (by decide)
  · obtain ⟨d, rfl⟩ := exists_digitChar_of_mem_toDigits (by decide) h
    rcases hall _ hletter hy with hc | hc
    · exact Nat.digitChar_ne 'y' rfl hc
    · exact Nat.digitChar_ne 'Y' rfl hc

theorem run_short {c d : Char} (hc : c.toLower ∉ word) (hd : d.toLower ≠ 'y') (k : Nat) :
    run k ['\\', d] = run k [c] := by
  rw [run_escape (by decide) (by simpa) k, run_escape hc (by simp) k]

theorem run_long {c mark : Char} {width n : Nat} (hc : c.toLower ∉ word)
    (hmark : mark.toLower ≠ 'y') (k : Nat) :
    run k ('\\' :: mark :: Text.hexDigits width n) = run k [c] := by
  rw [run_escape (by decide) (fun d hd => ?_) k, run_escape hc (by simp) k]
  rcases List.mem_cons.1 hd with rfl | hd
  · exact hmark
  · exact ne_y_of_mem_hexDigits hd

theorem run_escapeChar (k : Nat) (c : Char) : run k (Text.escapeChar c) = run k [c] := by
  unfold Text.escapeChar
  split_ifs with h1 h2 h3 h4 h5 h6 h7 h8
  · rw [eq_of_beq h1]; exact run_short (by decide) (by decide) k
  · rw [eq_of_beq h2]; exact run_short (by decide) (by decide) k
  · rw [eq_of_beq h3]; exact run_short (by decide) (by decide) k
  · rw [eq_of_beq h4]; exact run_short (by decide) (by decide) k
  · rw [eq_of_beq h5]; exact run_short (by decide) (by decide) k
  · rw [eq_of_beq h6]; exact run_short (by decide) (by decide) k
  · rw [eq_of_beq h7]; exact run_short (by decide) (by decide) k
  · refine run_long (fun h => ?_) (by decide) k
    have hall : ∀ c ∈ "yieldYIELD".toList, 0x20 ≤ c.toNat := List.all_iff_forall_prop.1 (by decide)
    have := hall c (mem_of_toLower_mem_word h)
    omega
  · rfl

theorem run_showChar {mark : Char} (hmark : mark.toLower ∉ word) (k : Nat) (c : Char) :
    run k (Text.showChar mark c) = run k [c] := by
  -- The letters of the word can be printed.
  have hprinted (h : ¬ Text.printable.contains c = true) : c.toLower ∉ word := fun hc =>
    have hall : ∀ c ∈ "yieldYIELD".toList, Text.printable.contains c = true :=
      List.all_iff_forall_prop.1 (by decide)
    h (hall c (mem_of_toLower_mem_word hc))
  unfold Text.showChar
  split_ifs with h1 h2 h3 h4 h5 h6 h7
  · have hc : c.toLower ∉ word := by
      rcases Bool.or_eq_true_iff.1 h1 with h | h <;> rw [eq_of_beq h]
      · exact hmark
      · decide
    exact run_short hc (fun h => hc (by rw [h]; decide)) k
  · rw [eq_of_beq h2]; exact run_short (by decide) (by decide) k
  · rw [eq_of_beq h3]; exact run_short (by decide) (by decide) k
  · rw [eq_of_beq h4]; exact run_short (by decide) (by decide) k
  · rfl
  · exact run_long (hprinted h5) (by decide) k
  · exact run_long (hprinted h5) (by decide) k
  · exact run_long (hprinted h5) (by decide) k

theorem run_commentChars (k : Nat) (cs : List Char) :
    run k (Literal.commentChars cs) = run k cs := by
  fun_induction Literal.commentChars cs generalizing k with
  | case1 => rfl
  | case2 rest ih =>
    show run k (['*', ' ', '/'] ++ Literal.commentChars rest) = run k (['*', '/'] ++ rest)
    rw [run_append, run_append, run_escape (by decide) (by simp), run_escape (by decide) (by simp),
      ih]
  | case3 c rest _ ih => rw [run_cons, run_cons, ih]

theorem run_between {mark : Char} (hmark : mark.toLower ∉ word) {cs : List Char} (h : run 0 cs ≤ 4)
    {k : Nat} (hk : k ≤ 4) : run k (mark :: cs ++ [mark]) = 0 := by
  have hreset (k : Nat) (hk : k ≤ 4) : advance k mark.toLower = 0 := by
    rw [advance_of_not_mem hmark, reset, if_neg (by omega)]
  rw [List.cons_append, run_cons, run_append, hreset k hk, run_cons, hreset _ h, run_nil]

theorem passes_literal {s : String} (h : Passes 0 4 s) : Passes 4 0 (Text.literal s) := by
  intro k hk
  rw [Text.literal, String.toList_ofList, Text.literalChars, run_between (by decide) _ hk]
  rw [run_flatMap run_escapeChar]
  exact h 0 (Nat.le_refl 0)

theorem passes_quoted {s : String} (h : Passes 0 4 s) : Passes 4 0 (Text.quoted s) := by
  have hmark : (Text.quoteMark s.toList).toLower ∉ word := by
    unfold Text.quoteMark; split_ifs <;> decide
  intro k hk
  rw [Text.quoted, String.toList_ofList, run_between hmark _ hk]
  rw [run_flatMap (run_showChar hmark)]
  exact h 0 (Nat.le_refl 0)

theorem passes_commentText {a b : Nat} {s : String} (h : Passes a b s) :
    Passes a b (Literal.commentText s) := by
  intro k hk
  rw [Literal.commentText, String.toList_ofList, run_commentChars]
  exact h k hk

/-! ### Lower case -/

theorem toNat_ofNat (n : Nat) : (Char.ofNat n).toNat = n ∨ (Char.ofNat n).toNat = 0 := by
  by_cases h : n.isValidChar
  · rw [Char.ofNat, dif_pos h]
    exact .inl rfl
  · rw [Char.ofNat, dif_neg h]
    exact .inr rfl

/-- Beyond ASCII one character has a letter of the word in its lower case, and an accent stands
behind that letter. In the other runs of the table the images keep away from the word. -/
theorem run_mapCase (k : Nat) (c : Char) :
    run k (Text.mapCase Text.CaseTable.lowerRuns Text.CaseTable.lowerLong c) = run k [c] := by
  have hbig : ∀ d ∈ "yieldYIELD".toList, 0 < d.toNat ∧ d.toNat < 128 :=
    List.all_iff_forall_prop.1 (by decide)
  have hplain (h : 128 ≤ c.toNat) : run k [c] = reset k :=
    run_escape (fun hc => by have := hbig c (mem_of_toLower_mem_word hc); omega) (by simp) k
  unfold Text.mapCase
  simp only
  split
  · next image hfind =>
    have hcode := List.find?_some hfind
    have hmem := List.mem_of_find?_eq_some hfind
    rw [Text.CaseTable.lowerLong, List.mem_singleton, Prod.mk.injEq] at hmem
    rw [hmem.1] at hcode
    have hcode : 304 = c.toNat := eq_of_beq hcode
    rw [hplain (by omega), hmem.2]
    have hall : ∀ k < 5, run k ([0x69, 0x307].map Char.ofNat) = 0 := by decide
    unfold reset
    split_ifs with hk
    · show advance (advance k _) _ = 5
      rw [show advance k _ = 5 from if_pos hk]; rfl
    · exact hall k (by omega)
  split
  · next first last stride image hfind =>
    have hall : ∀ r ∈ Text.CaseTable.lowerRuns, r = (0x41, 0x5A, 1, 0x61) ∨ 128 ≤ r.1 ∧
        ∀ n ∈ "yieldYIELD".toList.map Char.toNat, n < r.2.2.2 ∨ r.2.2.2 + (r.2.1 - r.1) < n := by
        decide +kernel
    have hrange := List.find?_some hfind
    simp only [Bool.and_eq_true, decide_eq_true_eq] at hrange
    rcases hall _ (List.mem_of_find?_eq_some hfind) with hascii | ⟨hfirst, haway⟩
    · simp only [Prod.mk.injEq] at hascii
      obtain ⟨rfl, rfl, -, rfl⟩ := hascii
      have hlower : (Char.ofNat (0x61 + (c.toNat - 0x41))).toLower = c.toLower :=
        Name.forall_ascii (P := fun c => 0x41 ≤ c.toNat ∧ c.toNat ≤ 0x5A →
          (Char.ofNat (0x61 + (c.toNat - 0x41))).toLower = c.toLower) (by decide)
          (by omega) hrange.1
      rw [run_cons, run_cons, hlower]
    · simp only at hfirst haway
      rw [hplain (by omega)]
      refine run_escape (fun hc => ?_) (by simp) k
      have haway := haway _ (List.mem_map_of_mem (mem_of_toLower_mem_word hc))
      have hbig := hbig _ (mem_of_toLower_mem_word hc)
      rcases toNat_ofNat (image + (c.toNat - first)) with h | h <;> rw [h] at haway hbig <;> omega
  · rfl

theorem run_lowerAfter (k : Nat) (before cs : List Char) :
    run k (Text.lowerAfter before cs) = run k cs := by
  fun_induction Text.lowerAfter before cs generalizing k with
  | case1 => rfl
  | case2 before rest ih =>
    have hsigma (c : Char) (hc : c.toLower ∉ word) :
        advance k c.toLower = advance k 'Σ'.toLower := by
      rw [advance_of_not_mem hc, advance_of_not_mem (by decide)]
    rw [run_cons, run_cons, ih]
    split_ifs
    · rw [hsigma 'ς' (by decide)]
    · rw [hsigma 'σ' (by decide)]
  | case3 before c rest _ ih => rw [run_append, ih, run_mapCase, run_cons, run_nil, run_cons]

theorem passes_lower {a b : Nat} {s : String} (h : Passes a b s) : Passes a b (Text.lower s) := by
  intro k hk
  rw [Text.lower, String.toList_ofList, run_lowerAfter]
  exact h k hk

/-! ### Numbers -/

theorem passes_of_no_y {s : String} (h : ∀ c ∈ s.toList, c.toLower ≠ 'y') : Passes 0 0 s := by
  intro k hk
  rw [Nat.le_zero.1 hk]
  exact (run_reset h 0).le

theorem ne_y_of_numeral {c : Char} (h : c.isDigit = true ∨ c ∈ numeralMarks) : c.toLower ≠ 'y' := by
  intro hy
  have hall : ∀ c ∈ "yieldYIELD".toList, c.isDigit = false ∧ (c.toLower = 'y' → c ∉ numeralMarks) :=
    List.all_iff_forall_prop.1 (by decide)
  obtain ⟨hdigit, hmark⟩ := hall c (mem_of_toLower_mem_word (by rw [hy]; decide))
  rcases h with h | h
  · rw [hdigit] at h; cases h
  · exact hmark hy h

theorem passes_toString_int (i : Int) : Passes 0 0 (toString i) :=
  passes_of_no_y fun _ hc =>
    ne_y_of_numeral ((mem_toString_int hc).imp_right fun h => by rw [h]; decide)

theorem passes_text (x : Binary64) : Passes 0 0 x.text := by
  cases x with
  | nan => decide
  | infinite negative => cases negative <;> decide
  | finite negative units => exact passes_of_no_y fun _ hc => ne_y_of_numeral (Binary64.mem_text hc)

theorem passes_numberLiteral (x : Binary64) : Passes 0 4 (Literal.numberLiteral x) := by
  cases x with
  | nan => decide
  | infinite negative => cases negative <;> decide
  | finite negative units =>
    exact (passes_of_no_y fun _ hc => ne_y_of_numeral (Literal.mem_numberLiteral hc)).weaken
      (by decide)

/-! ### Labels -/

/-- The label of an opcode is an identifier and does not mention the word. -/
theorem exists_label (op : Opcode) :
    ∃ cs, op.label = String.ofList cs ∧ Name.isIdentifierChars cs = true ∧ run 0 cs ≤ 4 := by
  cases op with
  | motion op | looks op | audio op | event op | control op | sensing op | operator op | data op
  | procedure op | pen op | music op | video op | robot op =>
    cases op <;> exact ⟨_, rfl, by decide, by decide⟩

theorem passes_label (op : Opcode) : Passes 0 4 op.label := by
  obtain ⟨cs, hlabel, -, hrun⟩ := exists_label op
  rw [hlabel]
  exact .ofList fun k hk => by rwa [Nat.le_zero.1 hk]

theorem isIdentifier_label (op : Opcode) : Name.IsIdentifier op.label := by
  obtain ⟨cs, hlabel, hchars, -⟩ := exists_label op
  rwa [hlabel, Name.IsIdentifier, String.toList_ofList]

end ScratchExport.Yield
