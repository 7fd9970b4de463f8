import Mathlib.Data.Bool.AllAny
import ScratchExport.Name.Identifier
import ScratchExport.Proofs.NameSpace

/-!
# Candidates and their variants are ASCII identifiers

An identifier is a letter or underscore followed by letters, digits and underscores, all of them
ASCII. `camelCase` makes one of any text, since what is left of a text after splitting it into words
is letters and digits, and a variant of an identifier is one again: the number at its end starts
behind the first character.
-/

namespace ScratchExport.Name

/-- A character that an identifier can start with. -/
def isIdentifierHead (c : Char) : Bool :=
  c.isAlpha || c == '_'

/-- A character inside an identifier. -/
def isIdentifierTail (c : Char) : Bool :=
  c.isAlphanum || c == '_'

/-- The characters of an ASCII identifier: `[A-Za-z_][A-Za-z0-9_]*`. -/
def isIdentifierChars : List Char → Bool
  | [] => false
  | c :: rest => isIdentifierHead c && rest.all isIdentifierTail

/-- An ASCII identifier. -/
def IsIdentifier (name : String) : Prop :=
  isIdentifierChars name.toList = true

instance (name : String) : Decidable (IsIdentifier name) :=
  inferInstanceAs (Decidable (_ = true))

/-! ### ASCII characters -/

/-- A property of characters that is checked on ASCII holds of every ASCII character. -/
theorem forall_ascii {P : Char → Prop} (h : ∀ n < 128, P (Char.ofNat n)) {c : Char}
    (hc : c.toNat < 128) : P c := by
  have := h c.toNat hc
  rwa [Char.ofNat_toNat] at this

theorem toNat_lt_of_isAlphanum {c : Char} (h : c.isAlphanum = true) : c.toNat < 128 := by
  have hbound {m : Char} (hm : c.val ≤ m.val) (hlt : m.toNat < 128) : c.toNat < 128 :=
    Nat.lt_of_le_of_lt (UInt32.le_iff_toNat_le.1 hm) hlt
  rcases Bool.or_eq_true_iff.1 h with halpha | hdigit
  · rcases Bool.or_eq_true_iff.1 halpha with hupper | hlower
    · exact hbound (m := 'Z') (of_decide_eq_true hupper).2 (by decide)
    · exact hbound (m := 'z') (of_decide_eq_true (Bool.and_eq_true_iff.1 hlower).2) (by decide)
  · exact hbound (m := '9') (of_decide_eq_true (Bool.and_eq_true_iff.1 hdigit).2) (by decide)

theorem isAlphanum_toUpper {c : Char} (h : c.isAlphanum = true) : c.toUpper.isAlphanum = true :=
  forall_ascii (P := fun c => c.isAlphanum = true → c.toUpper.isAlphanum = true) (by decide)
    (toNat_lt_of_isAlphanum h) h

theorem isAlphanum_toLower {c : Char} (h : c.isAlphanum = true) : c.toLower.isAlphanum = true :=
  forall_ascii (P := fun c => c.isAlphanum = true → c.toLower.isAlphanum = true) (by decide)
    (toNat_lt_of_isAlphanum h) h

/-! ### Words -/

theorem mem_consLine {c : Char} {lines : List (List Char)} {line : List Char}
    (h : line ∈ Text.consLine c lines) :
    line = [c] ∨ line ∈ lines ∨ ∃ first ∈ lines, line = c :: first := by
  cases lines with
  | nil => exact .inl (List.mem_singleton.1 h)
  | cons first rest =>
    rcases List.mem_cons.1 h with rfl | h
    · exact .inr (.inr ⟨first, by simp, rfl⟩)
    · exact .inr (.inl (by simp [h]))

theorem not_separator_of_mem_splitWhere {p : Char → Bool} {cs piece : List Char}
    (h : piece ∈ Text.splitWhere p cs) : ∀ c ∈ piece, p c = false := by
  induction cs generalizing piece with
  | nil => rw [Text.splitWhere, List.mem_singleton] at h; subst h; simp
  | cons d rest ih =>
    rw [Text.splitWhere] at h
    split at h
    · rcases List.mem_cons.1 h with rfl | h
      · simp
      · exact ih h
    · have hd : p d = false := by simpa using ‹¬ p d = true›
      rcases mem_consLine h with rfl | h | ⟨first, hfirst, rfl⟩
      · simpa using hd
      · exact ih h
      · intro c hc
        rcases List.mem_cons.1 hc with rfl | hc
        exacts [hd, ih hfirst c hc]

theorem isAlphanum_of_mem_words {cs word : List Char} (h : word ∈ words cs) :
    ∀ c ∈ word, c.isAlphanum = true := by
  intro c hc
  have := not_separator_of_mem_splitWhere (List.mem_of_mem_filter h) c hc
  simpa using this

theorem isAlphanum_capitalize {word : List Char} (h : ∀ c ∈ word, c.isAlphanum = true) :
    ∀ c ∈ capitalize word, c.isAlphanum = true := by
  cases word with
  | nil => simp [capitalize]
  | cons first rest =>
    intro c hc
    rcases List.mem_cons.1 hc with rfl | hc
    · exact isAlphanum_toUpper (h first (by simp))
    · obtain ⟨d, hd, rfl⟩ := List.mem_map.1 hc
      exact isAlphanum_toLower (h d (by simp [hd]))

theorem isAlphanum_joinWords (upper : Bool) {ws : List (List Char)}
    (h : ∀ word ∈ ws, ∀ c ∈ word, c.isAlphanum = true) :
    ∀ c ∈ joinWords upper ws, c.isAlphanum = true := by
  cases ws with
  | nil => simp [joinWords]
  | cons first rest =>
    intro c hc
    rcases List.mem_append.1 hc with hc | hc
    · split at hc
      · exact isAlphanum_capitalize (h first (by simp)) c hc
      · obtain ⟨d, hd, rfl⟩ := List.mem_map.1 hc
        exact isAlphanum_toLower (h first (by simp) d hd)
    · obtain ⟨word, hword, hc⟩ := List.mem_flatMap.1 hc
      exact isAlphanum_capitalize (h word (by simp [hword])) c hc

/-! ### Identifiers -/

theorem isIdentifierChars_cons {c : Char} {rest : List Char} :
    isIdentifierChars (c :: rest) = true ↔ isIdentifierHead c = true ∧ ∀ d ∈ rest,
    isIdentifierTail d = true := by
  simp [isIdentifierChars]

theorem isIdentifierTail_of_isAlphanum {c : Char} (h : c.isAlphanum = true) :
    isIdentifierTail c = true := by
  simp [isIdentifierTail, h]

theorem isIdentifierTail_of_head {c : Char} (h : isIdentifierHead c = true) :
    isIdentifierTail c = true := by
  simp only [isIdentifierHead, isIdentifierTail, Char.isAlphanum, Bool.or_eq_true] at h ⊢
  tauto

theorem isIdentifierTail_of_mem {cs : List Char} (h : isIdentifierChars cs = true) :
    ∀ c ∈ cs, isIdentifierTail c = true := by
  cases cs with
  | nil => simp
  | cons c rest =>
    obtain ⟨hc, hrest⟩ := isIdentifierChars_cons.1 h
    intro d hd
    rcases List.mem_cons.1 hd with rfl | hd
    exacts [isIdentifierTail_of_head hc, hrest d hd]

theorem isIdentifier_camelCase (name : String) (upper : Bool) :
    IsIdentifier (camelCase name upper) := by
  have halnum : ∀ c ∈ joinWords upper (words name.toList), c.isAlphanum = true :=
    isAlphanum_joinWords upper fun _ hw => isAlphanum_of_mem_words hw
  rw [IsIdentifier, camelCase, String.toList_ofList, camelCaseChars]
  cases hjoin : joinWords upper (words name.toList) with
  | nil => decide
  | cons c rest =>
    rw [hjoin] at halnum
    have htail : ∀ d ∈ c :: rest, isIdentifierTail d = true :=
      fun d hd => isIdentifierTail_of_isAlphanum (halnum d hd)
    by_cases hdigit : c.isDigit = true
    · simp only [hdigit, ↓reduceIte]
      exact isIdentifierChars_cons.2 ⟨by decide, htail⟩
    · simp only [hdigit]
      have hc : c.isAlphanum = true := halnum c (by simp)
      refine isIdentifierChars_cons.2 ⟨?_, fun d hd => htail d (by simp [hd])⟩
      simp only [Char.isAlphanum, hdigit, Bool.or_false] at hc
      simp [isIdentifierHead, hc]

/-- The digits of a number can stand anywhere but at the front. -/
theorem isIdentifierTail_of_mem_decimal {n : Nat} {c : Char} (h : c ∈ Text.decimal n) :
    isIdentifierTail c = true :=
  isIdentifierTail_of_isAlphanum (by simp [Char.isAlphanum, Text.isDigit_of_mem_decimal h])

theorem isIdentifierChars_append {cs ds : List Char} (hcs : isIdentifierChars cs = true)
    (hds : ∀ d ∈ ds, isIdentifierTail d = true) : isIdentifierChars (cs ++ ds) = true := by
  cases cs with
  | nil => cases hcs
  | cons c rest =>
    obtain ⟨hc, hrest⟩ := isIdentifierChars_cons.1 hcs
    refine isIdentifierChars_cons.2 ⟨hc, fun d hd => ?_⟩
    rcases List.mem_append.1 hd with hd | hd
    exacts [hrest d hd, hds d hd]

theorem not_isDigit_of_isIdentifierHead {c : Char} (h : isIdentifierHead c = true) :
    Text.isDigit c = false := by
  have hascii : c.toNat < 128 := by
    simp only [isIdentifierHead, Bool.or_eq_true, beq_iff_eq] at h
    rcases h with h | rfl
    · exact toNat_lt_of_isAlphanum (by simp [Char.isAlphanum, h])
    · decide
  exact forall_ascii (P := fun c => isIdentifierHead c = true → Text.isDigit c = false)
    (by decide) hascii h

/-- What is left of an identifier without the number at its end is an identifier. -/
theorem isIdentifierChars_rdropWhile {cs : List Char} (h : isIdentifierChars cs = true) :
    isIdentifierChars (cs.rdropWhile Text.isDigit) = true := by
  cases cs with
  | nil => cases h
  | cons c rest =>
    obtain ⟨hc, hrest⟩ := isIdentifierChars_cons.1 h
    obtain ⟨more, hmore⟩ := List.rdropWhile_prefix Text.isDigit (c :: rest)
    cases hdrop : (c :: rest).rdropWhile Text.isDigit with
    | nil =>
      have := List.rdropWhile_eq_nil_iff.1 hdrop c (by simp)
      rw [not_isDigit_of_isIdentifierHead hc] at this; cases this
    | cons d stem =>
      rw [hdrop, List.cons_append, List.cons.injEq] at hmore
      obtain ⟨rfl, hstem⟩ := hmore
      exact isIdentifierChars_cons.2 ⟨hc, fun e he => hrest e (by rw [← hstem]; simp [he])⟩

theorem isIdentifier_nextVariant {name : String} (h : IsIdentifier name) :
    IsIdentifier (nextVariant name) := by
  rw [IsIdentifier, nextVariant, String.toList_ofList]
  rw [IsIdentifier] at h
  generalize name.toList = cs at h
  have hlf : '\n' ∉ cs := fun hin => by
    have := isIdentifierTail_of_mem h _ hin
    revert this; decide
  have hbody := variantBody_eq_self hlf
  by_cases hnum : cs.rtakeWhile Text.isDigit = []
  · rw [nextVariantChars_of_no_number (by rw [hbody]; exact hnum)]
    exact isIdentifierChars_append h (by simp; decide)
  · rw [nextVariantChars_of_number (by rw [hbody]; exact hlf) (by rw [hbody]; exact hnum), hbody]
    exact isIdentifierChars_append (isIdentifierChars_rdropWhile h) fun d hd =>
      isIdentifierTail_of_mem_decimal hd

end ScratchExport.Name
