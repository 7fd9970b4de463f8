import ScratchExport.Proofs.Execution
import ScratchExport.Proofs.Identifier
import ScratchExport.Proofs.LiteralLines

/-!
# Texts that are numbers

`NumericLiteral` is the grammar of numbers in texts, for a given notion of digit: a decimal or the
word for infinity, with or without sign, or an unsigned integer in base 16, 8 or 2. The running
program trims its own blanks off a text and has ASCII digits only (`IsNumeric`); the texts that are
numbers by this rule are those that it converts to one (`isNumeric_iff_ofText`). The reader of
literals differs from it in three ways: it takes the digits of every script, it trims the separators
U+001C to U+001F and the next-line character but not the byte order mark, and it fails on an integer
that is too large for a double. These are exactly why the two may disagree on a text
(`number?_text_iff_isNumeric`).
-/

namespace ScratchExport.Literal
open Text (isDigit)

/-! ### The grammar -/

/-- The signs in front of a number or an exponent. -/
def signs : List (List Char) :=
  [[], ['+'], ['-']]

/-- The marks of an exponent. -/
def exponentMarks : List Char :=
  ['e', 'E']

section Grammar
variable (digit : Char → Bool)

/-- Digits, one or more. -/
structure Digits (cs : List Char) : Prop where
  some : cs ≠ []
  all : ∀ c ∈ cs, digit c = true

/-- An exponent, or nothing. -/
inductive ExponentPart : List Char → Prop
  | none : ExponentPart []
  | some {e : Char} {sign digits : List Char} (he : e ∈ exponentMarks) (hsign : sign ∈ signs)
      (h : Digits digit digits) : ExponentPart (e :: sign ++ digits)

/-- A decimal without sign. The point may have digits on both sides or on one. -/
inductive UnsignedDecimal : List Char → Prop
  | whole {digits exponent : List Char} (h : Digits digit digits)
      (he : ExponentPart digit exponent) : UnsignedDecimal (digits ++ exponent)
  | point {before after exponent : List Char} (hbefore : Digits digit before)
      (hafter : ∀ c ∈ after, digit c = true)
      (he : ExponentPart digit exponent) : UnsignedDecimal (before ++ '.' :: after ++ exponent)
  | fraction {after exponent : List Char} (hafter : Digits digit after)
      (he : ExponentPart digit exponent) : UnsignedDecimal ('.' :: after ++ exponent)

/-- An integer in base 16, 8 or 2, with its value. -/
inductive BasedInteger : List Char → Nat → Prop
  | mk {b : Char} {base : Nat} {cs : List Char} {digits : List Nat} (hb : (b, base) ∈ bases)
      (hne : cs ≠ [])
      (h : List.Forall₂ (fun c d => Json.hexValue? c = some d ∧ d < base) cs digits) :
      BasedInteger ('0' :: b :: cs) (Nat.ofDigits base digits.reverse)

/-- A number, without anything around it. -/
inductive NumericLiteral : List Char → Prop
  | decimal {sign cs : List Char} (hsign : sign ∈ signs) (h : UnsignedDecimal digit cs) :
      NumericLiteral (sign ++ cs)
  | infinity {sign : List Char} (hsign : sign ∈ signs) : NumericLiteral (sign ++ "Infinity".toList)
  | based {cs : List Char} {n : Nat} (h : BasedInteger cs n) : NumericLiteral cs

end Grammar

/-- A text that the running program converts to a number, and that is not blank. -/
def IsNumeric (s : String) : Prop :=
  NumericLiteral Char.isDigit (Execution.trim s.toList)

/-! ### Decimals -/

variable {cs : List Char} {c : Char} {n : Nat}

theorem exists_signed {sign : List Char} (h : sign ∈ signs) (cs : List Char) :
    ∃ negative, Signed (sign ++ cs) negative cs := by
  simp only [signs, List.mem_cons, List.not_mem_nil, or_false] at h
  rcases h with rfl | rfl | rfl
  exacts [⟨_, .plain cs⟩, ⟨_, .plus cs⟩, ⟨_, .minus cs⟩]

theorem exists_exponent (h : ExponentPart isDigit cs) : ∃ e, Exponent cs e := by
  cases h with
  | none => exact ⟨_, .none⟩
  | @some e sign digits he hsign h =>
    obtain ⟨negative, hs⟩ := exists_signed hsign digits
    exact ⟨_, .some (by simpa [exponentMarks] using he) hs h.some h.all⟩

theorem exists_mantissa (h : UnsignedDecimal isDigit cs) : ∃ mantissa before after rest e,
    cs = mantissa ++ rest ∧ Mantissa mantissa before after ∧ Exponent rest e := by
  cases h with
  | whole h he =>
    obtain ⟨e, he⟩ := exists_exponent he
    exact ⟨_, _, _, _, e, rfl, .whole h.some h.all, he⟩
  | point hbefore hafter he =>
    obtain ⟨e, he⟩ := exists_exponent he
    exact ⟨_, _, _, _, e, rfl, .point (by simp [hbefore.some]) hbefore.all hafter, he⟩
  | @fraction after exponent hafter he =>
    obtain ⟨e, he⟩ := exists_exponent he
    exact ⟨[] ++ '.' :: after, [], after, exponent, e, rfl, .point hafter.some (by simp) hafter.all,
      he⟩

theorem exists_decimal?_eq_some {sign : List Char} (hsign : sign ∈ signs)
    (h : UnsignedDecimal isDigit cs) : ∃ x, decimal? (sign ++ cs) = some x := by
  obtain ⟨mantissa, before, after, rest, e, rfl, hm, he⟩ := exists_mantissa h
  obtain ⟨negative, hs⟩ := exists_signed hsign (mantissa ++ rest)
  exact ⟨_, decimal?_of_signed hs hm he⟩

theorem exists_splitSign (cs : List Char) : ∃ sign ∈ signs, cs = sign ++ (splitSign cs).2 := by
  unfold splitSign
  split
  exacts [⟨['-'], by decide, rfl⟩, ⟨['+'], by decide, rfl⟩, ⟨[], by decide, rfl⟩]

theorem splitFraction_cases (cs : List Char) :
    (∃ more, cs = '.' :: more ∧
      splitFraction cs = (more.takeWhile isDigit, more.dropWhile isDigit)) ∨
      splitFraction cs = ([], cs) := by
  unfold splitFraction
  split
  exacts [.inl ⟨_, rfl, rfl⟩, .inr rfl]

theorem exponentPart_of_exponent? {e : Int} (h : exponent? cs = some e) :
    ExponentPart isDigit cs := by
  cases cs with
  | nil => exact .none
  | cons mark rest =>
    obtain ⟨sign, hsign, hrest⟩ := exists_splitSign rest
    have hcond : ((mark == 'e' || mark == 'E') && !(splitSign rest).2.isEmpty &&
        (splitSign rest).2.all isDigit) = true := by
      by_contra hfalse
      rw [exponent?] at h
      dsimp only at h
      rw [if_neg hfalse] at h
      cases h
    simp only [Bool.and_eq_true, Bool.or_eq_true, beq_iff_eq, Bool.not_eq_true',
      List.isEmpty_eq_false_iff, List.all_eq_true] at hcond
    rw [hrest]
    exact .some (by simpa [exponentMarks] using hcond.1.1) hsign ⟨hcond.1.2, hcond.2⟩

theorem digits_takeWhile (h : cs.takeWhile isDigit ≠ []) : Digits isDigit (cs.takeWhile isDigit) :=
  ⟨h, fun _ hc => List.mem_takeWhile_imp hc⟩

theorem unsignedDecimal_of_unsignedDecimal? {negative : Bool} {x : Binary64}
    (h : unsignedDecimal? negative cs = some x) : UnsignedDecimal isDigit cs := by
  have hsplit := List.takeWhile_append_dropWhile (p := isDigit) (l := cs)
  unfold unsignedDecimal? at h
  dsimp only at h
  split_ifs at h with hnone
  obtain ⟨e, he, -⟩ := Option.map_eq_some_iff.1 h
  have hexponent := exponentPart_of_exponent? he
  rcases splitFraction_cases (cs.dropWhile isDigit) with ⟨more, hpoint, hfraction⟩ | hfraction
  · have hmore := List.takeWhile_append_dropWhile (p := isDigit) (l := more)
    rw [hfraction] at hexponent hnone
    rw [← hsplit, hpoint, ← hmore]
    by_cases hwhole : cs.takeWhile isDigit = []
    · rw [hwhole]
      exact .fraction (digits_takeWhile (by simpa [hwhole] using hnone)) hexponent
    · rw [← List.cons_append, ← List.append_assoc]
      exact .point (digits_takeWhile hwhole) (fun _ hc => List.mem_takeWhile_imp hc) hexponent
  · rw [hfraction] at hexponent hnone
    rw [← hsplit]
    exact .whole (digits_takeWhile (by simpa using hnone)) hexponent

theorem numericLiteral_of_decimal? {x : Binary64} (h : decimal? cs = some x) :
    NumericLiteral isDigit cs := by
  obtain ⟨sign, hsign, hcs⟩ := exists_splitSign cs
  rw [decimal?] at h
  rw [hcs]
  exact .decimal hsign (unsignedDecimal_of_unsignedDecimal? h)

/-! ### Other bases -/

theorem mem_bases_of_baseOf? {b : Char} {base : Nat} (h : baseOf? b = some base) :
    (b, base) ∈ bases := by
  unfold baseOf? at h
  split_ifs at h with h16 h8 h2 <;> cases h <;> simp_all [bases]

theorem exists_digits_of_foldlM {base start : Nat}
    (h : cs.foldlM (fun n c => ((Json.hexValue? c).filter (· < base)).map (n * base + ·)) start =
      some n) :
    ∃ digits, List.Forall₂ (fun c d => Json.hexValue? c = some d ∧ d < base) cs digits := by
  induction cs generalizing start with
  | nil => exact ⟨[], .nil⟩
  | cons c rest ih =>
    rw [List.foldlM_cons, Option.bind_eq_bind, Option.bind_eq_some_iff] at h
    obtain ⟨next, hnext, h⟩ := h
    obtain ⟨d, hd, -⟩ := Option.map_eq_some_iff.1 hnext
    obtain ⟨hvalue, hlt⟩ := Option.filter_eq_some_iff.1 hd
    obtain ⟨digits, hdigits⟩ := ih h
    exact ⟨d :: digits, .cons ⟨hvalue, by simpa using hlt⟩ hdigits⟩

theorem based?_eq_some_iff : based? cs = some n ↔ BasedInteger cs n := by
  constructor
  · intro h
    unfold based? at h
    split at h
    · rename_i b rest
      rw [Option.bind_eq_bind, Option.bind_eq_some_iff] at h
      obtain ⟨base, hbase, hdigits⟩ := h
      have hb := mem_bases_of_baseOf? hbase
      have hvalue := hdigits
      unfold basedDigits? at hdigits
      split_ifs at hdigits with hempty
      obtain ⟨digits, hforall⟩ := exists_digits_of_foldlM hdigits
      rw [basedDigits?_of_forall₂ (by simpa using hempty) hforall, Option.some.injEq] at hvalue
      exact hvalue ▸ .mk hb (by simpa using hempty) hforall
    · cases h
  · rintro ⟨hb, hne, h⟩
    exact based?_of_mem hb hne h

theorem BasedInteger.decimal?_eq_none (h : BasedInteger cs n) : decimal? cs = none := by
  obtain ⟨hb, -, -⟩ := h
  exact decimal?_based hb _

/-- A text is a number exactly if one of the three readers takes it. -/
theorem numericLiteral_iff : NumericLiteral isDigit cs ↔
    (∃ x, decimal? cs = some x) ∨ (∃ n, based? cs = some n) ∨
      (cs = "Infinity".toList ∨ cs = "+Infinity".toList) ∨ cs = "-Infinity".toList := by
  constructor
  · intro h
    cases h with
    | decimal hsign h => exact .inl (exists_decimal?_eq_some hsign h)
    | infinity hsign =>
      simp only [signs, List.mem_cons, List.not_mem_nil, or_false] at hsign
      rcases hsign with rfl | rfl | rfl
      exacts [.inr (.inr (.inl (.inl rfl))), .inr (.inr (.inl (.inr rfl))), .inr (.inr (.inr rfl))]
    | based h => exact .inr (.inl ⟨_, based?_eq_some_iff.2 h⟩)
  · rintro (⟨x, hx⟩ | ⟨n, hn⟩ | (rfl | rfl) | rfl)
    · exact numericLiteral_of_decimal? hx
    · exact .based (based?_eq_some_iff.1 hn)
    · exact .infinity (show [] ∈ signs by decide)
    · exact .infinity (show ['+'] ∈ signs by decide)
    · exact .infinity (show ['-'] ∈ signs by decide)

/-! ### The reader of literals -/

/-- An integer in base 16, 8 or 2 that is too large for a double. -/
def IsHuge (s : String) : Prop :=
  ∃ n, BasedInteger (Text.trim s.toList) n ∧ Binary64.Exceeds n

section Reader
variable {s : String}

theorem isHuge_iff (h : BasedInteger (Text.trim s.toList) n) : IsHuge s ↔ Binary64.Exceeds n := by
  refine ⟨fun ⟨m, hm, hlarge⟩ => ?_, fun hlarge => ⟨n, h, hlarge⟩⟩
  rw [← based?_eq_some_iff] at hm h
  rw [hm, Option.some.injEq] at h
  exact h ▸ hlarge

/-- An integer of another base is read unless it is huge. -/
theorem number?_of_based (h : BasedInteger (Text.trim s.toList) n) :
    (IsHuge s ∧ number? (.text s) = .error .tooLarge) ∨
      (¬ IsHuge s ∧ ∃ x, number? (.text s) = .ok (some x)) := by
  have hnone : Binary64.ofInt? n = none ↔ Binary64.Exceeds n := Binary64.ofInt?_eq_none_iff
  rw [isHuge_iff h, ← hnone, number?, ofText, h.decimal?_eq_none, based?_eq_some_iff.2 h]
  dsimp only
  rw [Value.double]
  cases Binary64.ofInt? n with
  | none => exact .inl ⟨rfl, rfl⟩
  | some x => exact .inr ⟨Option.some_ne_none x, x, rfl⟩

theorem number?_of_not_based (h : ¬ ∃ n, BasedInteger (Text.trim s.toList) n) :
    ∃ found, number? (.text s) = .ok found ∧ (found.isSome = true ↔
      NumericLiteral isDigit (Text.trim s.toList)) := by
  have hnone : based? (Text.trim s.toList) = none :=
    Option.eq_none_iff_forall_ne_some.2 fun n hn => h ⟨n, based?_eq_some_iff.1 hn⟩
  rw [number?, ofText, numericLiteral_iff, hnone]
  cases hdecimal : decimal? (Text.trim s.toList) with
  | some x => exact ⟨some x, rfl, by simp⟩
  | none =>
    dsimp only
    split_ifs with hplus hminus
    · rw [Bool.or_eq_true, beq_iff_eq, beq_iff_eq] at hplus
      exact ⟨_, rfl, iff_of_true rfl (.inr (.inr (.inl hplus)))⟩
    · rw [beq_iff_eq] at hminus
      exact ⟨_, rfl, iff_of_true rfl (.inr (.inr (.inr hminus)))⟩
    · rw [Bool.or_eq_true, beq_iff_eq, beq_iff_eq] at hplus
      rw [beq_iff_eq] at hminus
      refine ⟨_, rfl, iff_of_false Bool.false_ne_true ?_⟩
      rintro (⟨_, ⟨⟩⟩ | ⟨_, ⟨⟩⟩ | hword | hword)
      exacts [hplus hword, hminus hword]

/-- A text is read as a number exactly if it is one by the grammar, with the digits of every script,
and not huge. Huge integers are the only texts that fail. -/
theorem number?_text_iff (s : String) :
    ((∃ x, number? (.text s) = .ok (some x)) ↔ NumericLiteral isDigit (Text.trim s.toList) ∧
      ¬ IsHuge s) ∧
    ∀ fault, number? (.text s) = .error fault ↔ fault = .tooLarge ∧ IsHuge s := by
  by_cases hbased : ∃ n, BasedInteger (Text.trim s.toList) n
  · obtain ⟨n, hn⟩ := hbased
    rcases number?_of_based hn with ⟨hhuge, herror⟩ | ⟨hsmall, x, hx⟩
    · simp [hhuge, herror, eq_comm]
    · simp [hsmall, hx, NumericLiteral.based hn]
  · have hsmall : ¬ IsHuge s := fun ⟨n, hn, _⟩ => hbased ⟨n, hn⟩
    obtain ⟨found, hfound, hsome⟩ := number?_of_not_based hbased
    rw [hfound, ← hsome]
    simp [hsmall, Option.isSome_iff_exists]

end Reader

/-! ### The characters of a number -/

/-- A visible ASCII character. -/
def IsVisible (c : Char) : Prop :=
  33 ≤ c.toNat ∧ c.toNat ≤ 126

instance : DecidablePred IsVisible :=
  fun _ => inferInstanceAs (Decidable (_ ∧ _))

theorem IsVisible.isAscii (h : IsVisible c) : Execution.isAscii c = true :=
  decide_eq_true (h.2.trans_lt (by decide))

theorem isVisible_of_isDigit (h : c.isDigit = true) : IsVisible c := by
  obtain ⟨hlow, hhigh⟩ := Char.isDigit_iff_toNat.1 h
  have hzero : '0'.toNat = 48 := rfl
  have hnine : '9'.toNat = 57 := rfl
  exact ⟨by omega, by omega⟩

theorem isVisible_of_hexValue? {d : Nat} (h : Json.hexValue? c = some d) : IsVisible c := by
  unfold Json.hexValue? at h
  split_ifs at h with hdigit hlower hupper
  · exact isVisible_of_isDigit hdigit
  · rw [Bool.and_eq_true, decide_eq_true_eq, decide_eq_true_eq] at hlower
    have hlow : 97 ≤ c.toNat := hlower.1
    have hhigh : c.toNat ≤ 102 := hlower.2
    exact ⟨by omega, by omega⟩
  · rw [Bool.and_eq_true, decide_eq_true_eq, decide_eq_true_eq] at hupper
    have hlow : 65 ≤ c.toNat := hupper.1
    have hhigh : c.toNat ≤ 70 := hupper.2
    exact ⟨by omega, by omega⟩

theorem isVisible_of_mem_sign {sign : List Char} (hsign : sign ∈ signs) (hc : c ∈ sign) :
    IsVisible c := by
  simp only [signs, List.mem_cons, List.not_mem_nil, or_false] at hsign
  rcases hsign with rfl | rfl | rfl
  · cases hc
  all_goals
    rw [List.mem_singleton.1 hc]
    decide

theorem BasedInteger.isVisible (h : BasedInteger cs n) (hc : c ∈ cs) : IsVisible c := by
  obtain ⟨hb, -, hdigits⟩ := h
  have hbases : ∀ p ∈ bases, IsVisible p.1 := by decide
  have hvisible :=
    ((List.forall₂_and_left _ _).1 (hdigits.imp fun _ _ hd => ⟨isVisible_of_hexValue? hd.1, hd⟩)).1
  rw [List.mem_cons, List.mem_cons] at hc
  rcases hc with rfl | rfl | hc
  exacts [by decide, hbases _ hb, hvisible c hc]

section Characters
variable {digit : Char → Bool}

theorem ExponentPart.isVisible (h : ExponentPart digit cs) (hc : c ∈ cs) :
    digit c = true ∨ IsVisible c := by
  cases h with
  | none => cases hc
  | some he hsign h =>
    have hmarks : ∀ e ∈ exponentMarks, IsVisible e := List.all_iff_forall_prop.1 (by decide)
    rw [List.cons_append, List.mem_cons, List.mem_append] at hc
    rcases hc with rfl | hc | hc
    exacts [.inr (hmarks _ he), .inr (isVisible_of_mem_sign hsign hc), .inl (h.all c hc)]

theorem UnsignedDecimal.isVisible (h : UnsignedDecimal digit cs) (hc : c ∈ cs) :
    digit c = true ∨ IsVisible c := by
  have hpoint : IsVisible '.' := by decide
  cases h with
  | whole h he =>
    rcases List.mem_append.1 hc with hc | hc
    exacts [.inl (h.all c hc), he.isVisible hc]
  | point hbefore hafter he =>
    rw [List.mem_append, List.mem_append, List.mem_cons] at hc
    rcases hc with (hc | rfl | hc) | hc
    exacts [.inl (hbefore.all c hc), .inr hpoint, .inl (hafter c hc), he.isVisible hc]
  | fraction hafter he =>
    rw [List.cons_append, List.mem_cons, List.mem_append] at hc
    rcases hc with rfl | hc | hc
    exacts [.inr hpoint, .inl (hafter.all c hc), he.isVisible hc]

theorem NumericLiteral.isVisible (h : NumericLiteral digit cs) (hc : c ∈ cs) :
    digit c = true ∨ IsVisible c := by
  cases h with
  | decimal hsign h =>
    rcases List.mem_append.1 hc with hc | hc
    exacts [.inr (isVisible_of_mem_sign hsign hc), h.isVisible hc]
  | infinity hsign =>
    have hword : ∀ c ∈ "Infinity".toList, IsVisible c := List.all_iff_forall_prop.1 (by decide)
    rcases List.mem_append.1 hc with hc | hc
    exacts [.inr (isVisible_of_mem_sign hsign hc), .inr (hword c hc)]
  | based h => exact .inr (h.isVisible hc)

/-! ### Other digits -/

variable {other : Char → Bool}

theorem Digits.imp (h : Digits digit cs) (himp : ∀ c ∈ cs, digit c = true → other c = true) :
    Digits other cs :=
  ⟨h.some, fun c hc => himp c hc (h.all c hc)⟩

theorem ExponentPart.imp (h : ExponentPart digit cs)
    (himp : ∀ c ∈ cs, digit c = true → other c = true) : ExponentPart other cs := by
  cases h with
  | none => exact .none
  | some he hsign h => exact .some he hsign (h.imp fun c hc => himp c (by simp [hc]))

theorem UnsignedDecimal.imp (h : UnsignedDecimal digit cs)
    (himp : ∀ c ∈ cs, digit c = true → other c = true) : UnsignedDecimal other cs := by
  cases h with
  | whole h he =>
    exact .whole (h.imp fun c hc => himp c (by simp [hc])) (he.imp fun c hc =>
      himp c (by simp [hc]))
  | point hbefore hafter he =>
    exact .point (hbefore.imp fun c hc => himp c (by simp [hc])) (fun c hc =>
      himp c (by simp [hc]) (hafter c hc)) (he.imp fun c hc => himp c (by simp [hc]))
  | fraction hafter he =>
    exact .fraction (hafter.imp fun c hc => himp c (by simp [hc])) (he.imp fun c hc =>
      himp c (by simp [hc]))

/-- A number stays one if its digits are digits for another notion too. -/
theorem NumericLiteral.imp (h : NumericLiteral digit cs)
    (himp : ∀ c ∈ cs, digit c = true → other c = true) : NumericLiteral other cs := by
  cases h with
  | decimal hsign h => exact .decimal hsign (h.imp fun c hc => himp c (by simp [hc]))
  | infinity hsign => exact .infinity hsign
  | based h => exact .based h

end Characters

/-! ### The running program -/

theorem exists_zero_of_isDigit (h : isDigit c = true) :
    ∃ start ∈ Text.zeros, start ≤ c.toNat ∧ c.toNat < start + 10 := by
  rw [isDigit, Text.digitValue?, Option.isSome_map] at h
  obtain ⟨start, hstart⟩ := Option.isSome_iff_exists.1 h
  have hrange := List.find?_some hstart
  rw [Bool.and_eq_true, decide_eq_true_eq, decide_eq_true_eq] at hrange
  exact ⟨start, List.mem_of_find?_eq_some hstart, hrange⟩

theorem isDigit_of_isAscii (hascii : Execution.isAscii c = true) (h : isDigit c = true) :
    c.isDigit = true := by
  obtain ⟨start, hstart, hlow, hhigh⟩ := exists_zero_of_isDigit h
  have hfirst : ∀ start ∈ Text.zeros, start < 128 → start = 48 := by decide
  have heq := hfirst start hstart (hlow.trans_lt (of_decide_eq_true hascii))
  exact Char.isDigit_iff_toNat.2 ⟨show 48 ≤ c.toNat by omega, show c.toNat ≤ 57 by omega⟩

theorem isNumeric_iff_of_isAscii {s : String}
    (h : (Execution.trim s.toList).all Execution.isAscii = true) :
    IsNumeric s ↔ NumericLiteral isDigit (Execution.trim s.toList) := by
  rw [List.all_eq_true] at h
  exact ⟨fun hliteral => hliteral.imp fun _ _ => Text.isDigit_ascii,
    fun hliteral => hliteral.imp fun c hc => isDigit_of_isAscii (h c hc)⟩

theorem IsNumeric.isVisible {s : String} (h : IsNumeric s) (hc : c ∈ Execution.trim s.toList) :
    IsVisible c :=
  (NumericLiteral.isVisible h hc).elim isVisible_of_isDigit id

theorem ofUnits_ne_nan (negative : Bool) (num den : Nat) :
    Binary64.ofUnits negative num den ≠ .nan := by
  rw [Binary64.ofUnits]
  split_ifs <;> exact Binary64.noConfusion

theorem ofDecimal_ne_nan (negative : Bool) (digits : Nat) (e : Int) :
    Binary64.ofDecimal negative digits e ≠ .nan := by
  rw [Binary64.ofDecimal]
  split_ifs
  exacts [Binary64.noConfusion, Binary64.noConfusion, ofUnits_ne_nan _ _ _, ofUnits_ne_nan _ _ _]

theorem decimal?_ne_nan {x : Binary64} (h : decimal? cs = some x) : x ≠ .nan := by
  unfold decimal? unsignedDecimal? at h
  dsimp only at h
  split_ifs at h
  obtain ⟨e, -, rfl⟩ := Option.map_eq_some_iff.1 h
  exact ofDecimal_ne_nan _ _ _

theorem ofDouble_ne_nan {x : Binary64} (h : x ≠ .nan) : Execution.Number.ofDouble x ≠ .nan := by
  cases x with
  | nan => exact absurd rfl h
  | _ => exact Execution.Number.noConfusion

theorem isNumeric_iff_ofText (s : String) :
    IsNumeric s ↔ Execution.trim s.toList ≠ [] ∧ Execution.Number.ofText s ≠ .nan := by
  by_cases hascii : (Execution.trim s.toList).all Execution.isAscii = true
  · rw [isNumeric_iff_of_isAscii hascii, numericLiteral_iff, Execution.Number.ofText]
    generalize Execution.trim s.toList = cs at hascii ⊢
    by_cases hnil : cs = []
    · subst hnil
      have hdecimal : decimal? [] = none := rfl
      have hbased : based? [] = none := rfl
      simp [hdecimal, hbased]
    rw [and_iff_right hnil, if_neg (by simpa using hnil), if_neg (by simpa using hascii)]
    cases hdecimal : decimal? cs with
    | some x => exact iff_of_true (.inl ⟨x, rfl⟩) (ofDouble_ne_nan (decimal?_ne_nan hdecimal))
    | none =>
      cases based? cs with
      | some n => exact iff_of_true (.inr (.inl ⟨n, rfl⟩)) (ofDouble_ne_nan (ofUnits_ne_nan _ _ _))
      | none =>
        dsimp only
        split_ifs with hplus hminus
        · exact iff_of_true (.inr (.inr (.inl hplus))) Execution.Number.noConfusion
        · exact iff_of_true (.inr (.inr (.inr hminus))) Execution.Number.noConfusion
        · refine iff_of_false ?_ (not_not.2 rfl)
          rintro (⟨_, ⟨⟩⟩ | ⟨_, ⟨⟩⟩ | hword | hword)
          exacts [hplus hword, hminus hword]
  · refine iff_of_false (fun h => hascii (List.all_eq_true.2 fun _ hc => (h.isVisible hc).isAscii))
      ?_
    rintro ⟨hne, hnumber⟩
    rw [Execution.Number.ofText, if_neg (by simpa using hne),
      if_pos (by simpa using hascii)] at hnumber
    exact hnumber rfl

/-! ### Where the two grammars part -/

/-- The characters that only one side takes for blanks: the information separators and the next-line
character, which only the reader of literals trims, and the byte order mark, which only the running
program trims. -/
def disputedBlanks : List Nat :=
  [0x1C, 0x1D, 0x1E, 0x1F, 0x85, 0xFEFF]

theorem isBlank_eq_iff : Text.isBlank c = Execution.isBlank c ↔ c.toNat ∉ disputedBlanks := by
  rw [Bool.eq_iff_iff]
  simp only [Text.isBlank, Execution.isBlank, Execution.blanks, disputedBlanks,
    List.contains_iff_mem, List.mem_cons,
    List.not_mem_nil, or_false, Bool.or_eq_true, Bool.and_eq_true, decide_eq_true_eq, beq_iff_eq]
  omega

/-- Nothing in a text is disputed: it has no disputed blanks and no digits of other scripts, and it
is no integer that is too large. -/
structure IsClean (s : String) : Prop where
  blanks : ∀ c ∈ s.toList, c.toNat ∉ disputedBlanks
  digits : ∀ c ∈ s.toList, isDigit c = true → c.isDigit = true
  small : ¬ IsHuge s

theorem not_isBlank_of_isVisible (h : IsVisible c) :
    Text.isBlank c = false ∧ Execution.isBlank c = false := by
  obtain ⟨hlow, hhigh⟩ := h
  have hblank : Text.isBlank c = false := by
    simp only [Text.isBlank, Bool.or_eq_false_iff, Bool.and_eq_false_iff, decide_eq_false_iff_not,
      beq_eq_false_iff_ne]
    omega
  have hagree : Text.isBlank c = Execution.isBlank c := by
    rw [isBlank_eq_iff]
    simp only [disputedBlanks, List.mem_cons, List.not_mem_nil, or_false]
    omega
  exact ⟨hblank, hagree ▸ hblank⟩

theorem not_isBlank_of_isDigit (h : isDigit c = true) : Execution.isBlank c = false := by
  obtain ⟨start, hstart, hlow, hhigh⟩ := exists_zero_of_isDigit h
  have hapart : ∀ start ∈ Text.zeros, ∀ blank ∈ Execution.blanks, start + 10 ≤ blank ∨
    blank < start := by decide +kernel
  rw [Execution.isBlank, ← Bool.not_eq_true, List.contains_iff_mem]
  intro hblank
  have := hapart start hstart _ hblank
  omega

theorem dropWhile_congr {p q : Char → Bool} (h : ∀ c ∈ cs, p c = q c) :
    cs.dropWhile p = cs.dropWhile q := by
  induction cs with
  | nil => rfl
  | cons c rest ih =>
    rw [List.forall_mem_cons] at h
    rw [List.dropWhile_cons, List.dropWhile_cons, h.1, ih h.2]

theorem mem_dropWhile_or {p : Char → Bool} (h : c ∈ cs) : c ∈ cs.dropWhile p ∨ p c = true := by
  rw [← List.takeWhile_append_dropWhile (p := p) (l := cs), List.mem_append] at h
  exact h.symm.imp_right List.mem_takeWhile_imp

theorem mem_trim_or (h : c ∈ cs) :
    (c ∈ Text.trim cs ∨ Text.isBlank c = true) ∧
    (c ∈ Execution.trim cs ∨ Execution.isBlank c = true) := by
  have htrim (p : Char → Bool) : c ∈ ((cs.dropWhile p).reverse.dropWhile p).reverse ∨
      p c = true := by
    rcases mem_dropWhile_or (p := p) h with h | h
    · rw [List.mem_reverse]
      exact mem_dropWhile_or (List.mem_reverse.2 h)
    · exact .inr h
  exact ⟨htrim _, htrim _⟩

theorem IsClean.trim_eq {s : String} (h : IsClean s) :
    Text.trim s.toList = Execution.trim s.toList := by
  have hagree : ∀ c ∈ s.toList, Text.isBlank c = Execution.isBlank c := fun c hc =>
    isBlank_eq_iff.2 (h.blanks c hc)
  have hstart := dropWhile_congr hagree
  unfold Text.trim Text.trimEnd Text.trimStart Execution.trim
  rw [hstart, dropWhile_congr fun c hc =>
    hagree c ((List.dropWhile_sublist _).subset (List.mem_reverse.1 hc))]

theorem numericLiteral_iff_of_isClean {s : String} (h : IsClean s) :
    NumericLiteral isDigit (Text.trim s.toList) ↔ IsNumeric s := by
  rw [IsNumeric, ← h.trim_eq]
  exact ⟨fun hliteral => hliteral.imp fun c hc => h.digits c (Text.mem_of_mem_trim hc),
    fun hliteral => hliteral.imp fun _ _ => Text.isDigit_ascii⟩

/-- Both grammars together leave no room for disputed characters. -/
theorem not_disputed {s : String} (hread : NumericLiteral isDigit (Text.trim s.toList))
    (hnumeric : IsNumeric s) (hc : c ∈ s.toList) :
    c.toNat ∉ disputedBlanks ∧ (isDigit c = true → c.isDigit = true) := by
  obtain ⟨hown, hother⟩ := mem_trim_or hc
  rcases hother with hmem | hblank
  · have hvisible := hnumeric.isVisible hmem
    have hclear := not_isBlank_of_isVisible hvisible
    exact ⟨isBlank_eq_iff.1 (hclear.1.trans hclear.2.symm), isDigit_of_isAscii hvisible.isAscii⟩
  · have hnone : isDigit c = false := by
      by_contra hdigit
      rw [not_isBlank_of_isDigit (by simpa using hdigit)] at hblank
      cases hblank
    rcases hown with hmem | hown
    · -- A blank is no part of a number.
      rcases hread.isVisible hmem with hdigit | hvisible
      · rw [hnone] at hdigit
        cases hdigit
      · rw [(not_isBlank_of_isVisible hvisible).2] at hblank
        cases hblank
    · refine ⟨isBlank_eq_iff.1 (hown.trans hblank.symm), fun hdigit => ?_⟩
      rw [hnone] at hdigit
      cases hdigit

/-- The reader of literals takes a text for a number exactly if the grammar does, with the digits of
every script, and it is not huge; it fails exactly on the huge ones. For clean texts it answers as
the running program does, and no other text is a number for both. What is a number for the running
program is what it converts to one, the blank texts apart. -/
theorem number?_text_iff_isNumeric (s : String) :
    ((∃ x, number? (.text s) = .ok (some x)) ↔ NumericLiteral isDigit (Text.trim s.toList) ∧
      ¬ IsHuge s) ∧
    (∀ fault, number? (.text s) = .error fault ↔ fault = .tooLarge ∧ IsHuge s) ∧
    (IsClean s → ((∃ x, number? (.text s) = .ok (some x)) ↔ IsNumeric s)) ∧
    (¬ IsClean s → ¬ ((∃ x, number? (.text s) = .ok (some x)) ∧ IsNumeric s)) ∧
    (IsNumeric s ↔ Execution.trim s.toList ≠ [] ∧ Execution.Number.ofText s ≠ .nan) := by
  obtain ⟨hread, herror⟩ := number?_text_iff s
  refine ⟨hread, herror, fun hclean => ?_, fun hdirty hboth => ?_, isNumeric_iff_ofText s⟩
  · rw [hread, numericLiteral_iff_of_isClean hclean]
    exact and_iff_left hclean.small
  · obtain ⟨hliteral, hsmall⟩ := hread.1 hboth.1
    have hclear : ∀ c ∈ s.toList, c.toNat ∉ disputedBlanks ∧
        (isDigit c = true → c.isDigit = true) :=
      fun _ => not_disputed hliteral hboth.2
    exact hdirty ⟨fun c hc => (hclear c hc).1, fun c hc => (hclear c hc).2, hsmall⟩

theorem isNumeric_paddedDecimal :
    IsClean "\u3000 -1.5e+3\n" ∧ IsNumeric "\u3000 -1.5e+3\n" ∧ ∃ x,
    number? (.text "\u3000 -1.5e+3\n") = .ok (some x) := by
  have hnumeric : IsNumeric "\u3000 -1.5e+3\n" := by
    have hdecimal :
        UnsignedDecimal Char.isDigit (['1'] ++ '.' :: ['5'] ++ ('e' :: ['+'] ++ ['3'])) :=
      .point ⟨by decide, by simp⟩ (by simp) (.some (by decide) (by decide) ⟨by decide, by simp⟩)
    exact .decimal (show ['-'] ∈ signs by decide) hdecimal
  have hclean : IsClean "\u3000 -1.5e+3\n" := by
    refine ⟨List.all_iff_forall_prop.1 (by decide), List.all_iff_forall_prop.1 (by decide), ?_⟩
    rintro ⟨n, ⟨-, -, -⟩, -⟩
  exact ⟨hclean, hnumeric, ((number?_text_iff_isNumeric _).2.2.1 hclean).2 hnumeric⟩

/-- A digit of another script is read as a number, and the running program takes it for none. -/
theorem number?_arabicThree : number? (.text "٣") = .ok (some (.ofNat 3)) ∧ ¬ IsNumeric "٣" := by
  refine ⟨by decide +kernel, fun h => ?_⟩
  exact absurd (h.isVisible (show '٣' ∈ Execution.trim "٣".toList by decide)) (by decide)

end ScratchExport.Literal
