import Mathlib.Data.Bool.AllAny
import Mathlib.Data.Nat.Digits.Defs
import Mathlib.Algebra.Order.Field.Basic
import Mathlib.Tactic.FieldSimp
import ScratchExport.Proofs.Integers

/-!
# Integers as literals

What integer a literal stands for, said without the reader of numbers: `Spells` gives the grammar of
numerals with their exact value, as a rational where there is a point or an exponent, and `Denotes`
adds the literals that are numbers already. `number?_of_denotes` is that reading such a literal
gives the integer, not something near it.
-/

namespace ScratchExport.Literal
open Binary64 (one)
open Text (isDigit digitsValue)

/-! ### Numerals -/

/-- A sign, or none, in front of something. -/
inductive Signed : List Char → Bool → List Char → Prop
  | plain (cs : List Char) : Signed cs false cs
  | plus (cs : List Char) : Signed ('+' :: cs) false cs
  | minus (cs : List Char) : Signed ('-' :: cs) true cs

/-- Digits with a point at any place, or without a point: what stands in front of it and
behind it. -/
inductive Mantissa : List Char → List Char → List Char → Prop
  | whole {digits : List Char} (hne : digits ≠ []) (h : ∀ c ∈ digits, isDigit c = true) :
      Mantissa digits digits []
  | point {before after : List Char} (hne : before ++ after ≠ [])
      (hbefore : ∀ c ∈ before, isDigit c = true)
      (hafter : ∀ c ∈ after, isDigit c = true) : Mantissa (before ++ '.' :: after) before after

/-- The exponent behind a mantissa, or nothing. -/
inductive Exponent : List Char → Int → Prop
  | none : Exponent [] 0
  | some {e : Char} {cs digits : List Char} {negative : Bool} (he : e = 'e' ∨ e = 'E')
      (hs : Signed cs negative digits) (hne : digits ≠ []) (h : ∀ c ∈ digits, isDigit c = true) :
      Exponent (e :: cs) (if negative then -(digitsValue digits : Int) else digitsValue digits)

/-- The marks of the bases other than ten. -/
def bases : List (Char × Nat) :=
  [('x', 16), ('X', 16), ('o', 8), ('O', 8), ('b', 2), ('B', 2)]

/-- A text is a numeral for an integer, with blanks around it or not. -/
inductive Spells (s : String) : Int → Prop
  | decimal {negative : Bool} {mantissa before after rest : List Char} {e : Int} {n : Nat}
      (hs : Signed (Text.trim s.toList) negative (mantissa ++ rest))
      (hm : Mantissa mantissa before after)
      (he : Exponent rest e) (hn : (digitsValue (before ++ after) : ℚ) *
        10 ^ (e - after.length) = n) :
      Spells s (if negative then -(n : Int) else n)
  | based {b : Char} {base : Nat} {cs : List Char} {digits : List Nat}
      (hs : Text.trim s.toList = '0' :: b :: cs) (hb : (b, base) ∈ bases) (hne : cs ≠ [])
      (hd : List.Forall₂ (fun c d => Json.hexValue? c = some d ∧ d < base) cs digits) :
      Spells s (Nat.ofDigits base digits.reverse : Nat)

/-- A literal stands for an integer. -/
inductive Denotes : Value → Int → Prop
  | int (n : Int) : Denotes (.int n) n
  | float {negative : Bool} {units : Nat} {n : Int} (h : Binary64.signed negative units = n * one) :
      Denotes (.float (.finite negative units)) n
  | text {s : String} {n : Int} (h : Spells s n) : Denotes (.text s) n
  /-- A numeral that is read as the integer nearest to it. -/
  | nearest {s : String} {x : Binary64} {n : Int} (h : ofText s = .ok (some x))
      (hx : x.eqInt n = true) : Denotes (.text s) n

/-! ### Decimals -/

theorem takeWhile_digits {digits rest : List Char} (h : ∀ c ∈ digits, isDigit c = true)
    (hrest : ∀ c ∈ rest.head?, isDigit c = false) :
    (digits ++ rest).takeWhile isDigit = digits ∧ (digits ++ rest).dropWhile isDigit = rest := by
  rw [List.takeWhile_append_of_pos h, List.dropWhile_append_of_pos h]
  cases rest with
  | nil => simp
  | cons c rest => simp [hrest c rfl]

theorem splitSign_of_signed {cs rest : List Char} {negative : Bool} (h : Signed cs negative rest)
    (hrest : ∀ c ∈ rest.head?, c ≠ '-' ∧ c ≠ '+') : splitSign cs = (negative, rest) := by
  cases h with
  | plus => rfl
  | minus => rfl
  | plain =>
    unfold splitSign
    split
    · exact absurd rfl (hrest '-' rfl).1
    · exact absurd rfl (hrest '+' rfl).2
    · rfl

theorem splitFraction_of_head {cs : List Char} (h : ∀ c ∈ cs.head?, c ≠ '.') :
    splitFraction cs = ([], cs) := by
  unfold splitFraction
  split
  · exact absurd rfl (h '.' rfl)
  · rfl

/-- A digit is none of the marks of a decimal. -/
theorem ne_mark_of_isDigit {c : Char} (h : isDigit c = true) : c ≠ '-' ∧ c ≠ '+' ∧ c ≠ '.' := by
  have hmarks : ∀ m ∈ ['-', '+', '.'], isDigit m = false := List.all_iff_forall_prop.1 (by decide)
  refine ⟨?_, ?_, ?_⟩ <;> rintro rfl <;> simp [hmarks] at h

theorem Exponent.head {rest : List Char} {e : Int} (h : Exponent rest e) :
    ∀ c ∈ rest.head?, isDigit c = false ∧ c ≠ '.' := by
  have hmarks : ∀ m ∈ ['e', 'E'], isDigit m = false ∧ m ≠ '.' :=
    List.all_iff_forall_prop.1 (by decide)
  cases h with
  | none => simp
  | some he _ _ _ =>
    intro c hc
    cases hc
    exact hmarks _ (by simpa using he)

theorem exponent?_of_exponent {rest : List Char} {e : Int} (h : Exponent rest e) :
    exponent? rest = some e := by
  cases h with
  | none => rfl
  | @some e cs digits negative he hs hne hd =>
    have hsign : splitSign cs = (negative, digits) := splitSign_of_signed hs fun c hc =>
      have := ne_mark_of_isDigit (hd c (List.mem_of_mem_head? hc))
      ⟨this.1, this.2.1⟩
    have hdigits : ((e == 'e' || e == 'E') && !digits.isEmpty && digits.all isDigit) = true := by
      simpa [he, hne] using hd
    rw [exponent?, hsign]
    exact if_pos hdigits

theorem unsignedDecimal?_of_mantissa {mantissa before after rest : List Char} {e : Int}
    (negative : Bool) (hm : Mantissa mantissa before after) (he : Exponent rest e) :
    unsignedDecimal? negative (mantissa ++ rest) = some (.ofDigits negative before after e) := by
  have hexponent := exponent?_of_exponent he
  unfold unsignedDecimal?
  cases hm with
  | whole hne h =>
    obtain ⟨htake, hdrop⟩ := takeWhile_digits h fun c hc => (he.head c hc).1
    rw [htake, hdrop, splitFraction_of_head fun c hc => (he.head c hc).2]
    simp [hne, hexponent]
  | point hne hbefore hafter =>
    have hpoint : ∀ c ∈ ('.' :: (after ++ rest)).head?, isDigit c = false := by
      intro c hc; cases hc; decide
    obtain ⟨htake, hdrop⟩ := takeWhile_digits hbefore hpoint
    obtain ⟨htake', hdrop'⟩ := takeWhile_digits hafter fun c hc => (he.head c hc).1
    rw [List.append_assoc, List.cons_append, htake, hdrop, splitFraction, htake', hdrop']
    have hsome : (before.isEmpty && after.isEmpty) = false := by simpa using hne
    simp [hsome, hexponent]

theorem Mantissa.head {mantissa before after : List Char} (h : Mantissa mantissa before after)
    (rest : List Char) : ∀ c ∈ (mantissa ++ rest).head?, c ≠ '-' ∧ c ≠ '+' := by
  have hdigit {c : Char} (hc : isDigit c = true) : c ≠ '-' ∧ c ≠ '+' :=
    ⟨(ne_mark_of_isDigit hc).1, (ne_mark_of_isDigit hc).2.1⟩
  cases h with
  | whole hne h =>
    cases mantissa with
    | nil => exact absurd rfl hne
    | cons d ds => intro c hc; cases hc; exact hdigit (h d (List.mem_cons_self ..))
  | point _ hbefore _ =>
    cases before with
    | nil => intro c hc; cases hc; decide
    | cons d ds => intro c hc; cases hc; exact hdigit (hbefore d (List.mem_cons_self ..))

theorem decimal?_of_signed {cs mantissa before after rest : List Char} {negative : Bool} {e : Int}
    (hs : Signed cs negative (mantissa ++ rest)) (hm : Mantissa mantissa before after)
    (he : Exponent rest e) : decimal? cs = some (.ofDigits negative before after e) := by
  rw [decimal?, splitSign_of_signed hs (hm.head rest)]
  exact unsignedDecimal?_of_mantissa negative hm he

theorem lt_pow_length_decimal (n : Nat) : n < 10 ^ (Text.decimal n).length := by
  induction n using Nat.strongRecOn with
  | ind n ih =>
    rw [Text.decimal, Nat.toDigits_eq_if (by decide)]
    split_ifs with hn
    · simpa using hn
    · have := ih (n / 10) (by omega)
      rw [Text.decimal] at this
      rw [List.length_append, List.length_singleton, Nat.pow_succ]
      omega

theorem length_decimal_le {n k : Nat} (hk : 0 < k) (h : n < 10 ^ k) : (Text.decimal n).length ≤ k :=
  Nat.toDigits_length 10 n k hk h

/-- The digits and the exponent of an integer: the exponent is not negative, or the digits that it
takes away are zeros. -/
theorem decimal_integer_cases {digits n : Nat} {e : Int} (h : (digits : ℚ) * 10 ^ e = n) :
    ∃ k : Nat, (e = k ∧ digits * 10 ^ k = n) ∨ (e = -(k : Int) ∧ 0 < k ∧ digits = n * 10 ^ k) := by
  by_cases he : e < 0
  · obtain ⟨k, rfl⟩ : ∃ k : Nat, e = -(k : Int) := ⟨e.natAbs, by omega⟩
    refine ⟨k, .inr ⟨rfl, by omega, ?_⟩⟩
    have hpow : (10 : ℚ) ^ k ≠ 0 := pow_ne_zero k (by norm_num)
    rw [zpow_neg, zpow_natCast, ← div_eq_mul_inv, div_eq_iff hpow] at h
    exact_mod_cast h
  · obtain ⟨k, rfl⟩ : ∃ k : Nat, e = k := ⟨e.natAbs, by omega⟩
    refine ⟨k, .inl ⟨rfl, ?_⟩⟩
    rw [zpow_natCast] at h
    exact_mod_cast h

theorem ofDecimal_integer (negative : Bool) {digits n : Nat} {e : Int} (hn : n < 2 ^ 53)
    (h : (digits : ℚ) * 10 ^ e = n) :
    Binary64.ofDecimal negative digits e = .finite negative (n * one) := by
  have hsmall : n < 10 ^ 16 := hn.trans (by decide)
  unfold Binary64.ofDecimal
  dsimp only
  by_cases hzero : digits = 0
  · have : n = 0 := by
      rw [hzero, Nat.cast_zero, zero_mul] at h
      exact_mod_cast h.symm
    simp [hzero, this]
  obtain ⟨k, ⟨rfl, hdigits⟩ | ⟨rfl, hk, hdigits⟩⟩ := decimal_integer_cases h
  · have hpow : 10 ^ k ≤ n := hdigits ▸ Nat.le_mul_of_pos_left _ (Nat.pos_of_ne_zero hzero)
    have hle : digits ≤ n := hdigits ▸ Nat.le_mul_of_pos_right _ (Nat.pow_pos (by decide))
    have hk : k < 16 := (Nat.pow_lt_pow_iff_right (by decide)).1 (hpow.trans_lt hsmall)
    have hlength := length_decimal_le (by decide) (hle.trans_lt hsmall)
    have hlow : ¬ (k : Int) + (Text.decimal digits).length < -Binary64.exponentBound := by
      unfold Binary64.exponentBound; omega
    have hhigh : ¬ Binary64.exponentBound < (k : Int) + (Text.decimal digits).length := by
      unfold Binary64.exponentBound; omega
    rw [if_neg (by simp [hzero, hlow]), if_neg hhigh, if_neg (by omega), Int.natAbs_natCast,
      Nat.pow_eq, hdigits]
    simpa using Binary64.ofRatio_integer negative hn Nat.one_pos
  · have hpos : 0 < n := Nat.pos_of_ne_zero fun h0 => hzero (by rw [hdigits, h0, Nat.zero_mul])
    have hpow : 10 ^ k ≤ digits := hdigits ▸ Nat.le_mul_of_pos_left _ hpos
    have hmore : k < (Text.decimal digits).length :=
      (Nat.pow_lt_pow_iff_right (by decide)).1 (hpow.trans_lt (lt_pow_length_decimal digits))
    have hlength : (Text.decimal digits).length ≤ 16 + k := by
      refine length_decimal_le (by omega) ?_
      rw [hdigits, Nat.pow_add]
      exact Nat.mul_lt_mul_of_pos_right hsmall (Nat.pow_pos (by decide))
    have hlow : ¬ -(k : Int) + (Text.decimal digits).length < -Binary64.exponentBound := by
      unfold Binary64.exponentBound; omega
    have hhigh : ¬ Binary64.exponentBound < -(k : Int) + (Text.decimal digits).length := by
      unfold Binary64.exponentBound; omega
    rw [if_neg (by simp [hzero, hlow]), if_neg hhigh, if_pos (by omega), Int.natAbs_neg,
      Int.natAbs_natCast, Nat.pow_eq, hdigits]
    exact Binary64.ofRatio_integer negative hn (Nat.pow_pos (by decide))

/-! ### Other bases -/

theorem decimal?_based {b : Char} {base : Nat} (hb : (b, base) ∈ bases) (cs : List Char) :
    decimal? ('0' :: b :: cs) = none := by
  have hmarks : ∀ p ∈ bases, isDigit p.1 = false ∧ p.1 ≠ '.' ∧
    (p.1 == 'e' || p.1 == 'E') = false := by decide
  obtain ⟨hdigit, hpoint, he⟩ := hmarks _ hb
  have hzero : isDigit '0' = true := by decide
  have hsplit : splitFraction (b :: cs) = ([], b :: cs) := splitFraction_of_head fun c hc => by
    cases hc; exact hpoint
  show unsignedDecimal? false ('0' :: b :: cs) = none
  unfold unsignedDecimal?
  rw [List.dropWhile_cons_of_pos hzero, List.dropWhile_cons_of_neg (by simp [hdigit]), hsplit]
  simp [exponent?, he]

theorem basedDigits?_of_forall₂ {base : Nat} {cs : List Char} {digits : List Nat} (hne : cs ≠ [])
    (h : List.Forall₂ (fun c d => Json.hexValue? c = some d ∧ d < base) cs digits) :
    basedDigits? base cs = some (Nat.ofDigits base digits.reverse) := by
  rw [basedDigits?, if_neg (by simpa using hne)]
  -- The digits that come first weigh most, so the number is built up from the left.
  have hfold (n : Nat) :
      cs.foldlM (fun n c => ((Json.hexValue? c).filter (· < base)).map (n * base + ·)) n =
      some (n * base ^ digits.length + Nat.ofDigits base digits.reverse) := by
    clear hne
    induction h generalizing n with
    | nil => simp
    | @cons c d cs ds hc _ ih =>
      rw [List.foldlM_cons, hc.1, Option.filter_some_pos (by simpa using hc.2)]
      simp only [Option.map_some, Option.bind_eq_bind, Option.bind_some, ih, List.length_cons,
        List.reverse_cons, Nat.ofDigits_append, Nat.ofDigits_singleton]
      rw [List.length_reverse, Nat.pow_succ, Option.some.injEq]
      ring
  rw [hfold, Nat.zero_mul, Nat.zero_add]

theorem based?_of_mem {b : Char} {base : Nat} {cs : List Char} {digits : List Nat}
    (hb : (b, base) ∈ bases) (hne : cs ≠ [])
    (h : List.Forall₂ (fun c d => Json.hexValue? c = some d ∧ d < base) cs digits) :
    based? ('0' :: b :: cs) = some (Nat.ofDigits base digits.reverse) := by
  have hbase : baseOf? b = some base := by
    have : ∀ p ∈ bases, baseOf? p.1 = some p.2 := by decide
    exact this _ hb
  rw [based?, hbase]
  exact basedDigits?_of_forall₂ hne h

/-! ### Literals -/

theorem ofText_of_spells {s : String} {n : Int} (h : Spells s n) (hn : n.natAbs < 2 ^ 53) :
    ∃ x, ofText s = .ok (some x) ∧ x.eqInt n = true := by
  cases h with
  | @decimal negative mantissa before after rest e n hs hm he hvalue =>
    have hn : n < 2 ^ 53 := by cases negative <;> simpa using hn
    refine ⟨.finite negative (n * one), ?_, Binary64.eqInt_iff.2 ⟨_, _, rfl, ?_⟩⟩
    · rw [ofText, decimal?_of_signed hs hm he, Binary64.ofDigits,
        ofDecimal_integer negative hn hvalue]
    · cases negative <;> simp [Binary64.signed]
  | @based b base cs digits hs hb hne hd =>
    obtain ⟨x, hx, heq⟩ := Value.double_integer hn
    refine ⟨x, ?_, heq⟩
    rw [ofText, hs, decimal?_based hb, based?_of_mem hb hne hd]
    dsimp only
    rw [hx]
    rfl

/-- A literal of an integer is read as that integer. -/
theorem number?_of_denotes {v : Value} {n : Int} (h : Denotes v n) (hn : n.natAbs < 2 ^ 53) :
    ∃ x, number? v = .ok (some x) ∧ x.eqInt n = true := by
  cases h with
  | int =>
    obtain ⟨x, hx, heq⟩ := Value.double_integer hn
    exact ⟨x, by rw [number?, hx]; rfl, heq⟩
  | @float negative units _ h =>
    exact ⟨.finite negative units, rfl, Binary64.eqInt_iff.2 ⟨_, _, rfl, h⟩⟩
  | text h => exact ofText_of_spells h hn
  | nearest h hx => exact ⟨_, h, hx⟩

end ScratchExport.Literal
