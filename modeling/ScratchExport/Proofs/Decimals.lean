import Mathlib.Tactic.Linarith
import ScratchExport.Proofs.Numerals
import ScratchExport.Proofs.Spelling

/-!
# Doubles read back from their decimals

A double is a count of units with 53 significant bits, so between two neighbours there is a step of
2⁻⁵² of the leading bit, and everything closer to a double than half a step rounds to it
(`roundUnits_of_near`). Below a power of two the neighbour is only half as far away, which is why
that case asks for a quarter. Seventeen digits come that close, since 10¹⁶ exceeds 2⁵³, so the
search for the shortest decimal ends with one that reads back (`ofDecimal_shortest`). From there on
it is layout: the zeros that are trimmed move into the exponent, and the text is a mantissa with an
exponent again.
-/

namespace ScratchExport.Binary64

/-- A number that double precision has: at most 53 significant bits, below the limit. -/
def IsDouble : Binary64 → Prop
  | .finite _ units => (∃ m k, m < 2 ^ 53 ∧ units = m * 2 ^ k) ∧ units < limit
  | _ => True

/-- The distance of two neighbours among the doubles with the leading bit of `units`. -/
def step (units : Nat) : Nat := 2 ^ (units.log2 - 52)

variable {num den units : Nat}

theorem step_pos (units : Nat) : 0 < step units :=
  Nat.two_pow_pos _

theorem roundUnits_eq (num den : Nat) :
    roundUnits num den = roundDiv num (den * step (num / den)) * step (num / den) :=
  rfl

theorem step_dvd_two_pow (units : Nat) : step units ∣ 2 ^ units.log2 :=
  pow_dvd_pow 2 (Nat.sub_le _ _)

theorem lt_step (units : Nat) : units < 2 ^ 53 * step units := by
  calc units < 2 ^ (units.log2 + 1) := Nat.lt_log2_self
    _ ≤ 2 ^ (53 + (units.log2 - 52)) := Nat.pow_le_pow_right Nat.two_pos (by omega)
    _ = 2 ^ 53 * step units := Nat.pow_add ..

theorem two_pow_log2_le (units : Nat) : 2 ^ units.log2 ≤ 2 ^ 52 * step units := by
  rw [step, ← Nat.pow_add]
  exact Nat.pow_le_pow_right Nat.two_pos (by omega)

theorem step_dvd {m k : Nat} (hm : m < 2 ^ 53) (hunits : units = m * 2 ^ k) :
    step units ∣ units := by
  rcases Nat.eq_zero_or_pos units with hzero | hpos
  · rw [hzero]
    exact Nat.dvd_zero _
  have hlt : units < 2 ^ (53 + k) := by
    rw [hunits, Nat.pow_add]
    exact Nat.mul_lt_mul_of_pos_right hm (Nat.two_pow_pos k)
  have hlog : units.log2 < 53 + k := (Nat.log2_lt hpos.ne').2 hlt
  rw [hunits]
  exact Dvd.dvd.mul_left (pow_dvd_pow 2 (by rw [← hunits]; omega)) m

/-! ### Rounding -/

theorem roundDiv_mul_left {c : Nat} (hc : 0 < c) (num den : Nat) :
    roundDiv (c * num) (c * den) = roundDiv num den := by
  have hlt (a b : Nat) : 2 * (c * a) < c * b ↔ 2 * a < b := by
    rw [Nat.mul_left_comm, Nat.mul_lt_mul_left hc]
  have hgt (a b : Nat) : c * b < 2 * (c * a) ↔ b < 2 * a := by
    rw [Nat.mul_left_comm, Nat.mul_lt_mul_left hc]
  unfold roundDiv
  dsimp only
  simp only [Nat.mul_div_mul_left _ _ hc, Nat.mul_mod_mul_left, hlt, hgt]

theorem roundUnits_mul_left {c : Nat} (hc : 0 < c) (num den : Nat) :
    roundUnits (c * num) (c * den) = roundUnits num den := by
  rw [roundUnits_eq, roundUnits_eq, Nat.mul_div_mul_left _ _ hc, Nat.mul_assoc,
    roundDiv_mul_left hc]

theorem roundDiv_of_near {q : Nat} (hlow : 2 * (q * den) < 2 * num + den)
    (hhigh : 2 * num < 2 * (q * den) + den) : roundDiv num den = q := by
  have hsplit := Nat.div_add_mod num den
  have hrest : num % den < den := Nat.mod_lt _ (by omega)
  have hdiv : num / den = q ∨ num / den + 1 = q := by
    have hbelow : num / den < q + 1 := by
      rw [Nat.div_lt_iff_lt_mul (by omega), Nat.add_mul]
      omega
    rcases Nat.lt_or_ge (num / den) q with hlt | hge
    · have habove : q ≤ num / den + 1 := by
        by_contra hfar
        have hmul : den * (num / den + 2) ≤ den * q := Nat.mul_le_mul_left den (by omega)
        rw [Nat.mul_add, Nat.mul_comm den q] at hmul
        omega
      omega
    · omega
  unfold roundDiv
  dsimp only
  rcases hdiv with hq | hq
  · rw [hq, Nat.mul_comm] at hsplit
    rw [if_pos (by omega)]
    exact hq
  · rw [← hq, Nat.add_mul, Nat.mul_comm _ den] at hlow hhigh
    rw [if_neg (by omega), if_pos (by omega)]
    exact hq

theorem roundDiv_mul_of_near {s : Nat} (hs : s ∣ units)
    (hlow : 2 * (units * den) < 2 * num + s * den) (hhigh : 2 * num < 2 * (units * den) + s * den) :
    roundDiv num (den * s) * s = units := by
  obtain ⟨q, rfl⟩ := hs
  have hq : q * (den * s) = s * q * den := by ring
  rw [roundDiv_of_near (by rwa [hq, Nat.mul_comm den]) (by rwa [hq, Nat.mul_comm den]),
    Nat.mul_comm]

/-- Just below a power of two the steps are half as wide, unless they are one unit on both sides. -/
theorem step_below_power (hden : 0 < den) (hleast : units = 2 ^ units.log2)
    (hbelow : num / den < units) (hquarter : 4 * (units * den) < 4 * num + step units * den) :
    step units = 1 ∧ step (num / den) = 1 ∨ step units = 2 * step (num / den) := by
  rcases Nat.lt_or_ge units.log2 53 with hsmall | hlarge
  · refine .inl ⟨by rw [step, Nat.sub_eq_zero_of_le (by omega), Nat.pow_zero], ?_⟩
    have hlog : (num / den).log2 ≤ 52 := by
      rcases Nat.eq_zero_or_pos (num / den) with hzero | hpos
      · rw [hzero, Nat.log2_zero]
        omega
      · have := (Nat.log2_lt hpos.ne').2 (hbelow.trans_eq hleast)
        omega
    rw [step, Nat.sub_eq_zero_of_le hlog, Nat.pow_zero]
  · have hhalf : step units = 2 * 2 ^ (units.log2 - 53) := by
      rw [step, ← Nat.pow_succ', Nat.succ_eq_add_one]
      congr 1
      omega
    have hge : 2 ^ (units.log2 - 1) ≤ num / den := by
      have hdouble : 2 ^ units.log2 = 2 * 2 ^ (units.log2 - 1) := by
        rw [← Nat.pow_succ', Nat.succ_eq_add_one, Nat.sub_add_cancel (by omega)]
      have hunits : units * den = 2 * (2 ^ (units.log2 - 1) * den) := by
        conv_lhs => rw [hleast, hdouble]
        ring
      have hsteps : 2 ^ (units.log2 - 53) * den ≤ 2 ^ (units.log2 - 1) * den :=
        Nat.mul_le_mul_right den (Nat.pow_le_pow_right Nat.two_pos (by omega))
      rw [hhalf, Nat.mul_assoc] at hquarter
      rw [Nat.le_div_iff_mul_le hden]
      omega
    have hlog : (num / den).log2 = units.log2 - 1 := by
      rw [Nat.log2_eq_iff (hge.trans_lt' (Nat.two_pow_pos _)).ne',
        Nat.sub_add_cancel (by omega), ← hleast]
      exact ⟨hge, hbelow⟩
    refine .inr ?_
    rw [hhalf, step, hlog]
    congr 1

/-- What is closer to a double than half a step, or a quarter below a power of two, is rounded to
it. -/
theorem roundUnits_of_near (hden : 0 < den) (hpos : 0 < units) (hstep : step units ∣ units)
    (hlow : 2 * (units * den) < 2 * num + step units * den)
    (hhigh : 2 * num < 2 * (units * den) + step units * den)
    (hpower : units = 2 ^ units.log2 → 4 * (units * den) < 4 * num + step units * den) :
    roundUnits num den = units := by
  have hlead : 2 ^ units.log2 ≤ units := Nat.log2_self_le hpos.ne'
  rw [roundUnits_eq]
  rcases Nat.lt_or_ge (num / den) (2 ^ units.log2) with hbelow | habove
  · have hnum : num < 2 ^ units.log2 * den := (Nat.div_lt_iff_lt_mul hden).1 hbelow
    have hleast : units = 2 ^ units.log2 := by
      by_contra hne
      have hgap := Nat.le_of_dvd (by omega) (Nat.dvd_sub hstep (step_dvd_two_pow units))
      have hmul : (2 ^ units.log2 + step units) * den ≤ units * den :=
        Nat.mul_le_mul_right den (by omega)
      rw [Nat.add_mul] at hmul
      omega
    have hquarter := hpower hleast
    rw [← hleast] at hnum hbelow
    rcases step_below_power hden hleast hbelow hquarter with ⟨hone, hone'⟩ | hhalf
    · rw [hone', ← hone]
      exact roundDiv_mul_of_near hstep hlow hhigh
    · rw [hhalf, Nat.mul_assoc] at hquarter
      exact roundDiv_mul_of_near ((Dvd.intro_left 2 hhalf.symm).trans hstep) (by omega) (by omega)
  · -- Neighbours of the count are a whole step away.
    have hnext : units < 2 ^ (units.log2 + 1) := Nat.lt_log2_self
    have hroom : units + step units ≤ 2 ^ (units.log2 + 1) := by
      have hdvd : step units ∣ 2 ^ (units.log2 + 1) := pow_dvd_pow 2 (by omega)
      have := Nat.le_of_dvd (by omega) (Nat.dvd_sub hdvd hstep)
      omega
    have hquotient : num / den < units + step units := by
      rw [Nat.div_lt_iff_lt_mul hden, Nat.add_mul]
      have := Nat.mul_pos (step_pos units) hden
      omega
    have hlog : (num / den).log2 = units.log2 := by
      rw [Nat.log2_eq_iff (habove.trans_lt' (Nat.two_pow_pos _)).ne']
      exact ⟨habove, hquotient.trans_le hroom⟩
    have heq : step (num / den) = step units := congrArg (fun k => 2 ^ (k - 52)) hlog
    rw [heq]
    exact roundDiv_mul_of_near hstep hlow hhigh

theorem isDouble_ofUnits (negative : Bool) (num den : Nat) :
    IsDouble (ofUnits negative num den) := by
  unfold ofUnits
  dsimp only
  split_ifs with hlimit
  · refine ⟨?_, hlimit⟩
    have hdiv : num / (den * step (num / den)) < 2 ^ 53 := by
      rw [← Nat.div_div_eq_div_mul]
      exact Nat.div_lt_of_lt_mul ((lt_step _).trans_eq (Nat.mul_comm ..))
    have hround := roundDiv_le num (den * step (num / den))
    rw [roundUnits_eq]
    rcases Nat.lt_or_ge (roundDiv num (den * step (num / den))) (2 ^ 53) with hlt | hge
    · exact ⟨_, _, hlt, rfl⟩
    · -- Rounding up reached the next power of two.
      have heq : roundDiv num (den * step (num / den)) = 2 ^ 53 := by omega
      refine ⟨1, 53 + ((num / den).log2 - 52), by decide, ?_⟩
      rw [heq, Nat.one_mul, Nat.pow_add]
      rfl
  · trivial

/-! ### Powers of ten -/

/-- A power of ten as a quotient: its numerator. -/
def tenNum (e : Int) : Nat := if e < 0 then 1 else 10 ^ e.natAbs

/-- A power of ten as a quotient: its denominator. -/
def tenDen (e : Int) : Nat := if e < 0 then 10 ^ e.natAbs else 1

theorem tenDen_pos (e : Int) : 0 < tenDen e := by
  unfold tenDen
  split_ifs
  · exact Nat.pow_pos (by decide)
  · exact Nat.one_pos

theorem ten_zpow (e : Int) : (10 : ℚ) ^ e * tenDen e = tenNum e := by
  unfold tenDen tenNum
  split_ifs with he
  · obtain ⟨k, rfl⟩ : ∃ k : Nat, e = -(k : Int) := ⟨e.natAbs, by omega⟩
    simp
  · obtain ⟨k, rfl⟩ : ∃ k : Nat, e = k := ⟨e.natAbs, by omega⟩
    simp

theorem mul_ten_zpow_le_iff {a b : Nat} {e : Int} :
    (a : ℚ) * 10 ^ e ≤ b ↔ a * tenNum e ≤ b * tenDen e := by
  have hpos : (0 : ℚ) < tenDen e := by exact_mod_cast tenDen_pos e
  rw [← mul_le_mul_iff_of_pos_right hpos, mul_assoc, ten_zpow]
  exact_mod_cast Iff.rfl

theorem lt_mul_ten_zpow_iff {a b : Nat} {e : Int} :
    (b : ℚ) < a * 10 ^ e ↔ b * tenDen e < a * tenNum e := by
  rw [← not_le, mul_ten_zpow_le_iff, not_le]

theorem scaled_eq (units : Nat) (e : Int) :
    scaled units e = (units * tenDen e, one * tenNum e) := by
  unfold scaled tenDen tenNum
  split_ifs <;> simp

/-- A decimal as a quotient, or out of range by the place of its leading digit. -/
theorem ofDecimal_unfold (negative : Bool) (digits : Nat) (e : Int) : ofDecimal negative digits e =
    if digits = 0 ∨ e + (Text.decimal digits).length < -exponentBound then .finite negative 0
    else if exponentBound < e + (Text.decimal digits).length then .infinite negative
    else ofUnits negative (digits * (one * tenNum e)) (tenDen e) := by
  unfold ofDecimal tenNum tenDen ofRatio
  dsimp only
  simp only [Bool.or_eq_true, beq_iff_eq, decide_eq_true_eq]
  split_ifs
  · rfl
  · rfl
  · rw [Nat.mul_one]
    rfl
  · rw [Nat.mul_assoc, Nat.mul_comm (Nat.pow 10 _)]
    rfl

/-- A decimal that is not far out is the double nearest to its quotient. -/
theorem ofDecimal_eq (negative : Bool) {digits : Nat} {e : Int} (hdigits : digits ≠ 0)
    (hlow : -400 ≤ e + (Text.decimal digits).length)
    (hhigh : e + (Text.decimal digits).length ≤ 400) :
    ofDecimal negative digits e = ofUnits negative (digits * (one * tenNum e)) (tenDen e) := by
  rw [ofDecimal_unfold, exponentBound, if_neg (by omega), if_neg (by omega)]

theorem limit_le_of_bits {k n : Nat} (hbits : unitBits = fractionBits + k) (hpow : 2 ^ k ≤ 10 ^ n) :
    limit ≤ one * 10 ^ n := by
  unfold limit one
  rw [hbits]
  exact (Nat.pow_add ..).trans_le (Nat.mul_le_mul_left _ hpow)

theorem limit_le : limit ≤ one * 10 ^ 309 :=
  limit_le_of_bits (k := 1024) (by rw [unitBits, fractionBits]) (by decide +kernel)

theorem one_le_of_bits {k n : Nat} (hbits : fractionBits = k) (hpow : 2 ^ k ≤ 10 ^ n) :
    one ≤ 10 ^ n := by
  unfold one
  rw [hbits]
  exact hpow

theorem exists_one_le_ten_pow : ∃ k < 330, one ≤ 10 ^ k :=
  ⟨329, by decide, one_le_of_bits (k := 1074) (by rw [fractionBits]) (by decide +kernel)⟩

theorem pow_le_of_length_decimal {n k : Nat} (hn : 0 < n) (h : (Text.decimal n).length = k + 1) :
    10 ^ k ≤ n := by
  rcases Nat.eq_zero_or_pos k with rfl | hk
  · exact hn
  · by_contra hlt
    have := Literal.length_decimal_le hk (Nat.lt_of_not_le hlt)
    omega

theorem leadingExponent_of_le (h : one ≤ units) :
    ∃ k : Nat, leadingExponent units = k ∧ one * 10 ^ k ≤ units ∧ units < one * 10 ^ (k + 1) := by
  have hlength : 0 < (Text.decimal (units / one)).length :=
    List.length_pos_iff.2 (Text.decimal_ne_nil _)
  obtain ⟨k, hk⟩ : ∃ k, (Text.decimal (units / one)).length = k + 1 :=
    ⟨_, (Nat.sub_add_cancel hlength).symm⟩
  have hlow := pow_le_of_length_decimal (Nat.div_pos h one_pos) hk
  have hhigh := Literal.lt_pow_length_decimal (units / one)
  rw [Nat.le_div_iff_mul_le one_pos, Nat.mul_comm] at hlow
  rw [hk, Nat.div_lt_iff_lt_mul one_pos, Nat.mul_comm] at hhigh
  refine ⟨k, ?_, hlow, hhigh⟩
  rw [leadingExponent, if_pos h, hk]
  omega

/-- The leading digit of a number below one: the first place at which the number reaches one. -/
theorem leadingExponent_of_lt (hpos : 0 < units) (h : units < one) :
    ∃ k : Nat, leadingExponent units = -((k + 1 : Nat) : Int) ∧ k < 330 ∧
    one ≤ units * 10 ^ (k + 1) ∧
      units * 10 ^ k < one := by
  have hfound : ((List.range 330).find? fun k => one ≤ units * Nat.pow 10 k).isSome = true := by
    rw [List.find?_isSome]
    obtain ⟨k, hk, hone⟩ := exists_one_le_ten_pow
    exact ⟨k, List.mem_range.2 hk, decide_eq_true (hone.trans (Nat.le_mul_of_pos_left _ hpos))⟩
  obtain ⟨k, hk⟩ := Option.isSome_iff_exists.1 hfound
  obtain ⟨hreached, hrange, hbefore⟩ := List.find?_range_eq_some.1 hk
  have hreached : one ≤ units * 10 ^ k := of_decide_eq_true hreached
  have hkpos : k ≠ 0 := by
    rintro rfl
    rw [Nat.pow_zero, Nat.mul_one] at hreached
    omega
  obtain ⟨j, rfl⟩ := Nat.exists_eq_succ_of_ne_zero hkpos
  have hnot : units * 10 ^ j < one := by
    have := hbefore j (Nat.lt_succ_self j)
    rw [Bool.not_eq_true', decide_eq_false_iff_not] at this
    exact Nat.lt_of_not_le this
  have hj := List.mem_range.1 hrange
  refine ⟨j, ?_, by omega, hreached, hnot⟩
  rw [leadingExponent, if_neg (by omega), hk]
  rfl

theorem leadingExponent_spec (hpos : 0 < units) :
    (one : ℚ) * 10 ^ leadingExponent units ≤ units ∧ (units : ℚ) < one * 10 ^
    (leadingExponent units + 1) ∧
      -330 ≤ leadingExponent units := by
  rcases Nat.lt_or_ge units one with hsmall | hlarge
  · obtain ⟨k, hlead, hk, hlow, hhigh⟩ := leadingExponent_of_lt hpos hsmall
    have hnext : -((k + 1 : Nat) : Int) + 1 = -(k : Int) := by omega
    have hten (n : Nat) : (0 : ℚ) < 10 ^ n := by positivity
    rw [hlead, hnext]
    refine ⟨?_, ?_, by omega⟩
    · rw [zpow_neg, zpow_natCast, ← div_eq_mul_inv, div_le_iff₀ (hten _)]
      exact_mod_cast hlow
    · rw [zpow_neg, zpow_natCast, ← div_eq_mul_inv, lt_div_iff₀ (hten _)]
      exact_mod_cast hhigh
  · obtain ⟨k, hlead, hlow, hhigh⟩ := leadingExponent_of_le hlarge
    rw [hlead]
    refine ⟨?_, ?_, by omega⟩
    · rw [zpow_natCast]
      exact_mod_cast hlow
    · rw [← Nat.cast_succ, zpow_natCast]
      exact_mod_cast hhigh

/-! ### Seventeen digits -/

theorem roundDiv_near (num : Nat) (hden : 0 < den) : 2 * (roundDiv num den * den) ≤ 2 * num + den ∧
    2 * num ≤ 2 * (roundDiv num den * den) + den := by
  have hsplit := Nat.div_add_mod num den
  have hrest := Nat.mod_lt num hden
  rw [Nat.mul_comm] at hsplit
  unfold roundDiv
  dsimp only
  have hnext : (num / den + 1) * den = num / den * den + den := Nat.succ_mul ..
  split_ifs <;> omega

theorem roundDiv_eq_or (num den : Nat) :
    roundDiv num den = num / den ∨ roundDiv num den = num / den + 1 := by
  have hlow := div_le_roundDiv num den
  have hhigh := roundDiv_le num den
  omega

/-- Seventeen digits come closer to a double than half a step, and than a quarter to a power
of two. -/
theorem roundUnits_seventeen {p : Nat} (hone : 0 < p) (hden : 0 < den) (hpos : 0 < units)
    (hstep : step units ∣ units) (hlead : 10 ^ 16 * p ≤ units * den) :
    roundUnits (roundDiv (units * den) p * p) den = units := by
  obtain ⟨hlow, hhigh⟩ := roundDiv_near (units * den) hone
  have hunits := Nat.mul_lt_mul_of_pos_right (lt_step units) hden
  rw [Nat.mul_assoc] at hunits
  refine roundUnits_of_near hden hpos hstep (by omega) (by omega) fun hpower => ?_
  have hleast := Nat.mul_le_mul_right den (two_pow_log2_le units)
  rw [← hpower, Nat.mul_assoc] at hleast
  omega

theorem leadingExponent_lt {n : Nat} (hpos : 0 < units) (h : units < one * 10 ^ n) :
    leadingExponent units < n := by
  by_contra hge
  have hone : (0 : ℚ) < one := by exact_mod_cast one_pos
  have hlead := (leadingExponent_spec hpos).1
  have hpow : (10 : ℚ) ^ n ≤ 10 ^ leadingExponent units := by
    rw [← zpow_natCast]
    exact zpow_le_zpow_right₀ (by norm_num) (by omega)
  have h : (units : ℚ) < one * 10 ^ n := by exact_mod_cast h
  have := mul_le_mul_of_nonneg_left hpow hone.le
  linarith

/-- A number has seventeen digits in front of the point when it is counted in tens to the place of
its last digit. -/
theorem seventeen_bounds (hpos : 0 < units) {e : Int} (he : leadingExponent units = e + 16) :
    10 ^ 16 * (one * tenNum e) ≤ units * tenDen e ∧ units * tenDen e < 10 ^ 17 *
    (one * tenNum e) := by
  obtain ⟨hlow, hhigh, -⟩ := leadingExponent_spec hpos
  have hten : (10 : ℚ) ≠ 0 := by norm_num
  rw [he] at hlow hhigh
  constructor
  · rw [← Nat.mul_assoc, ← mul_ten_zpow_le_iff]
    rw [zpow_add₀ hten] at hlow
    push_cast
    linarith
  · rw [← Nat.mul_assoc, ← lt_mul_ten_zpow_iff]
    rw [add_assoc, zpow_add₀ hten] at hhigh
    push_cast
    norm_num at hhigh ⊢
    linarith

/-- The seventeen digits nearest to a double read back as it. -/
theorem ofDecimal_seventeen (hpos : 0 < units) (hlimit : units < limit)
    (hstep : step units ∣ units) :
    ofDecimal false (roundDiv (scaled units (leadingExponent units - 16)).1
      (scaled units (leadingExponent units - 16)).2)
      (leadingExponent units - 16) = .finite false units := by
  have hleast := (leadingExponent_spec hpos).2.2
  have hmost := leadingExponent_lt hpos (hlimit.trans_le limit_le)
  obtain ⟨e, he⟩ : ∃ e, leadingExponent units = e + 16 := ⟨leadingExponent units - 16, by omega⟩
  obtain ⟨hfloor, hceil⟩ := seventeen_bounds hpos he
  rw [he] at hleast hmost
  rw [he, add_sub_cancel_right, scaled_eq]
  dsimp only
  have hone : 0 < one * tenNum e := by
    rcases Nat.eq_zero_or_pos (one * tenNum e) with hzero | hone
    · rw [hzero] at hceil
      omega
    · exact hone
  have hround := roundUnits_seventeen hone (tenDen_pos e) hpos hstep hfloor
  have hdigits : 10 ^ 16 ≤ roundDiv (units * tenDen e) (one * tenNum e) :=
    ((Nat.le_div_iff_mul_le hone).2 hfloor).trans (div_le_roundDiv _ _)
  have hdigits' : roundDiv (units * tenDen e) (one * tenNum e) < 10 ^ 18 := by
    have hdiv := (Nat.div_lt_iff_lt_mul hone).2 hceil
    have := roundDiv_le (units * tenDen e) (one * tenNum e)
    omega
  have hlength := Literal.length_decimal_le (by decide) hdigits'
  have hlength' : 16 < (Text.decimal (roundDiv (units * tenDen e) (one * tenNum e))).length :=
    (Nat.pow_lt_pow_iff_right (by decide)).1 (hdigits.trans_lt (Literal.lt_pow_length_decimal _))
  rw [ofDecimal_eq false (by omega) (by omega) (by omega), ofUnits, hround, if_pos hlimit]

theorem ofDecimal_of_nearestWith {count : Nat} {lead : Int} {found : Nat × Int}
    (h : nearestWith units count lead = some found) :
    ofDecimal false found.1 found.2 = .finite false units := by
  have hround :=
    roundDiv_eq_or (scaled units (lead - (count - 1 : Nat))).1
    (scaled units (lead - (count - 1 : Nat))).2
  unfold nearestWith at h
  dsimp only at h
  split at h
  · rename_i hbelow habove
    cases h
    dsimp only
    rcases hround with heq | heq <;> rw [heq]
    · exact eq_of_beq hbelow
    · exact eq_of_beq habove
  · rename_i hbelow _
    cases h
    exact eq_of_beq hbelow
  · rename_i _ habove
    cases h
    exact eq_of_beq habove
  · cases h

theorem ofDecimal_shortest (hpos : 0 < units) (hlimit : units < limit)
    (hstep : step units ∣ units) :
    ofDecimal false (shortest units).1 (shortest units).2 = .finite false units := by
  unfold shortest
  dsimp only
  cases hfound : (List.range 17).findSome? fun k =>
      nearestWith units (k + 1) (leadingExponent units) with
  | none => exact ofDecimal_seventeen hpos hlimit hstep
  | some found =>
    obtain ⟨k, -, hk⟩ := List.exists_of_findSome?_eq_some hfound
    exact ofDecimal_of_nearestWith hk

/-! ### Zeros at the end -/

theorem ofUnits_mul_left {c : Nat} (hc : 0 < c) (negative : Bool) (num den : Nat) :
    ofUnits negative (c * num) (c * den) = ofUnits negative num den := by
  unfold ofUnits
  rw [roundUnits_mul_left hc]

theorem length_decimal_mul_ten {digits : Nat} (hdigits : digits ≠ 0) :
    (Text.decimal (digits * 10)).length = (Text.decimal digits).length + 1 := by
  rw [Text.decimal, Nat.toDigits_eq_if (by decide), if_neg (by omega),
    Nat.mul_div_cancel _ (by decide), List.length_append, List.length_singleton]
  rfl

theorem ten_succ (e : Int) : tenNum (e + 1) = 10 * tenNum e ∧ tenDen (e + 1) = tenDen e ∨
    tenNum (e + 1) = tenNum e ∧ tenDen e = 10 * tenDen (e + 1) := by
  unfold tenNum tenDen
  by_cases he : e < 0
  · obtain ⟨k, rfl⟩ : ∃ k : Nat, e = -(k + 1 : Nat) := ⟨e.natAbs - 1, by omega⟩
    have hsucc : -((k + 1 : Nat) : Int) + 1 = -(k : Int) := by omega
    rw [hsucc]
    rcases Nat.eq_zero_or_pos k with rfl | hk
    · exact .inr (by decide)
    · refine .inr ⟨by rw [if_pos (by omega), if_pos he], ?_⟩
      rw [if_pos he, if_pos (by omega), Int.natAbs_neg, Int.natAbs_neg, Int.natAbs_natCast,
        Int.natAbs_natCast, Nat.pow_succ']
  · obtain ⟨k, rfl⟩ : ∃ k : Nat, e = k := ⟨e.natAbs, by omega⟩
    refine .inl ⟨?_, by rw [if_neg he, if_neg (by omega)]⟩
    rw [if_neg he, if_neg (by omega), Int.natAbs_natCast, ← Nat.cast_succ, Int.natAbs_natCast,
      Nat.pow_succ']

theorem ofDecimal_mul_ten (negative : Bool) (digits : Nat) (e : Int) :
    ofDecimal negative (digits * 10) e = ofDecimal negative digits (e + 1) := by
  rcases Nat.eq_zero_or_pos digits with rfl | hpos
  · simp [ofDecimal]
  have hmagnitude : e + (Text.decimal (digits * 10)).length = e + 1 +
      (Text.decimal digits).length := by
    rw [length_decimal_mul_ten hpos.ne']
    push_cast
    ring
  have hzero : digits * 10 = 0 ↔ digits = 0 := by omega
  have hquotient : ofUnits negative (digits * 10 * (one * tenNum e)) (tenDen e) =
      ofUnits negative (digits * (one * tenNum (e + 1))) (tenDen (e + 1)) := by
    rcases ten_succ e with ⟨hnum, hden⟩ | ⟨hnum, hden⟩
    · rw [hnum, hden]
      congr 1
      ring
    · rw [hnum, hden, Nat.mul_comm digits, Nat.mul_assoc, ofUnits_mul_left (by decide)]
  rw [ofDecimal_unfold, ofDecimal_unfold, hmagnitude, hquotient]
  simp only [hzero]

theorem ofDecimal_mul_pow (negative : Bool) (digits k : Nat) (e : Int) :
    ofDecimal negative (digits * 10 ^ k) e = ofDecimal negative digits (e + k) := by
  induction k generalizing e with
  | zero => simp
  | succ k ih =>
    rw [Nat.pow_succ, ← Nat.mul_assoc, ofDecimal_mul_ten, ih]
    congr 1
    push_cast
    ring

theorem ofDecimal_signed {digits : Nat} {e : Int} (negative : Bool)
    (h : ofDecimal false digits e = .finite false units) :
    ofDecimal negative digits e = .finite negative units := by
  rw [ofDecimal_unfold] at h ⊢
  unfold ofUnits at h ⊢
  dsimp only at h ⊢
  split_ifs at h ⊢
  all_goals
    cases h
    rfl

end ScratchExport.Binary64

namespace ScratchExport.Text

theorem digitsValue_append (cs ds : List Char) :
    digitsValue (cs ++ ds) = digitsValue cs * 10 ^ ds.length + digitsValue ds := by
  have hfold (n : Nat) : ds.foldl (fun n c => 10 * n + (digitValue? c).getD 0) n = n *
      10 ^ ds.length + digitsValue ds := by
    induction ds generalizing n with
    | nil => simp [digitsValue]
    | cons d ds ih =>
      have hstart := ih ((digitValue? d).getD 0)
      rw [digitsValue, List.foldl_cons, List.foldl_cons, ih, Nat.mul_zero, Nat.zero_add, hstart,
        List.length_cons, Nat.pow_succ]
      ring
  rw [digitsValue, List.foldl_append, hfold]
  rfl

@[simp] theorem digitsValue_zeros (k : Nat) : digitsValue (List.replicate k '0') = 0 := by
  induction k with
  | zero => rfl
  | succ k ih =>
    rw [List.replicate_succ, ← List.singleton_append, digitsValue_append, ih]
    have hzero : digitsValue ['0'] = 0 := by decide
    rw [hzero, Nat.zero_mul]

end ScratchExport.Text

namespace ScratchExport.Binary64
open Text (digitsValue decimal)

theorem exists_trimZeros_append (digits : List Char) :
    ∃ k, trimZeros digits ++ List.replicate k '0' = digits := by
  have hzeros : digits.reverse.takeWhile (· == '0') =
      List.replicate (digits.reverse.takeWhile (· == '0')).length '0' := by
    rw [List.eq_replicate_iff]
    exact ⟨rfl, fun c hc => by simpa using List.mem_takeWhile_imp hc⟩
  have hsplit :=
    congrArg List.reverse (List.takeWhile_append_dropWhile (p := (· == '0')) (l := digits.reverse))
  rw [hzeros, List.reverse_append, List.reverse_replicate, List.reverse_reverse] at hsplit
  exact ⟨_, hsplit⟩

theorem trimZeros_ne_nil {n : Nat} (hn : 0 < n) : trimZeros (decimal n) ≠ [] := by
  intro hnil
  obtain ⟨k, hk⟩ := exists_trimZeros_append (decimal n)
  have hvalue := congrArg digitsValue hk
  rw [hnil, List.nil_append, Text.digitsValue_zeros, Text.digitsValue_decimal] at hvalue
  omega

/-! ### The layout of the digits -/

/-- A text is a decimal with these digits, the first of which has the exponent `lead`. -/
def Writes (cs ds : List Char) (lead : Int) : Prop :=
  ∃ mantissa before after rest e, cs = mantissa ++ rest ∧ Literal.Mantissa mantissa before after ∧
    Literal.Exponent rest e ∧
      ∀ negative, ofDigits negative before after e = ofDecimal negative (digitsValue ds)
      (lead + 1 - ds.length)

theorem Writes.unsignedDecimal? {cs ds : List Char} {lead : Int} (h : Writes cs ds lead)
    (negative : Bool) :
    Literal.unsignedDecimal? negative cs =
      some (ofDecimal negative (digitsValue ds) (lead + 1 - ds.length)) := by
  obtain ⟨mantissa, before, after, rest, e, rfl, hmantissa, hexponent, hvalue⟩ := h
  rw [Literal.unsignedDecimal?_of_mantissa negative hmantissa hexponent, hvalue]

theorem isDigit_of_mem_zeros {k : Nat} {c : Char} (h : c ∈ List.replicate k '0') :
    Text.isDigit c = true := by
  rw [(List.mem_replicate.1 h).2]
  decide

section
variable {ds : List Char} (hne : ds ≠ []) (hds : ∀ c ∈ ds, Text.isDigit c = true)
include hne hds

theorem writes_whole (k : Nat) :
    Writes (ds.take (k + 1) ++ List.replicate (k + 1 - ds.length) '0' ++
    '.' :: (if (ds.drop (k + 1)).isEmpty then ['0'] else ds.drop (k + 1))) ds k := by
  rcases Nat.lt_or_ge (k + 1) ds.length with hmore | hless
  · refine ⟨_, ds.take (k + 1), ds.drop (k + 1), [], 0, ?_,
      .point (by simpa using hne) (fun c hc => hds c (List.mem_of_mem_take hc))
        fun c hc => hds c (List.mem_of_mem_drop hc), .none, fun negative => ?_⟩
    · rw [List.append_nil, Nat.sub_eq_zero_of_le (by omega), List.replicate_zero, List.append_nil,
        if_neg (by simpa using hmore)]
    · rw [ofDigits, List.take_append_drop, List.length_drop]
      congr 1
      omega
  · -- No digit is left for behind the point: a zero stands there, perhaps with others in front.
    refine ⟨_, ds ++ List.replicate (k + 1 - ds.length) '0', ['0'], [], 0, ?_,
      .point (by simp) (fun c hc => (List.mem_append.1 hc).elim (hds c) isDigit_of_mem_zeros)
        (fun c hc => isDigit_of_mem_zeros (k := 1) hc), .none, fun negative => ?_⟩
    · rw [List.append_nil, List.drop_of_length_le hless, List.take_of_length_le hless]
      rfl
    · have hvalue : digitsValue (ds ++ List.replicate (k + 1 - ds.length) '0' ++ ['0']) =
          digitsValue ds * 10 ^ (k + 2 - ds.length) := by
        rw [List.append_assoc, ← List.replicate_succ', Text.digitsValue_append,
          Text.digitsValue_zeros, List.length_replicate, Nat.add_zero]
        congr 2
        omega
      rw [ofDigits, hvalue, ofDecimal_mul_pow, List.length_singleton]
      congr 1
      omega

omit hne in
theorem writes_fraction {lead : Int} (hlead : lead < 0) :
    Writes ('0' :: '.' :: List.replicate (lead.natAbs - 1) '0' ++ ds) ds lead := by
  refine ⟨['0'] ++ '.' :: (List.replicate (lead.natAbs - 1) '0' ++ ds), ['0'],
    List.replicate (lead.natAbs - 1) '0' ++ ds,
    [], 0, (List.append_nil _).symm, .point (by simp) (fun c hc => isDigit_of_mem_zeros (k := 1) hc)
      fun c hc => (List.mem_append.1 hc).elim isDigit_of_mem_zeros (hds c), .none, fun negative =>
        ?_⟩
  have hvalue : digitsValue (['0'] ++ (List.replicate (lead.natAbs - 1) '0' ++ ds)) =
      digitsValue ds := by
    rw [← List.append_assoc, List.singleton_append, ← List.replicate_succ, Text.digitsValue_append,
      Text.digitsValue_zeros, Nat.zero_mul, Nat.zero_add]
  rw [ofDigits, hvalue, List.length_append, List.length_replicate]
  congr 1
  omega

theorem writes_exponent {rest : List Char} {lead : Int} (hrest : Literal.Exponent rest lead) :
    Writes (ds.take 1 ++ (if (ds.drop 1).isEmpty then [] else '.' :: ds.drop 1) ++ rest) ds
    lead := by
  obtain ⟨d, tail, rfl⟩ := List.exists_cons_of_ne_nil hne
  rw [List.forall_mem_cons] at hds
  rw [List.take_succ_cons, List.take_zero, List.drop_succ_cons, List.drop_zero]
  cases tail with
  | nil =>
    refine ⟨[d], [d], [], rest, lead, rfl, .whole (by simp) (by simpa using hds.1), hrest,
      fun negative => ?_⟩
    rw [ofDigits, List.append_nil, List.length_nil, List.length_singleton]
    congr 1
    omega
  | cons c cs =>
    refine ⟨[d] ++ '.' :: (c :: cs), [d], c :: cs, rest, lead, rfl,
      .point (by simp) (by simpa using hds.1) hds.2, hrest, fun negative => ?_⟩
    rw [ofDigits, List.singleton_append, List.length_cons (a := d)]
    congr 1
    omega

end

theorem exponent_layout (lead : Int) : Literal.Exponent ('e' :: (if lead < 0 then '-' else '+') ::
    (List.replicate (2 - (decimal lead.natAbs).length) '0' ++ decimal lead.natAbs)) lead := by
  have hvalue :
      digitsValue (List.replicate (2 - (decimal lead.natAbs).length) '0' ++ decimal lead.natAbs) =
      lead.natAbs := by
    rw [Text.digitsValue_append, Text.digitsValue_zeros, Text.digitsValue_decimal, Nat.zero_mul,
      Nat.zero_add]
  have hdigits : ∀ c ∈ List.replicate (2 - (decimal lead.natAbs).length) '0' ++ decimal lead.natAbs,
      Text.isDigit c = true := fun c hc =>
    (List.mem_append.1 hc).elim isDigit_of_mem_zeros fun h =>
      Text.isDigit_ascii (Text.isDigit_of_mem_decimal h)
  have hne : List.replicate (2 - (decimal lead.natAbs).length) '0' ++ decimal lead.natAbs ≠ [] := by
    simp [Text.decimal_ne_nil]
  split_ifs with hlead
  · have h := Literal.Exponent.some (.inl rfl) (.minus _) hne hdigits
    rwa [hvalue, if_pos rfl, Int.ofNat_natAbs_of_nonpos hlead.le, Int.neg_neg] at h
  · have h := Literal.Exponent.some (.inl rfl) (.plus _) hne hdigits
    rwa [hvalue, if_neg Bool.false_ne_true, Int.natAbs_of_nonneg (by omega)] at h

theorem writes_layout {ds : List Char} (hne : ds ≠ []) (hds : ∀ c ∈ ds, Text.isDigit c = true)
    (lead : Int) : Writes (layout ds lead) ds lead := by
  unfold layout
  split
  · rename_i hlead
    simp only [Bool.and_eq_true, decide_eq_true_eq] at hlead
    obtain ⟨k, rfl⟩ : ∃ k : Nat, lead = k := ⟨lead.natAbs, by omega⟩
    exact writes_whole hne hds k
  split
  · rename_i hlead
    simp only [Bool.and_eq_true, decide_eq_true_eq] at hlead
    exact writes_fraction hds hlead.2
  · have h := writes_exponent hne hds (exponent_layout lead)
    dsimp only
    rw [List.append_assoc]
    exact h

theorem head_layout {ds : List Char} (hne : ds ≠ []) (hhead : ds.head? ≠ some '0') (lead : Int) :
    ∃ c rest, layout ds lead = c :: rest ∧ (c = '0' → ∀ d ∈ rest.head?, d = '.') := by
  obtain ⟨d, tail, rfl⟩ := List.exists_cons_of_ne_nil hne
  have hd : d ≠ '0' := fun heq => hhead (by rw [heq]; rfl)
  unfold layout
  split
  · exact ⟨d, _, rfl, fun heq => absurd heq hd⟩
  split
  · exact ⟨'0', _, rfl, fun _ c hc => by cases hc; rfl⟩
  · exact ⟨d, _, rfl, fun heq => absurd heq hd⟩

theorem head_trimZeros {n : Nat} (hn : 0 < n) : (trimZeros (decimal n)).head? ≠ some '0' := by
  obtain ⟨k, hk⟩ := exists_trimZeros_append (decimal n)
  rw [← List.head?_append_of_ne_nil _ (trimZeros_ne_nil hn), hk]
  exact Text.head_decimal hn

/-! ### Doubles as text -/

/-- The characters of a positive double. -/
def body (units : Nat) : List Char :=
  layout (trimZeros (decimal (shortest units).1))
    ((shortest units).2 + ((decimal (shortest units).1).length - 1 : Nat))

theorem toList_text (negative : Bool) (hpos : 0 < units) :
    (text (.finite negative units)).toList = if negative then '-' :: body units else body
    units := by
  have hzero : (units == 0) = false := beq_false_of_ne hpos.ne'
  rw [text, hzero]
  exact String.toList_ofList

theorem shortest_pos (hpos : 0 < units) (hlimit : units < limit) (hstep : step units ∣ units) :
    0 < (shortest units).1 := by
  rcases Nat.eq_zero_or_pos (shortest units).1 with hzero | hdigits
  · have h := ofDecimal_shortest hpos hlimit hstep
    rw [hzero, ofDecimal_unfold, if_pos (.inl rfl)] at h
    cases h
    exact absurd hpos (lt_irrefl 0)
  · exact hdigits

theorem unsignedDecimal?_body (negative : Bool) (hpos : 0 < units) (hlimit : units < limit)
    (hstep : step units ∣ units) :
    Literal.unsignedDecimal? negative (body units) = some (.finite negative units) := by
  have hshortest := ofDecimal_shortest hpos hlimit hstep
  have hdigits := shortest_pos hpos hlimit hstep
  generalize hfound : shortest units = found at hshortest hdigits
  obtain ⟨k, hk⟩ := exists_trimZeros_append (decimal found.1)
  have hlength := congrArg List.length hk
  have hsome : 0 < (decimal found.1).length := List.length_pos_iff.2 (Text.decimal_ne_nil _)
  have hvalue : found.1 = digitsValue (trimZeros (decimal found.1)) * 10 ^ k := by
    have h := congrArg digitsValue hk
    rwa [Text.digitsValue_append, Text.digitsValue_zeros, List.length_replicate, Nat.add_zero,
      Text.digitsValue_decimal, eq_comm] at h
  have hwrites := writes_layout (trimZeros_ne_nil hdigits)
    (fun c hc => Text.isDigit_ascii (Text.isDigit_of_mem_decimal (mem_of_mem_trimZeros hc)))
    (found.2 + ((decimal found.1).length - 1 : Nat))
  rw [body, hfound, hwrites.unsignedDecimal?, ← ofDecimal_signed negative hshortest]
  conv_rhs => rw [hvalue, ofDecimal_mul_pow]
  rw [List.length_append, List.length_replicate] at hlength
  congr 2
  omega

theorem roundUnits_exact (hpos : 0 < units) (hstep : step units ∣ units) :
    roundUnits units 1 = units := by
  have := step_pos units
  exact roundUnits_of_near Nat.one_pos hpos hstep (by omega) (by omega) fun _ => by omega

theorem unsignedDecimal?_integer (negative : Bool) {n : Nat} (hlimit : n * one < limit)
    (hstep : step (n * one) ∣ n * one) :
    Literal.unsignedDecimal? negative (decimal n) = some (.finite negative (n * one)) := by
  have hmantissa : Literal.Mantissa (decimal n) (decimal n) [] :=
    .whole (Text.decimal_ne_nil n) fun c hc => Text.isDigit_ascii (Text.isDigit_of_mem_decimal hc)
  have hread := Literal.unsignedDecimal?_of_mantissa negative hmantissa .none
  rw [List.append_nil] at hread
  rw [hread, ofDigits, List.append_nil, Text.digitsValue_decimal, List.length_nil, Nat.cast_zero,
    sub_zero]
  rcases Nat.eq_zero_or_pos n with rfl | hpos
  · rw [ofDecimal_unfold, if_pos (.inl rfl), Nat.zero_mul]
  have hsize : n < 10 ^ 309 := by
    have h := hlimit.trans_le limit_le
    rw [Nat.mul_comm] at h
    exact Nat.lt_of_mul_lt_mul_left h
  have hlength := Literal.length_decimal_le (by decide) hsize
  rw [ofDecimal_eq negative hpos.ne' (by omega) (by omega)]
  have hone : tenNum 0 = 1 ∧ tenDen 0 = 1 := by decide
  rw [hone.1, hone.2, Nat.mul_one]
  unfold ofUnits
  dsimp only
  rw [roundUnits_exact (Nat.mul_pos hpos one_pos) hstep, if_pos hlimit]

end ScratchExport.Binary64

namespace ScratchExport.Literal
open Binary64
variable {units : Nat}

theorem toList_toString_nat (n : Nat) : (toString (n : Int)).toList = Text.decimal n := by
  simp [toString, Int.repr, Nat.repr, Text.decimal]

theorem toList_toString_neg {n : Nat} (hn : 0 < n) :
    (toString (-(n : Int))).toList = '-' :: Text.decimal n := by
  obtain ⟨k, rfl⟩ := Nat.exists_eq_succ_of_ne_zero hn.ne'
  show (toString (Int.negSucc k)).toList = _
  simp [toString, Int.repr, Nat.repr, Text.decimal]

theorem units_of_isInteger {negative : Bool} (h : (finite negative units).isInteger = true) :
    units = units / one * one := by
  rw [isInteger, beq_iff_eq] at h
  exact (Nat.div_mul_cancel (Nat.dvd_of_mod_eq_zero h)).symm

theorem quotient_pos {negative : Bool} (h : (finite negative units).isInteger = true)
    (hpos : 0 < units) : 0 < units / one := by
  have hunits := units_of_isInteger h
  rcases Nat.eq_zero_or_pos (units / one) with hzero | hquotient
  · rw [hzero, Nat.zero_mul] at hunits
    omega
  · exact hquotient

/-- An integer is digits and any other number is in the layout of its shortest decimal. -/
theorem toList_numberLiteral (units : Nat) (hpos : 0 < units) (negative : Bool) :
    (numberLiteral (.finite negative units)).toList = (if negative then ['-'] else []) ++
      (if (finite false units).isInteger then Text.decimal (units / one) else body units) := by
  have hsign : (finite negative units).isInteger = (finite false units).isInteger := rfl
  unfold numberLiteral
  dsimp only
  rw [hsign]
  split_ifs with hinteger hnegative hnegative
  · rw [hnegative]
    exact toList_toString_neg (quotient_pos hinteger hpos)
  · rw [Bool.not_eq_true] at hnegative
    rw [hnegative]
    exact toList_toString_nat _
  · rw [toList_text negative hpos, if_pos hnegative]
    rfl
  · rw [toList_text negative hpos, if_neg hnegative]
    rfl

theorem numberLiteral_zero (negative : Bool) : numberLiteral (.finite negative 0) = "0" := by
  have hzero : (finite negative 0).eqInt 0 = true := eqInt_zero negative
  exact numberLiteral_of_eqInt hzero

/-- The number that a literal shows is the number it was made from. -/
theorem unsignedDecimal?_numberLiteral (negative : Bool) (h : IsDouble (.finite false units)) :
    unsignedDecimal? negative (numberLiteral (.finite false units)).toList =
      some (.finite negative units) := by
  obtain ⟨⟨m, k, hm, hunits⟩, hlimit⟩ := h
  have hstep := step_dvd hm hunits
  rcases Nat.eq_zero_or_pos units with rfl | hpos
  · have h := unsignedDecimal?_integer negative (n := 0) (by rwa [Nat.zero_mul]) (by simp)
    rw [Nat.zero_mul] at h
    rw [numberLiteral_zero]
    exact h
  rw [toList_numberLiteral units hpos, if_neg Bool.false_ne_true, List.nil_append]
  split_ifs with hinteger
  · have heq := units_of_isInteger hinteger
    have h := unsignedDecimal?_integer negative (heq ▸ hlimit) (heq ▸ hstep)
    rwa [← heq] at h
  · exact unsignedDecimal?_body negative hpos hlimit hstep

theorem head_numberLiteral (h : IsDouble (.finite false units)) :
    ∃ c rest, (numberLiteral (.finite false units)).toList = c :: rest ∧
    (c = '0' → ∀ d ∈ rest.head?, d = '.') := by
  obtain ⟨⟨m, k, hm, hunits⟩, hlimit⟩ := h
  rcases Nat.eq_zero_or_pos units with rfl | hpos
  · rw [numberLiteral_zero]
    exact ⟨'0', [], rfl, by simp⟩
  rw [toList_numberLiteral units hpos, if_neg Bool.false_ne_true, List.nil_append]
  split_ifs with hinteger
  · have hhead := Text.head_decimal (quotient_pos hinteger hpos)
    obtain ⟨d, tail, heq⟩ := List.exists_cons_of_ne_nil (Text.decimal_ne_nil (units / one))
    rw [heq] at hhead ⊢
    exact ⟨d, tail, rfl, fun hd => absurd (by rw [hd]; rfl) hhead⟩
  · have hdigits := shortest_pos hpos hlimit (step_dvd hm hunits)
    exact head_layout (trimZeros_ne_nil hdigits) (head_trimZeros hdigits) _

/-! ### Literals are doubles -/

theorem isDouble_ofDigits (negative : Bool) (whole fraction : List Char) (e : Int) :
    IsDouble (ofDigits negative whole fraction e) := by
  have hzero : IsDouble (.finite negative 0) := ⟨⟨0, 0, by decide, rfl⟩, Nat.two_pow_pos _⟩
  rw [ofDigits, ofDecimal_unfold]
  split_ifs
  exacts [hzero, trivial, isDouble_ofUnits ..]

theorem isDouble_of_decimal? {cs : List Char} {x : Binary64} (h : decimal? cs = some x) :
    IsDouble x := by
  unfold decimal? unsignedDecimal? at h
  dsimp only at h
  split_ifs at h
  obtain ⟨e, -, rfl⟩ := Option.map_eq_some_iff.1 h
  exact isDouble_ofDigits ..

theorem isDouble_of_double {i : Int} {x : Binary64} (h : Value.double i = .ok x) : IsDouble x := by
  unfold Value.double ofInt? at h
  have hdouble := isDouble_ofUnits (decide (i < 0)) (i.natAbs * one) 1
  unfold ofRatio at h
  cases hunits : ofUnits (decide (i < 0)) (i.natAbs * one) 1 with
  | finite negative units =>
    rw [hunits] at h hdouble
    cases h
    exact hdouble
  | infinite negative | nan =>
    rw [hunits] at h
    cases h

theorem isDouble_of_ofText {s : String} {x : Binary64} (h : ofText s = .ok (some x)) :
    IsDouble x := by
  unfold ofText at h
  dsimp only at h
  split at h
  · cases h
    exact isDouble_of_decimal? ‹_›
  · split at h
    · obtain ⟨y, hy, h⟩ := Outcome.bind_eq_ok.1 h
      cases h
      exact isDouble_of_double hy
    · split_ifs at h <;> cases h <;> trivial

/-- The number that a literal is, if the floats among the literals are doubles. -/
theorem isDouble_of_number? {v : Value} {x : Binary64} (hv : ∀ y, v = .float y → IsDouble y)
    (h : number? v = .ok (some x)) : IsDouble x := by
  cases v with
  | int i =>
    obtain ⟨y, hy, h⟩ := Outcome.bind_eq_ok.1 h
    cases h
    exact isDouble_of_double hy
  | float y =>
    rw [number?] at h
    split_ifs at h <;> cases h
    exact hv x rfl
  | text s => exact isDouble_of_ofText h
  | _ => cases h

end ScratchExport.Literal
