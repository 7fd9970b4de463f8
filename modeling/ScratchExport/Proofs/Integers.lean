import Mathlib.Algebra.Order.Ring.Int
import Mathlib.Tactic.Ring
import ScratchExport.Literal.Number
import ScratchExport.Proofs.Outcome

/-!
# Doubles that are integers

Below 2⁵³ every integer is a double, so rounding leaves it alone: reading, adding and negating such
integers is exact. `x.eqInt n` says that `x` is `n`; a zero of either sign is 0. Of the unit of one,
2¹⁰⁷⁴, all that counts is that it is a power of two. At the other end, the integers that no finite
double is near to are those from half a step below 2¹⁰²⁴ on.
-/

namespace ScratchExport

namespace Binary64

theorem one_pos : 0 < one :=
  Nat.two_pow_pos fractionBits

theorem roundDiv_mul (q : Nat) {den : Nat} (h : 0 < den) : roundDiv (q * den) den = q := by
  unfold roundDiv
  dsimp only
  rw [Nat.mul_div_cancel q h, Nat.mul_mod_left, if_pos (by omega)]

/-- An integer of at most 53 bits is not rounded. -/
theorem roundUnits_integer {n den : Nat} (hn : n < 2 ^ 53) (hden : 0 < den) :
    roundUnits (n * one * den) den = n * one := by
  unfold roundUnits
  dsimp only
  rw [Nat.mul_div_cancel _ hden]
  generalize hk : (n * one).log2 - 52 = k
  have hbits : k ≤ fractionBits := by
    by_cases hzero : n * one = 0
    · rw [hzero, Nat.log2_zero] at hk
      omega
    · have hlt : n * one < 2 ^ (53 + fractionBits) := by
        rw [Nat.pow_add]
        exact Nat.mul_lt_mul_of_pos_right hn one_pos
      have := (Nat.log2_lt hzero).2 hlt
      omega
  show roundDiv (n * one * den) (den * 2 ^ k) * 2 ^ k = n * one
  have hsplit : one = 2 ^ (fractionBits - k) * 2 ^ k := by
    rw [← Nat.pow_add, Nat.sub_add_cancel hbits]; rfl
  have hnum : n * one * den = n * 2 ^ (fractionBits - k) * (den * 2 ^ k) := by rw [hsplit]; ring
  rw [hnum, roundDiv_mul _ (Nat.mul_pos hden (Nat.two_pow_pos k)), hsplit]
  ring

theorem mul_one_lt_limit {n : Nat} (hn : n < 2 ^ 53) : n * one < limit := by
  have hbits : 53 + fractionBits ≤ unitBits := by
    rw [fractionBits, unitBits]; decide
  calc n * one < 2 ^ 53 * one := Nat.mul_lt_mul_of_pos_right hn one_pos
    _ = 2 ^ (53 + fractionBits) := (Nat.pow_add 2 53 fractionBits).symm
    _ ≤ limit := Nat.pow_le_pow_right Nat.two_pos hbits

theorem ofUnits_integer (negative : Bool) {n den : Nat} (hn : n < 2 ^ 53) (hden : 0 < den) :
    ofUnits negative (n * one * den) den = .finite negative (n * one) := by
  unfold ofUnits
  dsimp only
  rw [roundUnits_integer hn hden, if_pos (mul_one_lt_limit hn)]

theorem ofRatio_integer (negative : Bool) {n den : Nat} (hn : n < 2 ^ 53) (hden : 0 < den) :
    ofRatio negative (n * den) den = .finite negative (n * one) := by
  unfold ofRatio
  rw [Nat.mul_right_comm, ofUnits_integer negative hn hden]

/-! ### What equals an integer -/

theorem eqInt_iff {x : Binary64} {n : Int} :
    x.eqInt n = true ↔ ∃ negative units, x = .finite negative units ∧
    signed negative units = n * one := by
  cases x <;> simp [eqInt]

theorem signed_decide_natAbs (n : Int) : signed (decide (n < 0)) (n.natAbs * one) = n * one := by
  unfold signed
  by_cases h : n < 0
  · rw [if_pos (decide_eq_true h), Nat.cast_mul, Int.ofNat_natAbs_of_nonpos h.le]
    ring
  · rw [if_neg (by simpa using h), Nat.cast_mul, Int.natAbs_of_nonneg (by omega)]

theorem eqInt_ofRatio {n : Int} (hn : n.natAbs < 2 ^ 53) :
    (ofRatio (decide (n < 0)) n.natAbs 1).eqInt n = true := by
  have h := ofRatio_integer (decide (n < 0)) hn Nat.one_pos
  rw [Nat.mul_one] at h
  exact eqInt_iff.2 ⟨_, _, h, signed_decide_natAbs n⟩

theorem eqInt_zero (negative : Bool) : (finite negative 0).eqInt 0 = true :=
  eqInt_iff.2 ⟨negative, 0, rfl, by cases negative <;> simp [signed]⟩

theorem eqInt_ofNat_one : (ofNat 1).eqInt 1 = true :=
  eqInt_ofRatio (n := 1) (by decide)

section
variable {x y : Binary64} {m n : Int}

theorem natAbs_signed (negative : Bool) (units : Nat) : (signed negative units).natAbs = units := by
  cases negative <;> simp [signed]

theorem units_of_eqInt {negative : Bool} {units : Nat}
    (hx : (finite negative units).eqInt m = true) : units = m.natAbs * one := by
  obtain ⟨_, _, heq, hm⟩ := eqInt_iff.1 hx
  cases heq
  rw [← natAbs_signed negative units, hm, Int.natAbs_mul, Int.natAbs_natCast]

theorem isInteger_of_eqInt (hx : x.eqInt m = true) : x.isInteger = true := by
  obtain ⟨negative, units, rfl, -⟩ := eqInt_iff.1 hx
  rw [isInteger, units_of_eqInt hx, Nat.mul_mod_left]
  rfl

theorem neg_eqInt (hx : x.eqInt m = true) : (-x).eqInt (-m) = true := by
  obtain ⟨negative, units, rfl, hm⟩ := eqInt_iff.1 hx
  refine eqInt_iff.2 ⟨!negative, units, rfl, ?_⟩
  rw [Int.neg_mul, ← hm]
  cases negative <;> simp [signed]

theorem add_eqInt (hx : x.eqInt m = true) (hy : y.eqInt n = true) (h : (m + n).natAbs < 2 ^ 53) :
    (x + y).eqInt (m + n) = true := by
  obtain ⟨a, k, rfl, hm⟩ := eqInt_iff.1 hx
  obtain ⟨b, l, rfl, hn⟩ := eqInt_iff.1 hy
  have hsum : signed a k + signed b l = (m + n) * one := by rw [hm, hn]; ring
  have hpos : (0 : Int) < one := by exact_mod_cast one_pos
  show (add (finite a k) (finite b l)).eqInt (m + n) = true
  rw [add, hsum]
  split_ifs with hzero
  · have hzero : m + n = 0 := (Int.mul_eq_zero.1 (beq_iff_eq.1 hzero)).resolve_right hpos.ne'
    rw [hzero]
    exact eqInt_zero _
  · have hsign : ((m + n) * one < 0) ↔ m + n < 0 := by
      have := Int.mul_lt_mul_right (b := m + n) (c := 0) hpos
      rwa [Int.zero_mul] at this
    have hunits := ofUnits_integer (decide (m + n < 0)) h Nat.one_pos
    rw [Nat.mul_one] at hunits
    rw [decide_eq_decide.2 hsign, Int.natAbs_mul, Int.natAbs_natCast, hunits]
    exact eqInt_iff.2 ⟨_, _, rfl, signed_decide_natAbs _⟩

theorem sub_eqInt (hx : x.eqInt m = true) (hy : y.eqInt n = true) (h : (m - n).natAbs < 2 ^ 53) :
    (x - y).eqInt (m - n) = true := by
  rw [Int.sub_eq_add_neg] at h ⊢
  exact add_eqInt hx (neg_eqInt hy) h

theorem lt_of_eqInt (hx : x.eqInt m = true) (hy : y.eqInt n = true) : x.lt y = decide (m < n) := by
  obtain ⟨a, k, rfl, hm⟩ := eqInt_iff.1 hx
  obtain ⟨b, l, rfl, hn⟩ := eqInt_iff.1 hy
  have hpos : (0 : Int) < one := by exact_mod_cast one_pos
  rw [lt, hm, hn, decide_eq_decide]
  exact Int.mul_lt_mul_right hpos

end

/-! ### Integers that are no doubles -/

theorem roundDiv_le (num den : Nat) : roundDiv num den ≤ num / den + 1 := by
  unfold roundDiv
  dsimp only
  split_ifs <;> omega

theorem div_le_roundDiv (num den : Nat) : num / den ≤ roundDiv num den := by
  unfold roundDiv
  dsimp only
  split_ifs <;> omega

theorem roundUnits_one (n : Nat) :
    roundUnits n 1 = roundDiv n (2 ^ (n.log2 - 52)) * 2 ^ (n.log2 - 52) := by
  unfold roundUnits
  dsimp only
  rw [Nat.div_one, Nat.one_mul]
  rfl

/-- With a step of two halves, a count below 2⁵³ steps is rounded up to them from the last half step
on. -/
theorem two_pow_le_roundDiv_iff {n half : Nat} (hhalf : 0 < half) (hn : n < 2 ^ 53 * (2 * half)) :
    2 ^ 53 ≤ roundDiv n (2 * half) ↔ 2 ^ 53 * (2 * half) ≤ n + half := by
  have hq : n / (2 * half) < 2 ^ 53 := Nat.div_lt_of_lt_mul (by rwa [Nat.mul_comm])
  have hsplit := Nat.div_add_mod n (2 * half)
  have hr := Nat.mod_lt n (show 0 < 2 * half by omega)
  unfold roundDiv
  dsimp only
  generalize n / (2 * half) = q at *
  generalize n % (2 * half) = r at *
  by_cases hlast : q = 2 ^ 53 - 1
  · subst hlast
    have hodd : ((2 ^ 53 - 1) % 2 == 0) = false := by decide
    rw [hodd, if_neg Bool.false_ne_true]
    split_ifs <;> omega
  · have hbelow : 2 * half * (q + 1) ≤ 2 * half * (2 ^ 53 - 1) := Nat.mul_le_mul_left _ (by omega)
    rw [Nat.mul_add] at hbelow
    split_ifs <;> omega

/-- Rounding reaches a power of two from half a step below it on. -/
theorem two_pow_le_roundUnits_iff {n k : Nat} (hk : 54 ≤ k) :
    2 ^ k ≤ roundUnits n 1 ↔ 2 ^ k ≤ n + 2 ^ (k - 54) := by
  rw [roundUnits_one]
  have hlast : 2 ^ (k - 54) ≤ 2 ^ (k - 1) := Nat.pow_le_pow_right Nat.two_pos (by omega)
  have hdouble : 2 ^ k = 2 * 2 ^ (k - 1) := by
    rw [← Nat.pow_succ', Nat.succ_eq_add_one, Nat.sub_add_cancel (by omega)]
  have hone : 1 ≤ 2 ^ (k - 54) := Nat.one_le_two_pow
  rcases Nat.eq_zero_or_pos n with rfl | hpos
  · constructor
    · intro h
      have : roundDiv 0 (2 ^ (Nat.log2 0 - 52)) * 2 ^ (Nat.log2 0 - 52) = 0 := by decide
      omega
    · omega
  have hlow := Nat.log2_self_le hpos.ne'
  have hhigh := Nat.lt_log2_self (n := n)
  have hstep : 2 ^ (n.log2 - 52) ≤ 2 ^ n.log2 := Nat.pow_le_pow_right Nat.two_pos (by omega)
  rcases Nat.lt_trichotomy n.log2 (k - 1) with hbits | hbits | hbits
  · -- Too small: a whole step more does not reach the power.
    have hn : 2 ^ (n.log2 + 1) ≤ 2 ^ (k - 1) := Nat.pow_le_pow_right Nat.two_pos (by omega)
    have hup := Nat.mul_le_mul_right (2 ^ (n.log2 - 52)) (roundDiv_le n (2 ^ (n.log2 - 52)))
    have hdiv := Nat.div_mul_le_self n (2 ^ (n.log2 - 52))
    rw [Nat.add_mul, Nat.one_mul] at hup
    omega
  · have hbits' : n.log2 - 52 = k - 54 + 1 := by omega
    have hsteps : 2 ^ k = 2 ^ 53 * (2 * 2 ^ (k - 54)) := by
      rw [← Nat.pow_succ', ← Nat.pow_add]; congr 1; omega
    rw [hbits, Nat.sub_add_cancel (by omega), hsteps] at hhigh
    rw [hbits', Nat.pow_succ', hsteps, ← two_pow_le_roundDiv_iff (Nat.two_pow_pos _) hhigh]
    exact Nat.mul_le_mul_right_iff (by omega)
  · -- At least the power: rounding keeps the leading bit.
    have hn : 2 ^ k ≤ 2 ^ n.log2 := Nat.pow_le_pow_right Nat.two_pos (by omega)
    have hlead : 2 ^ n.log2 = 2 ^ 52 * 2 ^ (n.log2 - 52) := by rw [← Nat.pow_add]; congr 1; omega
    have hdiv : 2 ^ 52 ≤ n / 2 ^ (n.log2 - 52) :=
      (Nat.le_div_iff_mul_le (Nat.two_pow_pos _)).2 (hlead ▸ hlow)
    have hdown := Nat.mul_le_mul_right (2 ^ (n.log2 - 52)) (hdiv.trans (div_le_roundDiv n _))
    omega

theorem limit_le_roundUnits_iff {n k half : Nat} (hk : unitBits = k + fractionBits)
    (hhalf : unitBits - 54 = half + fractionBits) :
    limit ≤ roundUnits (n * one) 1 ↔ 2 ^ k ≤ n + 2 ^ half := by
  have hone : one = 2 ^ fractionBits := rfl
  have hlimit : limit = 2 ^ unitBits := rfl
  have hbits : 54 ≤ unitBits := by rw [unitBits]; decide
  rw [hlimit, two_pow_le_roundUnits_iff hbits, hhalf, hk, Nat.pow_add,
    Nat.pow_add, ← hone, ← Nat.add_mul, Nat.mul_le_mul_right_iff one_pos]

/-- A size from half a step below 2¹⁰²⁴ on: it is rounded to 2¹⁰²⁴ or more. -/
def Exceeds (n : Nat) : Prop :=
  2 ^ 1024 ≤ n + 2 ^ 970

/-- The integers that are too large for a double. -/
theorem ofInt?_eq_none_iff {i : Int} : ofInt? i = none ↔ Exceeds i.natAbs := by
  rw [Exceeds, ← limit_le_roundUnits_iff (by rw [unitBits, fractionBits])
    (by rw [unitBits, fractionBits])]
  unfold ofInt? ofRatio ofUnits
  dsimp only
  split_ifs with h
  · simp [finite?, h]
  · simp [finite?, Nat.not_lt.1 h]

end Binary64

namespace Literal
open Binary64
variable {x : Binary64} {n : Int}

theorem numberLiteral_of_eqInt (hx : x.eqInt n = true) : numberLiteral x = toString n := by
  have hinteger := isInteger_of_eqInt hx
  obtain ⟨negative, units, rfl, hn⟩ := eqInt_iff.1 hx
  have hunits := units_of_eqInt hx
  have hsigned : signed negative (units / one) = n := by
    have hpos : (0 : Int) < one := by exact_mod_cast Binary64.one_pos
    have hscaled : signed negative (units / one) * one = signed negative units := by
      rw [hunits, Nat.mul_div_cancel _ Binary64.one_pos]
      cases negative <;> simp [signed]
    exact Int.eq_of_mul_eq_mul_right hpos.ne' (hscaled.trans hn)
  rw [numberLiteral, if_pos hinteger, hsigned]

theorem not_isUnsafeInteger (hx : x.eqInt n = true) (hn : n.natAbs < 2 ^ 53) :
    isUnsafeInteger x = false := by
  obtain ⟨negative, units, rfl, -⟩ := eqInt_iff.1 hx
  have hle : units ≤ maxSafeInteger * one := by
    rw [units_of_eqInt hx]
    exact Nat.mul_le_mul_right one (show n.natAbs ≤ 2 ^ 53 - 1 by omega)
  unfold isUnsafeInteger
  dsimp only
  rw [decide_eq_false (Nat.not_lt.2 hle), Bool.and_false]

end Literal

theorem Value.double_integer {n : Int} (hn : n.natAbs < 2 ^ 53) :
    ∃ x, double n = .ok x ∧ x.eqInt n = true := by
  have heq := Binary64.eqInt_ofRatio hn
  obtain ⟨negative, units, hx, -⟩ := Binary64.eqInt_iff.1 heq
  rw [hx] at heq
  refine ⟨_, ?_, heq⟩
  rw [double, Binary64.ofInt?, hx, Binary64.finite?, Option.elim_some]

end ScratchExport
