/-!
# Double-precision numbers

Every finite double is a whole number of units of 2⁻¹⁰⁷⁴, so a finite double is a sign and a count
of units, and sums and comparisons are exact integer arithmetic followed by one rounding.
`roundUnits` rounds a quotient of units to the nearest double, a tie to the even neighbour. The two
zeros differ by their sign, and NaN is a single value.
-/

namespace ScratchExport

/-- A double-precision number. -/
inductive Binary64 where
  | nan
  | infinite (negative : Bool)
  /-- The number `± units · 2⁻¹⁰⁷⁴`. -/
  | finite (negative : Bool) (units : Nat)
  deriving DecidableEq, Inhabited

namespace Binary64

/-- The bits of a count of units that stand for a fraction. -/
@[irreducible] def fractionBits : Nat := 1074

/-- The bits of the count of units of a finite double. -/
@[irreducible] def unitBits : Nat := 2098

/-- One as a count of units. -/
def one : Nat := Nat.pow 2 fractionBits

/-- The least count of units that is too large for a finite double. -/
def limit : Nat := Nat.pow 2 unitBits

/-- The quotient rounded to a whole number, a tie to the even neighbour. -/
def roundDiv (num den : Nat) : Nat :=
  let q := num / den
  let r := num % den
  if 2 * r < den then q
  else if den < 2 * r then q + 1
  else if q % 2 == 0 then q else q + 1

/-- The quotient `num / den`, in units, rounded to 53 significant bits. -/
def roundUnits (num den : Nat) : Nat :=
  let step := Nat.pow 2 ((num / den).log2 - 52)
  roundDiv num (den * step) * step

/-- The double nearest to `± num / den` units; it is infinite past the largest finite double. -/
def ofUnits (negative : Bool) (num den : Nat) : Binary64 :=
  let units := roundUnits num den
  if units < limit then .finite negative units else .infinite negative

/-- The double nearest to `± num / den`. -/
def ofRatio (negative : Bool) (num den : Nat) : Binary64 :=
  ofUnits negative (num * one) den

/-- A double, if it is finite. -/
def finite? : Binary64 → Option Binary64
  | .finite negative units => some (.finite negative units)
  | _ => none

/-- The double nearest to an integer, if there is a finite one. -/
def ofInt? (i : Int) : Option Binary64 :=
  (ofRatio (decide (i < 0)) i.natAbs 1).finite?

/-- A number of whole units of one. -/
def ofNat (n : Nat) : Binary64 :=
  ofRatio false n 1

/-- The signed count of units. -/
def signed (negative : Bool) (units : Nat) : Int :=
  if negative then -(units : Int) else units

def isNaN : Binary64 → Bool
  | .nan => true
  | _ => false

def isFinite : Binary64 → Bool
  | .finite .. => true
  | _ => false

/-- Zero of either sign. -/
def isZero : Binary64 → Bool
  | .finite _ units => units == 0
  | _ => false

/-- A finite double without a fractional part. -/
def isInteger : Binary64 → Bool
  | .finite _ units => units % one == 0
  | _ => false

/-- The integer part, toward zero; infinities and NaN have none. -/
def truncate? : Binary64 → Option Int
  | .finite negative units => some (signed negative (units / one))
  | _ => none

/-- The greatest integer at or below a finite double. -/
def floor? : Binary64 → Option Int
  | .finite negative units => some (Int.fdiv (signed negative units) one)
  | _ => none

def neg : Binary64 → Binary64
  | .nan => .nan
  | .infinite negative => .infinite !negative
  | .finite negative units => .finite (!negative) units

instance : Neg Binary64 := ⟨neg⟩

/-- The rounded sum. A zero sum is positive unless both terms are negative zeros. -/
def add : Binary64 → Binary64 → Binary64
  | .finite a m, .finite b n =>
    let sum := signed a m + signed b n
    if sum == 0 then .finite (a && b) 0 else ofUnits (decide (sum < 0)) sum.natAbs 1
  | .infinite a, .infinite b => if a == b then .infinite a else .nan
  | .infinite a, .finite .. => .infinite a
  | .finite .., .infinite b => .infinite b
  | .nan, _ | _, .nan => .nan

instance : Add Binary64 := ⟨add⟩

instance : Sub Binary64 := ⟨fun x y => x + -y⟩

/-- Numeric order; NaN is below nothing. -/
def lt : Binary64 → Binary64 → Bool
  | .nan, _ | _, .nan => false
  | .infinite a, .infinite b => a && !b
  | .infinite a, .finite .. => a
  | .finite .., .infinite b => !b
  | .finite a m, .finite b n => decide (signed a m < signed b n)

/-- Numeric equality: the zeros are equal, NaN equals nothing. -/
def eq : Binary64 → Binary64 → Bool
  | .infinite a, .infinite b => a == b
  | .finite a m, .finite b n => signed a m == signed b n
  | _, _ => false

/-- A double that equals an integer exactly. -/
def eqInt (x : Binary64) (i : Int) : Bool :=
  match x with
  | .finite negative units => signed negative units == i * one
  | _ => false

end Binary64

end ScratchExport
