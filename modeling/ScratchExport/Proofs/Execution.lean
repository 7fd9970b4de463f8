import Mathlib.Data.Rat.Defs
import Mathlib.Algebra.Order.Ring.Rat
import ScratchExport.Proofs.Decimals
import ScratchExport.Shape

/-!
# Values of the running program

What the generated source computes with: numbers, texts and truth values. A number is a rational, an
infinity or NaN, and sums and differences of finite numbers are exact; the rules for the others are
those of floating point. `Val.toNumber` is the conversion that operators make, with NaN for a text
that is no number, and `Val.cast` is the one of Scratch, with zero for NaN. `literal?` is how a
number stands in source.
-/

namespace ScratchExport.Execution

/-- A number of the running program. -/
inductive Number where
  | finite (q : ℚ)
  | infinite (negative : Bool)
  | nan
  deriving DecidableEq

namespace Number

/-- The exact value of a double; the two zeros are one. -/
def ofDouble : Binary64 → Number
  | .finite negative units => .finite (Binary64.signed negative units / Binary64.one)
  | .infinite negative => .infinite negative
  | .nan => .nan

def add : Number → Number → Number
  | .nan, _ | _, .nan => .nan
  | .finite p, .finite q => .finite (p + q)
  | .finite _, .infinite b => .infinite b
  | .infinite a, .finite _ => .infinite a
  | .infinite a, .infinite b => if a = b then .infinite a else .nan

def neg : Number → Number
  | .finite q => .finite (-q)
  | .infinite negative => .infinite !negative
  | .nan => .nan

instance : Add Number := ⟨add⟩

instance : Neg Number := ⟨neg⟩

instance : Sub Number := ⟨fun x y => x + -y⟩

/-- Zero for NaN. -/
def orZero : Number → Number
  | .nan => .finite 0
  | x => x

theorem sub_eq (x y : Number) : x - y = x + -y := rfl

@[simp] theorem neg_neg (x : Number) : - -x = x := by
  cases x with
  | finite q => exact congrArg finite (Rat.neg_neg q)
  | infinite negative => exact congrArg infinite (Bool.not_not negative)
  | nan => rfl

@[simp] theorem nan_add (x : Number) : nan + x = nan := by
  cases x <;> rfl

theorem finite_add_ne_nan (p q : ℚ) : (finite p + finite q : Number) ≠ nan :=
  Number.noConfusion

theorem orZero_of_ne {x : Number} (h : x ≠ nan) : x.orZero = x := by
  cases x with
  | nan => exact absurd rfl h
  | _ => rfl

theorem ofDouble_neg {x : Binary64} (h : x.isFinite = true) : ofDouble (-x) = -ofDouble x := by
  cases x with
  | finite negative units =>
    refine congrArg finite ?_
    cases negative <;> simp [Binary64.signed, neg_div]
  | _ => cases h

end Number

/-! ### Conversion of texts -/

/-- White space and line ends around a number in a text. -/
def blanks : List Nat :=
  [0x9, 0xA, 0xB, 0xC, 0xD, 0x20, 0xA0, 0x1680, 0x2000, 0x2001, 0x2002, 0x2003, 0x2004, 0x2005,
    0x2006, 0x2007, 0x2008, 0x2009, 0x200A, 0x2028, 0x2029, 0x202F, 0x205F, 0x3000, 0xFEFF]

def isBlank (c : Char) : Bool :=
  blanks.contains c.toNat

def isAscii (c : Char) : Bool :=
  c.toNat < 128

/-- A text without the blanks at both ends. -/
def trim (cs : List Char) : List Char :=
  ((cs.dropWhile isBlank).reverse.dropWhile isBlank).reverse

/-- The number that a text is converted to: a decimal with ASCII digits, an integer of another base,
an infinity; zero for a text of blanks, and NaN for any other. -/
def Number.ofText (s : String) : Number :=
  let cs := trim s.toList
  if cs.isEmpty then .finite 0
  else if !cs.all isAscii then .nan
  else match Literal.decimal? cs, Literal.based? cs with
    | some x, _ => .ofDouble x
    | none, some n => .ofDouble (.ofRatio false n 1)
    | none, none =>
      if cs = "Infinity".toList ∨ cs = "+Infinity".toList then .infinite false
      else if cs = "-Infinity".toList then .infinite true
      else .nan

/-- A value that a variable can hold. -/
inductive Val where
  | number (n : Number)
  | text (s : String)
  | truth (b : Bool)
  deriving DecidableEq

namespace Val

def isText : Val → Bool
  | .text _ => true
  | _ => false

/-- The number that an operator takes a value for. -/
def toNumber : Val → Number
  | .number n => n
  | .text s => .ofText s
  | .truth b => .finite (if b then 1 else 0)

/-- The number that Scratch takes a value for. -/
def cast (v : Val) : Number :=
  v.toNumber.orZero

end Val

example :
    Val.toNumber (.text " 1.5e1 ") = .finite 15 ∧ Val.toNumber (.text "٣") = .nan ∧
    Val.cast (.text "cat") = .finite 0 := by
  decide +kernel

/-! ### Numbers in source -/

/-- A zero in front of another digit. -/
def leadsWithZero : List Char → Bool
  | '0' :: c :: _ => c.isDigit
  | _ => false

/-- A numeric literal: a decimal of ASCII characters without a zero too many in front. -/
def literal? (cs : List Char) : Option Number :=
  if cs.all isAscii && !leadsWithZero cs then (Literal.unsignedDecimal? false cs).map .ofDouble else
    none

/-- A number in source: a literal, or the negative of one, in parentheses or not. -/
def number? : List Char → Option Number
  | '(' :: cs => if cs.getLast? = some ')' then signed? cs.dropLast else none
  | cs => signed? cs
where
  signed? : List Char → Option Number
    | '-' :: cs => (literal? cs).map .neg
    | cs => literal? cs

theorem isAscii_of_numeral {c : Char} (h : c.isDigit = true ∨ c ∈ numeralMarks) :
    isAscii c = true := by
  rcases h with h | h
  · have hle := (Char.isDigit_iff_toNat.1 h).2
    simp only [isAscii, decide_eq_true_eq]
    exact hle.trans_lt (by decide)
  · have hmarks : numeralMarks.all isAscii = true := by decide
    exact List.all_eq_true.1 hmarks c h

open Literal (numberLiteral)
open Binary64 (IsDouble)

theorem literal?_numberLiteral {units : Nat} (h : IsDouble (.finite false units)) :
    literal? (numberLiteral (.finite false units)).toList =
      some (.ofDouble (.finite false units)) := by
  have hascii : (numberLiteral (.finite false units)).toList.all isAscii = true :=
    List.all_eq_true.2 fun c hc => isAscii_of_numeral (Literal.mem_numberLiteral hc)
  have hzero : leadsWithZero (numberLiteral (.finite false units)).toList = false := by
    obtain ⟨c, rest, heq, hhead⟩ := Literal.head_numberLiteral h
    rw [heq]
    unfold leadsWithZero
    split
    · rename_i d tail hcons
      cases hcons
      rw [hhead rfl d rfl]
      rfl
    · rfl
  rw [literal?, hascii, hzero, Literal.unsignedDecimal?_numberLiteral false h]
  rfl

theorem number?_of_head {cs : List Char} (h : cs.head? ≠ some '(') :
    number? cs = number?.signed? cs := by
  unfold number?
  split
  · exact absurd rfl h
  · rfl

theorem head_numeral_ne {units : Nat} {negative : Bool} {m : Char}
    (hm : ¬ (m.isDigit = true ∨ m ∈ numeralMarks)) :
    (numberLiteral (.finite negative units)).toList.head? ≠ some m :=
  fun heq => hm (Literal.mem_numberLiteral (List.mem_of_mem_head? heq))

theorem literal?_minus (cs : List Char) : literal? ('-' :: cs) = none := by
  have hminus : Text.isDigit '-' = false := by decide
  simp [literal?, Literal.unsignedDecimal?, Literal.splitFraction, hminus]

theorem signed?_of_literal? {cs : List Char} {n : Number} (h : literal? cs = some n) :
    number?.signed? cs = some n := by
  unfold number?.signed?
  split
  · rw [literal?_minus] at h
    cases h
  · exact h

/-- A literal is read as the number that it was made from. -/
theorem signed?_numberLiteral {x : Binary64} (hfinite : x.isFinite = true) (h : x.IsDouble) :
    number?.signed? (numberLiteral x).toList = some (.ofDouble x) := by
  cases x with
  | finite negative units =>
    have hread : literal? (numberLiteral (.finite false units)).toList = _ :=
      literal?_numberLiteral h
    rcases Nat.eq_zero_or_pos units with rfl | hpos
    · have hzero : Number.ofDouble (.finite negative 0) = Number.ofDouble (.finite false 0) := by
        cases negative <;> rfl
      rw [Literal.numberLiteral_zero] at hread ⊢
      rw [hzero]
      exact signed?_of_literal? hread
    cases negative with
    | false => exact signed?_of_literal? hread
    | true =>
      have hminus :
          (numberLiteral (.finite true units)).toList =
          '-' :: (numberLiteral (.finite false units)).toList := by
        rw [Literal.toList_numberLiteral units hpos, Literal.toList_numberLiteral units hpos]
        rfl
      rw [hminus, number?.signed?, hread, Option.map_some, Option.some.injEq]
      exact (Number.ofDouble_neg (x := .finite false units) rfl).symm
  | _ => cases hfinite

theorem number?_numberLiteral {x : Binary64} (hfinite : x.isFinite = true) (h : x.IsDouble) :
    number? (numberLiteral x).toList = some (.ofDouble x) := by
  rw [number?_of_head, signed?_numberLiteral hfinite h]
  cases x with
  | finite negative units => exact head_numeral_ne (by decide)
  | _ => cases hfinite

/-- Parentheses around a number do not matter. -/
theorem number?_paren {x : Binary64} (hfinite : x.isFinite = true) (h : x.IsDouble) :
    number? (Source.paren (numberLiteral x)).toList = some (.ofDouble x) := by
  unfold Source.paren
  split_ifs
  · exact number?_numberLiteral hfinite h
  · have hlist :
      ("(" ++ numberLiteral x ++ ")").toList = '(' :: ((numberLiteral x).toList ++ [')']) := by simp
    rw [hlist, number?, if_pos (by simp), List.dropLast_concat, signed?_numberLiteral hfinite h]

end ScratchExport.Execution
