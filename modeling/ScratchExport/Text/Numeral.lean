import ScratchExport.Text.Blank
import ScratchExport.Text.Digit

/-!
# Integer numerals

The text of an integer in some base: blanks around it, an optional sign, for base sixteen an
optional `0x`, and digits with at most one underscore between two of them. Decimal digits of every
script count. The information separators U+001C to U+001F are blank elsewhere, but not around a
numeral.
-/

namespace ScratchExport.Text

/-- Blanks that may stand around a numeral. -/
def isNumeralBlank (c : Char) : Bool :=
  isBlank c && !(28 ≤ c.toNat && c.toNat ≤ 31)

/-- The value of a digit in a base up to 36. -/
def baseDigit? (base : Nat) (c : Char) : Option Nat :=
  let value? :=
    match digitValue? c with
    | some d => some d
    | none =>
      if 'a' ≤ c && c ≤ 'z' then some (c.toNat - 87)
      else if 'A' ≤ c && c ≤ 'Z' then some (c.toNat - 55)
      else none
  value?.filter (· < base)

/-- Digits with single underscores between them; `afterDigit` tells whether a digit came just
before. -/
def groupedDigits? (base : Nat) : Bool → Nat → List Char → Option Nat
  | afterDigit, n, [] => if afterDigit then some n else none
  | afterDigit, n, c :: rest =>
    if c == '_' then if afterDigit then groupedDigits? base false n rest else none
    else match baseDigit? base c with
      | some d => groupedDigits? base true (n * base + d) rest
      | none => none

/-- A numeral without sign, with the mark of base sixteen allowed in front. -/
def unsigned? (base : Nat) (cs : List Char) : Option Nat :=
  match cs with
  | '0' :: x :: rest =>
    if base == 16 && (x == 'x' || x == 'X') then
      match rest with
      | '_' :: rest => groupedDigits? base false 0 rest
      | _ => groupedDigits? base false 0 rest
    else groupedDigits? base false 0 cs
  | _ => groupedDigits? base false 0 cs

/-- A digit of any script as the ASCII digit of its value. -/
def plainDigit (c : Char) : Char :=
  match digitValue? c with
  | some d => Char.ofNat (48 + d)
  | none => c

/-- The integer that a numeral writes. -/
def integer? (base : Nat) (cs : List Char) : Option Int :=
  let cs := ((cs.dropWhile isNumeralBlank).reverse.dropWhile isNumeralBlank).reverse.map plainDigit
  match cs with
  | '-' :: rest => (unsigned? base rest).map fun n => -(n : Int)
  | '+' :: rest => (unsigned? base rest).map Int.ofNat
  | _ => (unsigned? base cs).map Int.ofNat

end ScratchExport.Text
