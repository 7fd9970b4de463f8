import ScratchExport.Binary64.Basic
import ScratchExport.Text.Digit

/-!
# Doubles and decimal notation

`ofDecimal` reads a decimal, correctly rounded. `shortest` finds the fewest significant digits that
read back as the same double, and among those the decimal nearest to it, a tie to the even last
digit. `text` lays the digits out: positional notation from 10⁻⁴ up to 10¹⁶, an exponent of at least
two digits outside.
-/

namespace ScratchExport.Binary64

/-- A decimal whose exponent is this far out is infinite or zero, whatever its digits. -/
def exponentBound : Int := 400

/-- The double nearest to `± digits · 10 ^ exponent`. -/
def ofDecimal (negative : Bool) (digits : Nat) (exponent : Int) : Binary64 :=
  let magnitude := exponent + (Text.decimal digits).length
  if digits == 0 || magnitude < -exponentBound then .finite negative 0
  else if exponentBound < magnitude then .infinite negative
  else if exponent < 0 then ofRatio negative digits (Nat.pow 10 exponent.natAbs)
  else ofRatio negative (digits * Nat.pow 10 exponent.natAbs) 1

/-- Scaling of a count of units by a power of ten: numerator and denominator of `units · 2⁻¹⁰⁷⁴ / 10
^ exponent`. -/
def scaled (units : Nat) (exponent : Int) : Nat × Nat :=
  if exponent < 0 then (units * Nat.pow 10 exponent.natAbs, one) else
    (units, one * Nat.pow 10 exponent.natAbs)

/-- The exponent `e` of the leading digit: `10 ^ e` is at or below the number and `10 ^ (e + 1)` is
above it. -/
def leadingExponent (units : Nat) : Int :=
  if one ≤ units then (Text.decimal (units / one)).length - 1
  else
    -- The number is below one: count the places until the first digit that is not zero.
    Int.negOfNat (((List.range 330).find? fun k => one ≤ units * Nat.pow 10 k).getD 330)

/-- The decimal with `count` significant digits that is nearest to a number and reads back as it. -/
def nearestWith (units count : Nat) (lead : Int) : Option (Nat × Int) :=
  let exponent := lead - (count - 1 : Nat)
  let (num, den) := scaled units exponent
  let below := num / den
  let readsBack := fun digits => ofDecimal false digits exponent == .finite false units
  match readsBack below, readsBack (below + 1) with
  | true, true => some (roundDiv num den, exponent)
  | true, false => some (below, exponent)
  | false, true => some (below + 1, exponent)
  | false, false => none

/-- Digits and exponent of the shortest decimal that reads back as `units`. -/
def shortest (units : Nat) : Nat × Int :=
  let lead := leadingExponent units
  ((List.range 17).findSome? fun k => nearestWith units (k + 1) lead).getD
    (roundDiv (scaled units (lead - 16)).1 (scaled units (lead - 16)).2, lead - 16)

/-- Digits without the zeros at the end, each zero moved to the exponent. -/
def trimZeros (digits : List Char) : List Char :=
  (digits.reverse.dropWhile (· == '0')).reverse

/-- The layout of significant digits whose leading digit has the exponent `lead`. -/
def layout (digits : List Char) (lead : Int) : List Char :=
  if 0 ≤ lead && lead < 16 then
    let whole := lead.natAbs + 1
    let rest := digits.drop whole
    digits.take whole ++ List.replicate (whole - digits.length) '0' ++
      '.' :: (if rest.isEmpty then ['0'] else rest)
  else if -4 ≤ lead && lead < 0 then
    '0' :: '.' :: List.replicate (lead.natAbs - 1) '0' ++ digits
  else
    let tail := digits.drop 1
    let exponent := Text.decimal lead.natAbs
    digits.take 1 ++ (if tail.isEmpty then [] else '.' :: tail)
      ++ 'e' :: (if lead < 0 then '-' else '+') :: List.replicate (2 - exponent.length) '0' ++
        exponent

/-- The text of a double. -/
def text : Binary64 → String
  | .nan => "nan"
  | .infinite negative => if negative then "-inf" else "inf"
  | .finite negative units =>
    let body :=
      if units == 0 then ['0', '.', '0']
      else
        let (digits, exponent) := shortest units
        let ds := Text.decimal digits
        layout (trimZeros ds) (exponent + (ds.length - 1 : Nat))
    String.ofList (if negative then '-' :: body else body)

/-- Decimal digits with an optional fraction, `.` left out: the digits and how many of them are
fractional. -/
def ofDigits (negative : Bool) (whole fraction : List Char) (exponent : Int) : Binary64 :=
  ofDecimal negative (Text.digitsValue (whole ++ fraction)) (exponent - fraction.length)

end ScratchExport.Binary64
