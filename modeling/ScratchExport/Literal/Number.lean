import ScratchExport.Binary64.Decimal
import ScratchExport.Json.Reader
import ScratchExport.Text.Blank
import ScratchExport.Text.Numeral
import ScratchExport.Value.Text

/-!
# Numbers in literals

A literal typed into a block is text, and it is a number when JavaScript would read it as one: a
decimal with optional sign, fraction and exponent, an unsigned `0x`, `0o` or `0b` integer, or a
signed infinity, with blanks around it. `numberLiteral` writes a double as JavaScript source.
-/

namespace ScratchExport.Literal

/-- Whether a minus stands in front, and what is behind the sign. -/
def splitSign : List Char → Bool × List Char
  | '-' :: rest => (true, rest)
  | '+' :: rest => (false, rest)
  | cs => (false, cs)

/-- The digits behind a point, and what follows them. -/
def splitFraction : List Char → List Char × List Char
  | '.' :: rest => (rest.takeWhile Text.isDigit, rest.dropWhile Text.isDigit)
  | cs => ([], cs)

/-- The exponent part of a decimal, which is the whole rest of the text or missing. -/
def exponent? : List Char → Option Int
  | [] => some 0
  | e :: rest =>
    let (negative, digits) := splitSign rest
    if (e == 'e' || e == 'E') && !digits.isEmpty && digits.all Text.isDigit then
      some (if negative then -(Text.digitsValue digits : Int) else Text.digitsValue digits)
    else none

/-- A decimal without sign: digits, a point with or without digits on one side of it,
an exponent. -/
def unsignedDecimal? (negative : Bool) (cs : List Char) : Option Binary64 :=
  let whole := cs.takeWhile Text.isDigit
  let (fraction, rest) := splitFraction (cs.dropWhile Text.isDigit)
  if whole.isEmpty && fraction.isEmpty then none
  else (exponent? rest).map (.ofDigits negative whole fraction ·)

/-- A decimal with an optional sign. -/
def decimal? (cs : List Char) : Option Binary64 :=
  let (negative, rest) := splitSign cs
  unsignedDecimal? negative rest

/-- The base that the second character of a based integer names. -/
def baseOf? (c : Char) : Option Nat :=
  if c == 'x' || c == 'X' then some 16
  else if c == 'o' || c == 'O' then some 8
  else if c == 'b' || c == 'B' then some 2
  else none

/-- Digits of a base, with ASCII digits only; at least one. -/
def basedDigits? (base : Nat) (cs : List Char) : Option Nat :=
  if cs.isEmpty then none
  else cs.foldlM (fun n c => (Json.hexValue? c).filter (· < base) |>.map (n * base + ·)) 0

/-- An unsigned integer after `0x`, `0o` or `0b`. -/
def based? (cs : List Char) : Option Nat :=
  match cs with
  | '0' :: b :: rest => do basedDigits? (← baseOf? b) rest
  | _ => none

/-- The number that a text writes, if any. -/
def ofText (s : String) : Except Fault (Option Binary64) :=
  let cs := Text.trim s.toList
  match decimal? cs with
  | some x => .ok (some x)
  | none => match based? cs with
    | some n => do return some (← Value.double n)
    | none =>
      if cs == "Infinity".toList || cs == "+Infinity".toList then .ok (some (.infinite false))
      else if cs == "-Infinity".toList then .ok (some (.infinite true))
      else .ok none

/-- The number that a value is, if any; NaN, truth values and what has members are none. -/
def number? : Value → Except Fault (Option Binary64)
  | .int i => do return some (← Value.double i)
  | .float x => .ok (if x.isNaN then none else some x)
  | .text s => ofText s
  | .null | .bool _ | .list _ | .record _ | .rgb .. | .described _ => .ok none

/-- The largest integer up to which every integer is a double. -/
def maxSafeInteger : Nat := Nat.pow 2 53 - 1

/-- An integer so large that its neighbours may be missing. -/
def isUnsafeInteger (x : Binary64) : Bool :=
  match x with
  | .finite _ units => x.isInteger && maxSafeInteger * Binary64.one < units
  | _ => false

/-- A double as JavaScript source. Zero has no sign here. -/
def numberLiteral (x : Binary64) : String :=
  match x with
  | .nan => "NaN"
  | .infinite negative => if negative then "-Infinity" else "Infinity"
  | .finite negative units =>
    if x.isInteger then toString (Binary64.signed negative (units / Binary64.one)) else x.text

/-- The number that Scratch takes a value for: true is one, what is no number is zero. -/
def castNumber : Value → Except Fault Binary64
  | .bool b => .ok (.finite false (if b then Binary64.one else 0))
  | v => do return (← number? v).getD (.finite false 0)

end ScratchExport.Literal
