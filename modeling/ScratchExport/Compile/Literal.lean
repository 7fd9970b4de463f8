import ScratchExport.Compile.Context
import ScratchExport.Literal.Source

/-!
# Literals as fragments

A literal is written in the tightest form for the shape that is asked for. An integer that is not
safe stays text, and an index is the literal less one.
-/

namespace ScratchExport.Compile

/-- A literal as text. -/
def textFragment (v : Value) : Except Fault Fragment := do
  return ⟨Text.literal (← Literal.spoken v), .string⟩

/-- A truth value as a literal. -/
def boolSource (b : Bool) : String :=
  if b then "true" else "false"

/-- A literal where any shape will do: a truth value, a finite number, or text. -/
def plainFragment (v : Value) (number : Option Binary64) : Except Fault Fragment :=
  match v, number with
  | .bool b, _ => .ok ⟨boolSource b, .boolean⟩
  | _, some x => if x.isFinite then .ok ⟨Literal.numberLiteral x, .numberNotNaN⟩ else textFragment v
  | _, none => textFragment v

/-- A literal for a shape. -/
def literalFragment (v : Value) (desired : Shape) : Except Fault Fragment :=
  match desired with
  | .string => textFragment v
  | .boolean => do return ⟨boolSource (← Literal.castBoolean v), .boolean⟩
  | _ => do
    let number ← Literal.number? v
    if number.any Literal.isUnsafeInteger then textFragment v
    else match desired with
      | .index => return ⟨Literal.numberLiteral ((← Literal.castNumber v) - .ofNat 1), .index⟩
      | .number | .numberNotNaN =>
        return ⟨Literal.numberLiteral (← Literal.castNumber v), .numberNotNaN⟩
      | _ => plainFragment v number

end ScratchExport.Compile
