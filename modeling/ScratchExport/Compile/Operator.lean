import ScratchExport.Compile.Plan

/-!
# Operator blocks

Where an index is asked for, the one to subtract is folded into a literal operand of a sum or
difference. A quotient, a remainder or a function is known not to be NaN when its literal operands
show it.
-/

namespace ScratchExport.Compile

/-- One as a double. -/
def oneDouble : Binary64 := .ofNat 1

/-- A source with a literal offset behind it; a zero offset leaves no trace. -/
def offsetPhrase (slot : String) (offset : Binary64) : Phrase :=
  let operand := Phrase.operand slot .numberNotNaN
  if Binary64.lt (.finite false 0) offset then operand ++ " + " ++ .number offset
  else if offset.lt (.finite false 0) then operand ++ " - " ++ .number (-offset)
  else operand

/-- The offset that a literal operand makes of the one to subtract. -/
def absorbedOffset (subtract : Bool) (literal : Binary64) : Binary64 :=
  (if subtract then -literal else literal) - oneDouble

/-- A sum or difference as an index, with the one to subtract folded into a literal operand if there
is one. -/
def indexAbsorbed? (slots : Slots) (subtract : Bool) : Except Fault (Option Plan) := do
  let left ← slots.literalNumber "NUM1"
  let right ← slots.literalNumber "NUM2"
  match left, right with
  | some a, some b =>
    let value := if subtract then a - b else a + b
    return if value.isFinite then some (.phrase (.number (value - oneDouble)) .index) else none
  | _, _ =>
    let sides := if subtract then [("NUM1", right)] else [("NUM1", right), ("NUM2", left)]
    return sides.findSome? fun (slot, literal) =>
      match literal with
      | some x =>
        if x.isInteger && slots.hasBlock slot then
          some (.phrase (offsetPhrase slot (absorbedOffset subtract x)) .index)
        else none
      | none => none

/-- Two operands with an operator between them. -/
def binary (left right : String) (operator : String) (operandShape shape : Shape) : Plan :=
  .phrase (.operand left operandShape ++ Phrase.text (" " ++ operator ++ " ")
    ++ .operand right operandShape) shape

/-- An arithmetic operator. -/
def arithmetic (operator : String) (shape : Shape) : Plan :=
  binary "NUM1" "NUM2" operator .numberNotNaN shape

/-- A sum or difference. -/
def additive (slots : Slots) (desired : Shape) (subtract : Bool) (operator : String) :
    Except Fault Plan := do
  let absorbed ← if desired == .index then indexAbsorbed? slots subtract else pure none
  return absorbed.getD (arithmetic operator .numberNotNaN)

/-- A literal that is finite and not zero. -/
def isNonzeroFinite (x : Option Binary64) : Bool :=
  x.any fun x => x.isFinite && !x.isZero

/-- A number, known not to be NaN or not. -/
def numberShape (neverNaN : Bool) : Shape :=
  if neverNaN then .numberNotNaN else .number

/-- Two values to compare at run time. -/
def comparison (relation : String) : Plan :=
  .phrase ("this.compare(" ++ any "OPERAND1" ++ ", " ++ any "OPERAND2" ++ ")" ++ relation) .boolean

/-- Equality: with a number when one side is a literal number, of texts otherwise. -/
def equality (slots : Slots) : Except Fault Plan :=
  if slots.hasBlock "OPERAND1" && slots.hasBlock "OPERAND2" then .ok (comparison " === 0")
  else do
    let first ← slots.literalNumber "OPERAND1"
    let second ← slots.literalNumber "OPERAND2"
    match first, second with
    | some x, _ => return .phrase (.number x ++ " === " ++ .operand "OPERAND2" .number) .boolean
    | none, some y =>
      return .phrase (.operand "OPERAND1" .number ++ " === " ++ .number y) .boolean
    | none, none => return binary "OPERAND1" "OPERAND2" "===" .string .boolean

/-- A function of one number. -/
structure MathFunction where
  /-- What stands around the operand. -/
  before : String
  after : String
  /-- The operand is an operand of an operator. -/
  inOperator : Bool
  /-- The result is never NaN. -/
  neverNaN : Bool
  /-- The literals at which the result is a finite number. -/
  finiteAt : Binary64 → Bool

/-- At least zero. -/
def atLeastZero (x : Binary64) : Bool :=
  x.isFinite && !x.lt (.finite false 0)

/-- Above zero. -/
def aboveZero (x : Binary64) : Bool :=
  x.isFinite && Binary64.lt (.finite false 0) x

/-- Between minus one and one. -/
def withinOne (x : Binary64) : Bool :=
  x.isFinite && !oneDouble.lt x && !x.lt (-oneDouble)

/-- The functions that the menu of the function block offers. -/
def mathFunction? : Value → Option MathFunction
  | .text "abs" => some ⟨"Math.abs(", ")", false, true, fun _ => false⟩
  | .text "floor" => some ⟨"Math.floor(", ")", false, true, fun _ => false⟩
  | .text "ceiling" => some ⟨"Math.ceil(", ")", false, true, fun _ => false⟩
  | .text "sqrt" => some ⟨"Math.sqrt(", ")", false, false, atLeastZero⟩
  | .text "sin" => some ⟨"Math.sin(this.degToRad(", "))", false, false, Binary64.isFinite⟩
  | .text "cos" => some ⟨"Math.cos(this.degToRad(", "))", false, false, Binary64.isFinite⟩
  | .text "tan" => some ⟨"Math.tan(this.degToRad(", "))", false, false, Binary64.isFinite⟩
  | .text "asin" => some ⟨"this.radToDeg(Math.asin(", "))", false, false, withinOne⟩
  | .text "acos" => some ⟨"this.radToDeg(Math.acos(", "))", false, false, withinOne⟩
  | .text "atan" => some ⟨"this.radToDeg(Math.atan(", "))", false, true, fun _ => false⟩
  | .text "ln" => some ⟨"Math.log(", ")", false, false, aboveZero⟩
  | .text "log" => some ⟨"Math.log10(", ")", false, false, aboveZero⟩
  | .text "e ^" => some ⟨"Math.E ** ", "", true, true, fun _ => false⟩
  | .text "10 ^" => some ⟨"10 ** ", "", true, true, fun _ => false⟩
  | _ => none

/-- A function of one number. -/
def mathPlan (slots : Slots) : Except Fault Plan := do
  let choice ← slots.choice "OPERATOR"
  match mathFunction? (← choice.asKey) with
  | none => return .placeholder ("mathop " ++ choice.display)
  | some f =>
    let operand : Phrase := if f.inOperator then .operand "NUM" .numberNotNaN else num "NUM"
    let literal ← if f.neverNaN then pure none else slots.literalNumber "NUM"
    return .phrase (f.before ++ operand ++ f.after)
      (numberShape (f.neverNaN || literal.any f.finiteAt))

/-- What becomes of an operator block. -/
def operator (slots : Slots) (desired : Shape) : Operator → Except Fault Plan
  | .add => additive slots desired false "+"
  | .subtract => additive slots desired true "-"
  | .multiply => .ok (arithmetic "*" .numberNotNaN)
  | .divide => do
    let dividend ← slots.literalNumber "NUM1"
    let divisor ← slots.literalNumber "NUM2"
    return arithmetic "/" (numberShape (isNonzeroFinite divisor || isNonzeroFinite dividend))
  | .mod => do
    let dividend ← slots.literalNumber "NUM1"
    let divisor ← slots.literalNumber "NUM2"
    return arithmetic "%" (numberShape (isNonzeroFinite divisor && dividend.any Binary64.isFinite))
  | .random => .ok (.phrase ("this.random(" ++ num "FROM" ++ ", " ++ num "TO" ++ ")") .numberNotNaN)
  | .greaterThan => .ok (comparison " > 0")
  | .lessThan => .ok (comparison " < 0")
  | .equals => equality slots
  | .and => .ok (binary "OPERAND1" "OPERAND2" "&&" .boolean .boolean)
  | .or => .ok (binary "OPERAND1" "OPERAND2" "||" .boolean .boolean)
  | .not => .ok (.phrase ("!" ++ .operand "OPERAND" .boolean) .boolean)
  | .join => .ok (binary "STRING1" "STRING2" "+" .string .string)
  | .letterOf =>
    .ok (.phrase ("this.letterOf(" ++ .after (any "STRING" ++ ", ") (.input "LETTER" .index) ++ ")")
      .string)
  | .length => .ok (.phrase (.operand "STRING" .string ++ ".length") .numberNotNaN)
  | .contains =>
    .ok (.phrase ("this.stringIncludes(" ++ str "STRING1" ++ ", " ++ str "STRING2" ++ ")") .boolean)
  | .round => .ok (.phrase ("Math.round(" ++ num "NUM" ++ ")") .numberNotNaN)
  | .mathOp => mathPlan slots

end ScratchExport.Compile
