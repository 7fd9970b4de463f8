/-!
# Shapes

The shape of a piece of source says what it evaluates to; a consumer asks for a shape and `coerce`
wraps the source in a conversion when it does not have that shape. `isAtomic` tells whether source
can be an operand as it stands: it scans for an operator outside brackets and quotes. A list index
counts from zero, so a number becomes an index by subtracting one.
-/

namespace ScratchExport

/-- What a piece of source evaluates to. -/
inductive Shape where
  | any
  | boolean
  | number
  /-- A number that cannot be NaN. -/
  | numberNotNaN
  /-- A position in a list, counted from zero. -/
  | index
  | string
  /-- Statements. -/
  | stack
  deriving DecidableEq

namespace Shape

def isNumeric : Shape → Bool
  | .number | .numberNotNaN => true
  | _ => false

/-- Source of the first shape can be used where the second is asked for. -/
def satisfies (produced desired : Shape) : Bool :=
  produced == desired || desired == .any || produced == .stack || desired == .stack
    || (produced == .numberNotNaN && desired == .number)

end Shape

namespace Source

/-- Where a scan of source stands: bracket depth, the quote that is open, and whether it follows a
backslash. -/
structure Scan where
  depth : Int
  quote : Option Char
  escaped : Bool
  deriving DecidableEq

/-- The scan at the start. -/
def Scan.start : Scan :=
  ⟨0, none, false⟩

/-- Characters that make up operators, the blank included. -/
def isOperator (c : Char) : Bool :=
  " +-*/%<>=!&|?:,".toList.contains c

/-- Scan one character; an operator outside brackets and quotes ends the scan. -/
def Scan.step (scan : Scan) (c : Char) : Option Scan :=
  match scan.quote with
  | some q =>
    if scan.escaped then some { scan with escaped := false }
    else if c == '\\' then some { scan with escaped := true }
    else if c == q then some { scan with quote := none }
    else some scan
  | none =>
    if c == '"' || c == '\'' || c == '\x60' then some { scan with quote := some c }
    else if c == '(' || c == '[' || c == '\x7b' then some { scan with depth := scan.depth + 1 }
    else if c == ')' || c == ']' || c == '\x7d' then some { scan with depth := scan.depth - 1 }
    else if scan.depth == 0 && isOperator c then none
    else some scan

/-- Scan characters from a state. -/
def Scan.run : Scan → List Char → Option Scan
  | scan, [] => some scan
  | scan, c :: rest => match scan.step c with
    | some next => next.run rest
    | none => none

/-- Source that can be an operand without parentheses. -/
def isAtomic (source : String) : Bool :=
  match source.toList with
  | [] => false
  | c :: rest => !(c == '-' || c == '+' || c == '!') && (Scan.start.run (c :: rest)).isSome

/-- Parentheses around source that is not atomic. -/
def paren (source : String) : String :=
  if isAtomic source then source else "(" ++ source ++ ")"

/-- Source of one shape made into source of another. -/
def coerce (source : String) (produced desired : Shape) : String :=
  if produced.satisfies desired then source
  else match desired with
    | .number | .numberNotNaN => "this.toNumber(" ++ source ++ ")"
    | .boolean => "this.toBoolean(" ++ source ++ ")"
    | .string => "this.toString(" ++ source ++ ")"
    | .index =>
      if produced.isNumeric then paren source ++ " - 1" else "this.toNumber(" ++ source ++ ") - 1"
    | .any | .stack => source

end Source

end ScratchExport
