import ScratchExport.Literal.Number
import ScratchExport.Text.Literal

/-!
# Values as JavaScript source

`spoken` is the text that Scratch shows for a value, and `initial` the tightest JavaScript literal
for the value a variable starts with. `castBoolean` is Scratch's cast to a truth value.
`commentText` keeps a text from ending the comment that it is put in, and `terminate` ends a
statement.
-/

namespace ScratchExport.Literal

/-- The text that Scratch shows for a value. -/
def spoken : Value → Except Fault String
  | .null => .ok ""
  | .bool b => .ok (if b then "true" else "false")
  | .int i => do return numberLiteral (← Value.double i)
  | .float x => .ok (numberLiteral x)
  | .text s => .ok s
  | v => .ok v.display

/-- Whether a number is written as a number: infinities and unsafe integers are kept as text. -/
def isPlain (x : Binary64) : Bool :=
  x.isFinite && !isUnsafeInteger x

/-- A value without members as a literal. -/
def initialScalar (v : Value) : Except Fault String := do
  match ← number? v with
  | some x => if isPlain x then return numberLiteral x else return Text.literal (← spoken v)
  | none => return Text.literal (← spoken v)

mutual
/-- The literal of an initial value. -/
def initial : Value → Except Fault String
  | .null => .ok "null"
  | .bool b => .ok (if b then "true" else "false")
  | .list items => do return "[" ++ ", ".intercalate (← initialItems items) ++ "]"
  | .record fields => do return "\x7b " ++ ", ".intercalate (← initialFields fields) ++ " \x7d"
  | .rgb r g b => do
    let red ← initialScalar (.int r)
    let green ← initialScalar (.int g)
    let blue ← initialScalar (.int b)
    return "[" ++ red ++ ", " ++ green ++ ", " ++ blue ++ "]"
  | .int i => initialScalar (.int i)
  | .float x => initialScalar (.float x)
  | .text s => initialScalar (.text s)
  | .described s => initialScalar (.described s)

def initialItems : List Value → Except Fault (List String)
  | [] => .ok []
  | v :: rest => do
    let first ← initial v
    let others ← initialItems rest
    return first :: others

def initialFields : List (String × Value) → Except Fault (List String)
  | [] => .ok []
  | (k, v) :: rest => do
    let first ← initial v
    let others ← initialFields rest
    return (k ++ ": " ++ first) :: others
end

/-- The letters of a text in ASCII lower case. -/
def asciiLower (s : String) : String :=
  String.ofList (s.toList.map Char.toLower)

/-- Scratch's cast of a text to a truth value: only an empty text, `0` and `false` in any case are
false. No other letter than an ASCII one has the lower case of a letter of `false`. -/
def textIsTrue (s : String) : Bool :=
  !s.isEmpty && s != "0" && asciiLower s != "false"

/-- Scratch's cast of a value to a truth value. -/
def castBoolean : Value → Except Fault Bool
  | .bool b => .ok b
  | .null => .ok false
  | .int i => if i == 0 then .ok false else do
    let _ ← Value.double i
    return true
  | .float x => .ok (!x.isZero && !x.isNaN)
  | v => .ok (textIsTrue v.display)

/-- Characters of a comment, with every comment end pulled apart. -/
def commentChars : List Char → List Char
  | [] => []
  | '*' :: '/' :: rest => '*' :: ' ' :: '/' :: commentChars rest
  | c :: rest => c :: commentChars rest

/-- A text that cannot end the comment around it. -/
def commentText (s : String) : String :=
  String.ofList (commentChars s.toList)

/-- A statement with its end mark; a statement that ends in a brace needs none. -/
def terminate (statement : String) : String :=
  match statement.toList.getLast? with
  | some '\x7d' | some ';' => statement
  | _ => statement ++ ";"

end ScratchExport.Literal
