import ScratchExport.Literal.Source

/-!
# Colours

A colour comes as a record with the fields `r`, `g`, `b`, as three numbers, or as text with six
hexadecimal digits. `ofText` is the reading of project files; `source` is the expression that makes
the colour at run time, for which anything that is no colour is taken as a colour number.
-/

namespace ScratchExport.Literal.Color

/-- A number made whole, toward zero; text is read as an integer. -/
def whole : Value → Except Fault Int
  | .bool b => .ok (if b then 1 else 0)
  | .int i => .ok i
  | .float x => match x.truncate? with
    | some i => .ok i
    | none => .error (if x.isNaN then .badNumeral else .tooLarge)
  | .text s => match Text.integer? 10 s.toList with
    | some i => .ok i
    | none => .error .badNumeral
  | .null | .list _ | .record _ | .rgb .. | .described _ => .error .notANumber

/-- The value of two ASCII hexadecimal digits. -/
def hexPair? (a b : Char) : Option Int := do
  return (← Json.hexValue? a) * 16 + (← Json.hexValue? b)

/-- Exactly six hexadecimal digits. -/
def sixDigits? : List Char → Option (Int × Int × Int)
  | [a, b, c, d, e, f] => do return (← hexPair? a b, ← hexPair? c d, ← hexPair? e f)
  | _ => none

/-- Six hexadecimal digits, with or without `#` in front. -/
def ofHex? : List Char → Option (Int × Int × Int)
  | '#' :: rest => sixDigits? rest
  | cs => sixDigits? cs

/-- Red, green and blue made whole. -/
def components (red green blue : Value) : Except Fault (Option (Int × Int × Int)) := do
  let r ← whole red
  let g ← whole green
  let b ← whole blue
  return some (r, g, b)

/-- The components of a colour value, if it is one. -/
def components? : Value → Except Fault (Option (Int × Int × Int))
  | .record fields =>
    match fields.lookup "r", fields.lookup "g", fields.lookup "b" with
    | some r, some g, some b => components r g b
    | _, _, _ => .ok none
  | .list [r, g, b] => components r g b
  | .rgb r g b => .ok (some (r, g, b))
  | .text s => .ok (ofHex? (Text.trim s.toList))
  | _ => .ok none

/-- The expression that makes a colour. -/
def source (v : Value) : Except Fault String := do
  match ← components? v with
  | some (r, g, b) =>
    return "Color.rgb(" ++ toString r ++ ", " ++ toString g ++ ", " ++ toString b ++ ")"
  | none => return "Color.num(" ++ (← initial v) ++ ")"

/-- A colour text of a project file: three numerals of two characters each, or else the
text itself. -/
def ofText (v : Value) : Value :=
  let s := v.display
  match s.toList.dropWhile (· == '#') with
  | [a, b, c, d, e, f] =>
    match Text.integer? 16 [a, b], Text.integer? 16 [c, d], Text.integer? 16 [e, f] with
    | some red, some green, some blue => .rgb red green blue
    | _, _, _ => .text s
  | _ => .text s

end ScratchExport.Literal.Color
