import ScratchExport.Binary64.Decimal
import ScratchExport.Text.Quoted
import ScratchExport.Value.Basic

/-!
# The text of a value

`Value.display` is how a value appears inside a message or a path: a text stands for itself, lists
and records show their members in brackets with texts quoted. `Value.json` is the value as JSON
text.
-/

namespace ScratchExport.Value

mutual
/-- A value as a member of a list or record: like its text, but texts are quoted. -/
def quoted : Value → String
  | .null => "None"
  | .bool b => if b then "True" else "False"
  | .int i => toString i
  | .float x => x.text
  | .text s => Text.quoted s
  | .list items => "[" ++ ", ".intercalate (quotedItems items) ++ "]"
  | .record fields => "\x7b" ++ ", ".intercalate (quotedFields fields) ++ "\x7d"
  | .rgb r g b => "(" ++ toString r ++ ", " ++ toString g ++ ", " ++ toString b ++ ")"
  | .described s => s

def quotedItems : List Value → List String
  | [] => []
  | x :: rest => quoted x :: quotedItems rest

def quotedFields : List (String × Value) → List String
  | [] => []
  | (k, x) :: rest => (Text.quoted k ++ ": " ++ quoted x) :: quotedFields rest
end

/-- The text of a value. -/
def display : Value → String
  | .text s => s
  | v => v.quoted

mutual
/-- The value as JSON text. -/
def json : Value → String
  | .null => "null"
  | .bool b => if b then "true" else "false"
  | .int i => toString i
  | .float .nan => "NaN"
  | .float (.infinite negative) => if negative then "-Infinity" else "Infinity"
  | .float x => x.text
  | .text s => Text.literal s
  | .list items => "[" ++ ", ".intercalate (jsonItems items) ++ "]"
  | .record fields => "\x7b" ++ ", ".intercalate (jsonFields fields) ++ "\x7d"
  | .rgb r g b => "[" ++ toString r ++ ", " ++ toString g ++ ", " ++ toString b ++ "]"
  | .described s => Text.literal s

def jsonItems : List Value → List String
  | [] => []
  | x :: rest => json x :: jsonItems rest

def jsonFields : List (String × Value) → List String
  | [] => []
  | (k, x) :: rest => (Text.literal k ++ ": " ++ json x) :: jsonFields rest
end

end ScratchExport.Value
