import ScratchExport.Assoc
import ScratchExport.Binary64.Decimal
import ScratchExport.Value.Basic

/-!
# Reading JSON

`Json.read?` reads a JSON text as a `Value`. Fields keep their order; a repeated key keeps its first
place and its last value. Numbers without fraction and exponent are integers of any size, all others
are doubles. Next to the JSON grammar the bare words `NaN`, `Infinity` and `-Infinity` are accepted.

Each reader takes characters from the front and gives what it read with the characters that are
left. Of any two steps in a row one takes a character, so twice the length of the text bounds the
recursion.
-/

namespace ScratchExport.Json

/-- The blanks of JSON. -/
def isBlank (c : Char) : Bool :=
  c == ' ' || c == '\t' || c == '\n' || c == '\r'

def skipBlanks (cs : List Char) : List Char :=
  cs.dropWhile isBlank

/-- The value of a hexadecimal digit. -/
def hexValue? (c : Char) : Option Nat :=
  if c.isDigit then some (c.toNat - 48)
  else if 'a' ≤ c && c ≤ 'f' then some (c.toNat - 87)
  else if 'A' ≤ c && c ≤ 'F' then some (c.toNat - 55)
  else none

/-- Four hexadecimal digits. -/
def hexUnit : List Char → Option (Nat × List Char)
  | a :: b :: c :: d :: rest => do
    let a ← hexValue? a
    let b ← hexValue? b
    let c ← hexValue? c
    let d ← hexValue? d
    return (((a * 16 + b) * 16 + c) * 16 + d, rest)
  | _ => none

/-- The character of a `\u` escape whose digits come next; two units may make up one character. -/
def unicodeEscape (cs : List Char) : Option (Char × List Char) := do
  let (high, rest) ← hexUnit cs
  if 0xD800 ≤ high && high < 0xDC00 then
    match rest with
    | '\\' :: 'u' :: more =>
      match hexUnit more with
      | some (low, rest') =>
        if 0xDC00 ≤ low && low < 0xE000 then
          return (Char.ofNat (0x10000 + (high - 0xD800) * 0x400 + (low - 0xDC00)), rest')
        else return ('�', rest)
      | none => return ('�', rest)
    | _ => return ('�', rest)
  else if 0xDC00 ≤ high && high < 0xE000 then return ('�', rest)
  else return (Char.ofNat high, rest)

/-- The character that a short escape stands for. -/
def shortEscape? : Char → Option Char
  | '"' => some '"'
  | '\\' => some '\\'
  | '/' => some '/'
  | 'b' => some '\x08'
  | 'f' => some '\x0c'
  | 'n' => some '\n'
  | 'r' => some '\r'
  | 't' => some '\t'
  | _ => none

/-- The characters of a string up to its closing quote. -/
def stringTail : Nat → List Char → Option (List Char × List Char)
  | 0, _ => none
  | fuel + 1, cs =>
    match cs with
    | [] => none
    | '"' :: rest => some ([], rest)
    | '\\' :: 'u' :: rest => do
      let (c, rest) ← unicodeEscape rest
      let (tail, rest) ← stringTail fuel rest
      return (c :: tail, rest)
    | '\\' :: e :: rest => do
      let c ← shortEscape? e
      let (tail, rest) ← stringTail fuel rest
      return (c :: tail, rest)
    | c :: rest =>
      if c.toNat < 0x20 || c == '\\' then none
      else do
        let (tail, rest) ← stringTail fuel rest
        return (c :: tail, rest)

/-- The digits of an integer: a single zero, or digits that do not start with one. -/
def wholeDigits (cs : List Char) : Option (List Char × List Char) :=
  match cs with
  | '0' :: rest => some (['0'], rest)
  | c :: _ =>
    if c.isDigit then some (cs.takeWhile Char.isDigit, cs.dropWhile Char.isDigit) else none
  | [] => none

/-- The digits after a decimal point, when there are any. -/
def fractionDigits (cs : List Char) : List Char × List Char :=
  match cs with
  | '.' :: rest =>
    let digits := rest.takeWhile Char.isDigit
    if digits.isEmpty then ([], cs) else (digits, rest.dropWhile Char.isDigit)
  | _ => ([], cs)

/-- The exponent, when there is one. -/
def exponentPart (cs : List Char) : Option Int × List Char :=
  match cs with
  | e :: rest =>
    if e == 'e' || e == 'E' then
      let (negative, rest) := match rest with
        | '-' :: more => (true, more)
        | '+' :: more => (false, more)
        | _ => (false, rest)
      let digits := rest.takeWhile Char.isDigit
      if digits.isEmpty then (none, cs)
      else
        let n := Text.digitsValue digits
        (some (if negative then -(n : Int) else n), rest.dropWhile Char.isDigit)
    else (none, cs)
  | [] => (none, cs)

/-- An unsigned number. -/
def number (negative : Bool) (cs : List Char) : Option (Value × List Char) := do
  let (whole, rest) ← wholeDigits cs
  let (fraction, rest) := fractionDigits rest
  let (exponent, rest) := exponentPart rest
  if fraction.isEmpty && exponent.isNone then
    let n : Int := Text.digitsValue whole
    return (.int (if negative then -n else n), rest)
  else return (.float (.ofDigits negative whole fraction (exponent.getD 0)), rest)

/-- The rest after a word, if the text starts with it. -/
def word? : List Char → List Char → Option (List Char)
  | [], cs => some cs
  | w :: ws, c :: cs => if w == c then word? ws cs else none
  | _ :: _, [] => none

/-- The bare words and the values they stand for. -/
def words : List (String × Value) :=
  [("null", .null), ("true", .bool true), ("false", .bool false), ("NaN", .float .nan),
    ("Infinity", .float (.infinite false)), ("-Infinity", .float (.infinite true))]

/-- A bare word or a number. -/
def scalar (cs : List Char) : Option (Value × List Char) :=
  match words.findSome? fun (w, v) => (word? w.toList cs).map (v, ·) with
  | some found => some found
  | none => match cs with
    | '-' :: rest => number true rest
    | _ => number false cs

mutual
/-- A value, at the front of the text. -/
def value : Nat → List Char → Option (Value × List Char)
  | 0, _ => none
  | fuel + 1, cs =>
    match cs with
    | '"' :: rest => do
      let (s, rest) ← stringTail fuel rest
      return (.text (String.ofList s), rest)
    | '[' :: rest =>
      match skipBlanks rest with
      | ']' :: rest => some (.list [], rest)
      | rest => do
        let (items, rest) ← items fuel rest
        return (.list items, rest)
    | '\x7b' :: rest =>
      match skipBlanks rest with
      | '\x7d' :: rest => some (.record [], rest)
      | rest => do
        let (fields, rest) ← fields fuel rest
        return (.record (Assoc.ofList fields), rest)
    | _ => scalar cs

/-- The members of a list, up to and with the closing bracket. -/
def items : Nat → List Char → Option (List Value × List Char)
  | 0, _ => none
  | fuel + 1, cs => do
    let (v, rest) ← value fuel cs
    match skipBlanks rest with
    | ']' :: rest => return ([v], rest)
    | ',' :: rest =>
      let (vs, rest) ← items fuel (skipBlanks rest)
      return (v :: vs, rest)
    | _ => none

/-- The fields of a record, up to and with the closing brace. -/
def fields : Nat → List Char → Option (List (String × Value) × List Char)
  | 0, _ => none
  | fuel + 1, cs =>
    match cs with
    | '"' :: rest => do
      let (key, rest) ← stringTail fuel rest
      match skipBlanks rest with
      | ':' :: rest =>
        let (v, rest) ← value fuel (skipBlanks rest)
        match skipBlanks rest with
        | '\x7d' :: rest => return ([(String.ofList key, v)], rest)
        | ',' :: rest =>
          let (more, rest) ← fields fuel (skipBlanks rest)
          return ((String.ofList key, v) :: more, rest)
        | _ => none
      | _ => none
    | _ => none
end

/-- The value that a JSON text writes. -/
def read? (s : String) : Option Value := do
  let cs := s.toList
  let (v, rest) ← value (2 * cs.length + 2) (skipBlanks cs)
  if (skipBlanks rest).isEmpty then some v else none

/-- Read JSON from an untyped value, which has to be text. -/
def readValue : Value → Except Fault Value
  | .text s => match read? s with
    | some v => .ok v
    | none => .error .malformedJson
  | _ => .error .notText

end ScratchExport.Json
