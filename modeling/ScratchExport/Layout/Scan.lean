/-!
# Scanning a line of source

One pass over a line finds how many brackets it closes that earlier lines opened, how many it leaves
open, and what it leaves unfinished: a block comment or a template string. Brackets inside strings
and comments do not count, a line comment ends the scan, and a quoted string ends with its line.
-/

namespace ScratchExport.Layout

/-- What a line leaves unfinished for the next one. -/
structure Carry where
  inComment : Bool
  quote : Option Char
  deriving DecidableEq

/-- Nothing is unfinished. -/
def Carry.clean : Carry :=
  ⟨false, none⟩

/-- Only a template string lives on past the end of its line. -/
def Carry.endLine (carry : Carry) : Carry :=
  match carry.quote with
  | some '\x60' => carry
  | _ => { carry with quote := none }

/-- How many earlier brackets a line closes, and how many of its own it leaves open. -/
structure Brackets where
  closed : Nat
  opened : Nat
  deriving DecidableEq

def isOpener (c : Char) : Bool :=
  c == '(' || c == '[' || c == '\x7b'

def isCloser (c : Char) : Bool :=
  c == ')' || c == ']' || c == '\x7d'

/-- A quote of any kind. -/
def isQuote (c : Char) : Bool :=
  c == '"' || c == '\'' || c == '\x60'

/-- A closing bracket closes one of the same line if it can. -/
def Brackets.close (b : Brackets) : Brackets :=
  if b.opened == 0 then { b with closed := b.closed + 1 } else { b with opened := b.opened - 1 }

/-- Scan the characters of a line. -/
def scanFrom : Carry → Brackets → List Char → Carry × Brackets
  | carry, b, [] => (carry, b)
  | carry, b, c :: rest =>
    if carry.inComment then
      match c, rest with
      | '*', '/' :: rest => scanFrom { carry with inComment := false } b rest
      | _, rest => scanFrom carry b rest
    else
      match carry.quote with
      | some q =>
        if c == '\\' then
          match rest with
          | [] => (carry, b)
          | _ :: rest => scanFrom carry b rest
        else if c == q then scanFrom { carry with quote := none } b rest
        else scanFrom carry b rest
      | none =>
        match c, rest with
        | '/', '/' :: _ => (carry, b)
        | '/', '*' :: rest => scanFrom { carry with inComment := true } b rest
        | c, rest =>
          if isQuote c then scanFrom { carry with quote := some c } b rest
          else if isOpener c then scanFrom carry { b with opened := b.opened + 1 } rest
          else if isCloser c then scanFrom carry b.close rest
          else scanFrom carry b rest

/-- Scan a line: what it leaves unfinished, and its brackets. -/
def scan (carry : Carry) (line : List Char) : Carry × Brackets :=
  let (carry, b) := scanFrom carry ⟨0, 0⟩ line
  (carry.endLine, b)

end ScratchExport.Layout
