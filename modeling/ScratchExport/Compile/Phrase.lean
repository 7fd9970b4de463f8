import ScratchExport.Compile.Literal
import ScratchExport.Compile.Slots

/-!
# Phrases: source with holes

The source of a block is a phrase: text with holes where the sources of its inputs go. A phrase is
plain data, and it keeps apart the text that is the same in every project and the names and values
that come from the project. It is rendered by reading the holes, in the order in which they stand
unless `after` turns two parts around, with a reader for each input.
-/

namespace ScratchExport.Compile

/-- Source with holes. -/
inductive Phrase where
  /-- Text that is the same in every project. -/
  | text (s : String)
  /-- The name of a member of a class, of a parameter or of a local variable. -/
  | name (s : String)
  /-- The name of a graphic or sound effect. -/
  | effect (s : String)
  /-- A string literal. -/
  | literal (s : String)
  | number (x : Binary64)
  /-- The input in a slot, as source of a shape. -/
  | input (slot : String) (shape : Shape)
  /-- The same, in parentheses unless it is atomic. -/
  | operand (slot : String) (shape : Shape)
  /-- The colour in a slot. -/
  | color (slot : String)
  /-- What a procedure call passes at a position. -/
  | argument (position : Nat)
  /-- The statements in a slot, each line ended, with more local names taken. -/
  | body (slot : String) (locals : Name.Space)
  | append (first second : Phrase)
  /-- Two parts of which the second is read first. -/
  | after (first second : Phrase)
  /-- A part that cannot be written. -/
  | stop (fault : Fault)

namespace Phrase

instance : Append Phrase := ⟨append⟩

instance : Coe String Phrase := ⟨text⟩

/-- Phrases with a separator between them. -/
def intercalate (sep : Phrase) : List Phrase → Phrase
  | [] => text ""
  | [p] => p
  | p :: rest => p ++ sep ++ intercalate sep rest

end Phrase

/-- How an input is compiled for a shape, where local names are taken. -/
abbrev Read := Shape → Name.Space → Noted Fragment

/-- The reader of an input, and the readers of the inputs that a call passes in it. -/
structure Reader where
  read : Read
  items : List Read

/-- Readers for the inputs of a block. -/
abbrev Readers := List (String × Reader)

namespace Readers

variable (readers : Readers)

/-- The input in a slot; an absent one reads as null. -/
def fragment (slot : String) (shape : Shape) (locals : Name.Space) : Noted Fragment :=
  match readers.lookup slot with
  | some reader => reader.read shape locals
  | none => .ofExcept (literalFragment .null shape)

/-- The input in a slot as source of a shape. -/
def source (slot : String) (shape : Shape) (locals : Name.Space) : Noted String := do
  let f ← fragment readers slot shape locals
  return Source.coerce f.source f.shape shape

/-- What a call passes at a position; what is missing reads as null. -/
def argument (position : Nat) (locals : Name.Space) : Noted Fragment :=
  match (readers.lookup "INPUTS").bind (·.items[position]?) with
  | some read => read .any locals
  | none => .ofExcept (literalFragment .null .any)

end Readers

namespace Phrase

/-- The source of a phrase. -/
def render (slots : Slots) (readers : Readers) (locals : Name.Space) : Phrase → Noted String
  | .text s | .name s | .effect s => pure s
  | .literal s => pure (Text.literal s)
  | .number x => pure (Literal.numberLiteral x)
  | .input slot shape => readers.source slot shape locals
  | .operand slot shape => do return Source.paren (← readers.source slot shape locals)
  | .color slot =>
    match slots.lookup slot with
    | some (.plain "color" v) => .ofExcept (Literal.Color.source v)
    | _ => do return "Color.num(" ++ (← readers.source slot .any locals) ++ ")"
  | .argument position => do return (← readers.argument position locals).source
  | .body slot inner => do
    let source ← readers.source slot .stack inner
    return if source.isEmpty then "" else source ++ "\n"
  | .append first second => do
    let a ← first.render slots readers locals
    let b ← second.render slots readers locals
    return a ++ b
  | .after first second => do
    let b ← second.render slots readers locals
    let a ← first.render slots readers locals
    return a ++ b
  | .stop fault => .fail fault

end Phrase

end ScratchExport.Compile
