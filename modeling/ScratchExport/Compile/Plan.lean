import ScratchExport.Compile.Phrase

/-!
# Plans

What becomes of a block is decided from its opcode and its inputs as they stand; the decision is a
`Plan`. Most plans are a phrase. A block without counterpart becomes a placeholder, and a reference
to something that is not there becomes a zero; both are marked by a comment in the source and
reported.
-/

namespace ScratchExport.Compile

/-- What becomes of a block. -/
inductive Plan where
  | phrase (p : Phrase) (shape : Shape)
  /-- The value of a menu block. -/
  | literal (v : Value)
  /-- No counterpart. -/
  | placeholder (label : String)
  /-- A reference to something of a kind that is not there. -/
  | missing (kind : String) (name : Value)
  /-- An argument reporter outside its procedure, with the source that stands in for it. -/
  | stray (name : Value) (source : String) (shape : Shape)

namespace Plan

/-- A statement. -/
def statement (p : Phrase) : Plan :=
  .phrase p .stack

/-- The source of a placeholder. -/
def placeholderSource (label : String) : String :=
  "/* TODO: Implement " ++ Literal.commentText label ++ " */ null"

/-- The source that stands for something missing. -/
def missingSource (kind spoken : String) : String :=
  "/* Missing " ++ kind ++ " " ++ Literal.commentText (Text.literal spoken) ++ " */ 0"

/-- Carry out a plan for a shape. -/
def fragment (ctx : Context) (slots : Slots) (readers : Readers) (desired : Shape)
    (locals : Name.Space) : Plan → Noted Fragment
  | .phrase p shape => do return ⟨← p.render slots readers locals, shape⟩
  | .literal v => .ofExcept (literalFragment v desired)
  | .placeholder label => do
    ctx.warn ("no translation for '" ++ label ++ "'")
    return ⟨placeholderSource label, .any⟩
  | .missing kind name => do
    ctx.warn ("missing " ++ kind ++ " '" ++ name.display ++ "'")
    return ⟨missingSource kind (← Literal.spoken name), .numberNotNaN⟩
  | .stray name source shape => do
    ctx.warn ("argument '" ++ name.display ++ "' used outside its procedure")
    return ⟨source, shape⟩

end Plan

/-! ### Parts of phrases -/

/-- Any value. -/
def any (slot : String) : Phrase := .input slot .any

/-- A number that is not NaN. -/
def num (slot : String) : Phrase := .input slot .numberNotNaN

/-- A text. -/
def str (slot : String) : Phrase := .input slot .string

/-- A truth value. -/
def bool (slot : String) : Phrase := .input slot .boolean

/-- A call of a method that may take time; without screen refresh it runs to its end at once. -/
def suspend (ctx : Context) (method : String) (args : Phrase) : Phrase :=
  if ctx.warp then "this.warp(this." ++ method ++ ")(" ++ args ++ ")"
  else "yield* this." ++ method ++ "(" ++ args ++ ")"

/-- A loop, which waits for a frame in every round unless it runs without screen refresh. -/
def loop (ctx : Context) (head body : Phrase) : Phrase :=
  head ++ " \x7b\n" ++ body ++ (if ctx.warp then "" else "yield;\n") ++ "\x7d"

/-- Change a place by the number in a slot. A literal is folded into the statement; otherwise the
old value is made a number first if `cast`. -/
def changeBy (slots : Slots) (place : Phrase) (slot : String) (cast : Bool) :
    Except Fault Phrase := do
  let folded := (← slots.literalNumber slot).filter (·.isFinite)
  match folded with
  | some delta =>
    if delta.eqInt 1 then return place ++ "++"
    else if delta.eqInt (-1) then return place ++ "--"
    else if delta.lt (.finite false 0) then return place ++ " -= " ++ .number (-delta)
    else return place ++ " += " ++ .number delta
  | none =>
    if cast then
      return place ++ " = this.toNumber(" ++ place ++ ") + " ++ Phrase.operand slot .numberNotNaN
    else return place ++ " += " ++ num slot

/-- The sprite of a class. -/
def spritePhrase (className : String) : Phrase :=
  "this.sprites[" ++ .literal className ++ "]"

/-- A sprite that is known by its author's name. -/
def sprite? (ctx : Context) (author : Value) : Option Phrase :=
  (ctx.names.spriteClass? author).map spritePhrase

/-- Resolved data in a container of its owner. -/
def ownedPhrase (ctx : Context) (container : String) (owner : Nat) (property : String) : Phrase :=
  if owner == ctx.targetIndex then "this." ++ container ++ "." ++ .name property
  else "this.stage." ++ container ++ "." ++ .name property

/-- The data that a slot refers to, in a container of its owner. -/
def dataPhrase? (ctx : Context) (slots : Slots) (slot : String) (kind : DataKind)
    (container : String) : Except Fault (Option Phrase) := do
  let ref ← slots.dataRef? slot
  return (ref.bind (ctx.resolve kind)).map fun (owner, property) =>
    ownedPhrase ctx container owner property

/-- The plan for data that is not there. -/
def missingData (slots : Slots) (slot : String) (kind : DataKind) : Except Fault Plan := do
  return .missing kind.word (((← slots.dataRef? slot).map (·.name)).getD (.text ""))

/-- A plan that needs data, or the plan for data that is not there. -/
def withData (ctx : Context) (slots : Slots) (slot : String) (kind : DataKind)
    (plan : Phrase → Except Fault Plan) : Except Fault Plan := do
  match ← dataPhrase? ctx slots slot kind "vars" with
  | some place => plan place
  | none => missingData slots slot kind

end ScratchExport.Compile
