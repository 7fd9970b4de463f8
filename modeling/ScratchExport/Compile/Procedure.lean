import ScratchExport.Compile.Plan

/-!
# Procedure and pen blocks

A call passes one value for each parameter of the procedure: the one in the slot of the first
argument with the parameter's name. A procedure without screen refresh is a plain method and is
called as one; otherwise the caller yields to it, or calls its second method when the caller itself
runs without screen refresh.
-/

namespace ScratchExport.Compile

/-- The positions of the arguments whose names come for the first time, labels aside. -/
def firstPositions (arguments : List Argument) : List Nat :=
  let names := (arguments.filter (·.kind != .label)).map (·.name)
  (List.range names.length).filter fun i =>
    match names[i]? with
    | some name => !(names.take i).any (·.same name)
    | none => false

/-- The phrases for what a call passes at each position, when its inputs are not the usual ones. -/
def plainArguments (v : Value) : Except Fault (List Phrase) := do
  if !v.truthy then return []
  return (← v.members).map fun item => match item with
    | .null => .text "\"\""
    | _ => .stop .notAnInput

/-- The phrase for what a call passes at a position. -/
def passed (slots : Slots) : Except Fault (Nat → Phrase) :=
  match slots.lookup "INPUTS" with
  | some (.values _) => .ok .argument
  | _ => do
    let given ← plainArguments (slots.literal "INPUTS" (.list []))
    return fun i => given[i]?.getD (.text "\"\"")

/-- The call of a method of the callee. -/
def callPhrase (ctx : Context) (callee : Nat) (calleeWarps : Bool) (args : Phrase) : Phrase :=
  let name := ctx.targetNames.scriptName callee false
  if calleeWarps then "this." ++ .name name ++ "(" ++ args ++ ")"
  else if ctx.warp then
    match ctx.targetNames.warpVariants.lookup callee with
    | some variant => "this." ++ .name variant ++ "(" ++ args ++ ")"
    | none => "this.warp(this." ++ .name name ++ ")(" ++ args ++ ")"
  else "yield* this." ++ .name name ++ "(" ++ args ++ ")"

/-- The procedure that a code calls. -/
def callee? (ctx : Context) (proccode : Value) : Option (Nat × Script) :=
  match proccode with
  | .null => none
  | _ => do
    let i ← ctx.target.findProcedure proccode
    return (i, ← ctx.target.scripts[i]?)

/-- A call. -/
def callPlan (ctx : Context) (slots : Slots) : Except Fault Plan := do
  let proccode := slots.literal "PROCCODE" .null
  match callee? ctx proccode with
  | none => return .missing "procedure" (if proccode.truthy then proccode else .text "")
  | some (i, script) =>
    let given ← passed slots
    let args := Phrase.intercalate ", " ((firstPositions (← script.arguments)).map given)
    return .statement (callPhrase ctx i script.isWarp args)

/-- The parameter that an argument reporter reads. -/
def reporterPlan (ctx : Context) (slots : Slots) (fallback : String) (shape : Shape) :
    Except Fault Plan := do
  let name ← (slots.literal "VALUE" .null).asKey
  let found := match name with
    | .text s => ctx.params.lookup s
    | _ => none
  match found with
  | some param => return .phrase (.name param) .any
  | none => return .stray name fallback shape

/-- What becomes of a procedure block. -/
def procedure (ctx : Context) (slots : Slots) : Procedure → Except Fault Plan
  | .call => callPlan ctx slots
  | .reporterStringNumber => reporterPlan ctx slots "0" .numberNotNaN
  | .reporterBoolean => reporterPlan ctx slots "false" .boolean
  | op => .ok (.placeholder op.label)

/-- The channel of the pen colour that a menu names. -/
def penChannel? : Value → Option String
  | .text "color" => some "h"
  | .text "saturation" => some "s"
  | .text "brightness" => some "v"
  | _ => none

/-- A plan for a parameter of the pen colour: for transparency, or for a channel. -/
def penPlan (slots : Slots) (transparency : Phrase) (channel : Phrase → Except Fault Plan) :
    Except Fault Plan := do
  let choice ← slots.choice "colorParam"
  if choice.isText "transparency" then return .statement transparency
  else match penChannel? (← choice.asKey) with
    | some c => channel ("this.penColor." ++ .text c)
    | none => return .placeholder ("pen color param " ++ choice.display)

/-- What becomes of a pen block. -/
def pen (slots : Slots) : Pen → Except Fault Plan
  | .clear => .ok (.statement "this.clearPen()")
  | .stamp => .ok (.statement "this.stamp()")
  | .penDown => .ok (.statement "this.penDown = true")
  | .penUp => .ok (.statement "this.penDown = false")
  | .setColorToColor => .ok (.statement ("this.penColor = " ++ .color "COLOR"))
  | .changeColorParamBy =>
    penPlan slots ("this.penColor.a -= " ++ .operand "VALUE" .numberNotNaN ++ " / 100")
        fun channel => do
      return .statement (← changeBy slots channel "VALUE" false)
  | .setColorParamTo =>
    penPlan slots ("this.penColor.a = 1 - " ++ .operand "VALUE" .numberNotNaN ++ " / 100")
        fun channel =>
      .ok (.statement (channel ++ " = " ++ num "VALUE"))
  | .changeSizeBy => do return .statement (← changeBy slots "this.penSize" "SIZE" false)
  | .setSizeTo => .ok (.statement ("this.penSize = " ++ num "SIZE"))
  | .menuColorParam => .ok (.literal slots.menuValue)
  | op => .ok (.placeholder op.label)

end ScratchExport.Compile
