import ScratchExport.Compile.Motion

/-!
# Sensing blocks
-/

namespace ScratchExport.Compile

/-- The member that a named property of a target is, and its shape. -/
def propertyMember? : Value → Option (String × Shape)
  | .text "x position" => some (".x", .numberNotNaN)
  | .text "y position" => some (".y", .numberNotNaN)
  | .text "direction" => some (".direction", .numberNotNaN)
  | .text "costume #" => some (".costumeNumber", .numberNotNaN)
  | .text "costume name" => some (".costume.name", .string)
  | .text "size" => some (".size", .numberNotNaN)
  | .text "volume" => some (".audioEffects.volume", .numberNotNaN)
  | .text "backdrop #" => some (".costumeNumber", .numberNotNaN)
  | .text "backdrop name" => some (".costume.name", .string)
  | _ => none

/-- The expression for a part of the current date, or for the time when the part is unknown. -/
def datePart : Value → String
  | .text "YEAR" => "new Date().getFullYear()"
  | .text "MONTH" => "new Date().getMonth() + 1"
  | .text "DATE" => "new Date().getDate()"
  | .text "DAYOFWEEK" => "new Date().getDay() + 1"
  | .text "HOUR" => "new Date().getHours()"
  | .text "MINUTE" => "new Date().getMinutes()"
  | .text "SECOND" => "new Date().getSeconds()"
  | _ => "new Date().getTime()"

/-- The target that a property is asked of, and the expression for it. -/
def ownerOf (ctx : Context) (choice : Value) : Option (Nat × Phrase) :=
  if choice.isText "_stage_" then some (0, "this.stage")
  else match ctx.spriteIndex? choice with
    | some i => (ctx.names.targets[i]?).map fun names => (i, spritePhrase names.className)
    | none => none

/-- A property of another target: one that every target has, or one of its variables. -/
def propertyPlan (ctx : Context) (slots : Slots) (choice : Value) : Except Fault Plan := do
  let property ← slots.choice "PROPERTY"
  match ownerOf ctx choice with
  | none => return .missing "sprite" choice
  | some (i, owner) =>
    match propertyMember? (← property.asKey) with
    | some (member, shape) => return .phrase (owner ++ .text member) shape
    | none =>
      match ctx.property? .variable (fun _ name => name.same property) i with
      | some (_, name) => return .phrase (owner ++ ".vars." ++ .name name) .any
      | none => return .missing "variable" property

/-- What becomes of a sensing block. -/
def sensing (ctx : Context) (slots : Slots) : Sensing → Except Fault Plan
  | .touchingObject => withChoice slots "TOUCHINGOBJECTMENU" "sensing_touchingobject" fun choice =>
    if choice.isText "_mouse_" then .ok (.phrase "this.touching(\"mouse\")" .boolean)
    else if choice.isText "_edge_" then .ok (.phrase "this.touching(\"edge\")" .boolean)
    else match sprite? ctx choice with
      | some sprite => .ok (.phrase ("this.touching(" ++ sprite ++ ".andClones())") .boolean)
      | none => .ok (.missing "sprite" choice)
  | .touchingColor => .ok (.phrase ("this.touching(" ++ .color "COLOR" ++ ")") .boolean)
  | .colorIsTouchingColor =>
    .ok (.phrase ("this.colorTouching(" ++ .color "COLOR" ++ ", " ++ .color "COLOR2" ++ ")")
      .boolean)
  | .distanceTo => withChoice slots "DISTANCETOMENU" "sensing_distanceto" fun choice =>
    match pointOf ctx choice with
    | some (x, y) =>
      .ok (.phrase ("Math.hypot(" ++ x ++ " - this.x, " ++ y ++ " - this.y)") .numberNotNaN)
    | none => .ok (.missing "sprite" choice)
  | .askAndWait => .ok (.statement (suspend ctx "askAndWait" (any "QUESTION")))
  | .answer => .ok (.phrase "this.answer" .string)
  | .keyPressed => .ok (.phrase ("this.keyPressed(" ++ str "KEY_OPTION" ++ ")") .boolean)
  | .mouseDown => .ok (.phrase "this.mouse.down" .boolean)
  | .mouseX => .ok (.phrase "this.mouse.x" .numberNotNaN)
  | .mouseY => .ok (.phrase "this.mouse.y" .numberNotNaN)
  | .setDragMode => do
    let draggable := (← slots.choice "DRAG_MODE").isText "draggable"
    return .statement ("this.draggable = " ++ .text (boolSource draggable))
  | .loudness => .ok (.phrase "this.loudness" .numberNotNaN)
  | .loud => .ok (.phrase "this.loudness > 10" .boolean)
  | .timer => .ok (.phrase "this.timer" .numberNotNaN)
  | .resetTimer => .ok (.statement "this.restartTimer()")
  | .propertyOf => withChoice slots "OBJECT" "sensing_of" (propertyPlan ctx slots)
  | .current => do
    return .phrase (.text (datePart (← (← slots.choice "CURRENTMENU").asKey))) .numberNotNaN
  | .daysSince2000 => .ok (.phrase
      "((new Date().getTime() - new Date(2000, 0, 1)) / 1000 / 60 + new Date().getTimezoneOffset()) / 60 / 24"
      .numberNotNaN)
  | .username => .ok (.phrase "/* no username */ \"\"" .string)
  | .touchingObjectMenu | .distanceToMenu | .keyOptions | .ofObjectMenu =>
    .ok (.literal slots.menuValue)
  | .userId => .ok (.placeholder Sensing.userId.label)

end ScratchExport.Compile
