import ScratchExport.Compile.Plan

/-!
# Motion blocks
-/

namespace ScratchExport.Compile

/-- The coordinates of the mouse pointer or of a sprite. -/
def pointOf (ctx : Context) (choice : Value) : Option (Phrase × Phrase) :=
  if choice.isText "_mouse_" then some ("this.mouse.x", "this.mouse.y")
  else (sprite? ctx choice).map fun sprite => (sprite ++ ".x", sprite ++ ".y")

/-- The coordinates of a place that a menu offers. -/
def placeOf (ctx : Context) (choice : Value) : Option (Phrase × Phrase) :=
  if choice.isText "_random_" then some ("this.random(-240, 240)", "this.random(-180, 180)")
  else pointOf ctx choice

/-- The runtime's name for a rotation style. -/
def rotationStyle? : Value → Option String
  | .text "left-right" => some "Sprite.RotationStyle.LEFT_RIGHT"
  | .text "don't rotate" => some "Sprite.RotationStyle.DONT_ROTATE"
  | .text "all around" => some "Sprite.RotationStyle.ALL_AROUND"
  | _ => none

/-- A plan for the choice of a menu, unless a reporter leaves it open. -/
def withChoice (slots : Slots) (slot label : String) (plan : Value → Except Fault Plan) :
    Except Fault Plan := do
  if slots.isOpenMenu slot then return .placeholder (label ++ " with a reporter target")
  else plan (← slots.choice slot)

/-- What becomes of a motion block. -/
def motion (ctx : Context) (slots : Slots) : Motion → Except Fault Plan
  | .moveSteps => .ok (.statement ("this.move(" ++ num "STEPS" ++ ")"))
  | .turnRight => do return .statement (← changeBy slots "this.direction" "DEGREES" false)
  | .turnLeft => .ok (.statement ("this.direction -= " ++ num "DEGREES"))
  | .goTo => withChoice slots "TO" "motion_goto" fun choice =>
    match placeOf ctx choice with
    | some (x, y) => .ok (.statement ("this.goto(" ++ x ++ ", " ++ y ++ ")"))
    | none => .ok (.missing "sprite" choice)
  | .goToXY => .ok (.statement ("this.goto(" ++ num "X" ++ ", " ++ num "Y" ++ ")"))
  | .glideTo => withChoice slots "TO" "motion_glideto" fun choice =>
    match placeOf ctx choice with
    | some (x, y) =>
      .ok (.statement (suspend ctx "glide" (.input "SECS" .number ++ ", " ++ x ++ ", " ++ y)))
    | none => .ok (.missing "sprite" choice)
  | .glideSecsToXY =>
    .ok (.statement
      (suspend ctx "glide" (.input "SECS" .number ++ ", " ++ num "X" ++ ", " ++ num "Y")))
  | .pointInDirection => .ok (.statement ("this.direction = " ++ num "DIRECTION"))
  | .pointTowards => withChoice slots "TOWARDS" "motion_pointtowards" fun choice =>
    if choice.isText "_random_" then .ok (.statement "this.direction = this.random(-180, 180)")
    else match pointOf ctx choice with
      | some (x, y) =>
        .ok (.statement ("this.direction = this.radToScratch(Math.atan2(" ++ y ++ " - this.y, " ++ x
          ++ " - this.x))"))
      | none => .ok (.missing "sprite" choice)
  | .changeXBy => do return .statement (← changeBy slots "this.x" "DX" false)
  | .setX => .ok (.statement ("this.x = " ++ num "X"))
  | .changeYBy => do return .statement (← changeBy slots "this.y" "DY" false)
  | .setY => .ok (.statement ("this.y = " ++ num "Y"))
  | .ifOnEdgeBounce => .ok (.statement "this.ifOnEdgeBounce()")
  | .setRotationStyle => do
    let choice ← slots.choice "STYLE"
    match rotationStyle? (← choice.asKey) with
    | some style => return .statement ("this.rotationStyle = " ++ .text style)
    | none => return .placeholder ("rotation style " ++ choice.quoted)
  | .xPosition => .ok (.phrase "this.x" .numberNotNaN)
  | .yPosition => .ok (.phrase "this.y" .numberNotNaN)
  | .direction => .ok (.phrase "this.direction" .numberNotNaN)
  | .goToMenu | .glideToMenu | .pointTowardsMenu => .ok (.literal slots.menuValue)
  | op => .ok (.placeholder op.label)

end ScratchExport.Compile
