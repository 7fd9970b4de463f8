import ScratchExport.Compile.Plan
import ScratchExport.Text.Case

/-!
# Looks and sound blocks
-/

namespace ScratchExport.Compile

/-- A plan for the effect that a menu names, in lower case; an empty one leaves nothing
to change. -/
def withEffect (slots : Slots) (label : String) (plan : String → Except Fault Plan) :
    Except Fault Plan := do
  let effect := Text.lower (← (← slots.choice "EFFECT").asName)
  if effect.isEmpty then return .placeholder (label ++ " without an effect") else plan effect

/-- A place that counts or names a costume. -/
def costumePlan (slots : Slots) (owner : String) : Except Fault Plan := do
  if (← slots.choice "NUMBER_NAME").isText "name" then
    return .phrase (.text owner ++ ".costume.name") .string
  else return .phrase (.text owner ++ ".costumeNumber") .numberNotNaN

/-- What becomes of a looks block. -/
def looks (ctx : Context) (slots : Slots) : Looks → Except Fault Plan
  | .sayForSecs =>
    .ok (.statement
      (suspend ctx "sayAndWait" (.after (any "MESSAGE" ++ ", ") (.input "SECS" .number))))
  | .say => .ok (.statement ("this.say(" ++ any "MESSAGE" ++ ")"))
  | .thinkForSecs =>
    .ok (.statement
      (suspend ctx "thinkAndWait" (.after (any "MESSAGE" ++ ", ") (.input "SECS" .number))))
  | .think => .ok (.statement ("this.think(" ++ any "MESSAGE" ++ ")"))
  | .switchCostumeTo => .ok (.statement ("this.costume = " ++ any "COSTUME"))
  | .nextCostume => .ok (.statement "this.costumeNumber++")
  | .switchBackdropTo => .ok (.statement ("this.stage.costume = " ++ any "BACKDROP"))
  | .nextBackdrop => .ok (.statement "this.stage.costumeNumber++")
  | .changeSizeBy => do return .statement (← changeBy slots "this.size" "CHANGE" false)
  | .setSizeTo => .ok (.statement ("this.size = " ++ num "SIZE"))
  | .changeEffectBy => withEffect slots "looks_changeeffectby" fun effect => do
    return .statement (← changeBy slots ("this.effects." ++ .effect effect) "CHANGE" false)
  | .setEffectTo => withEffect slots "looks_seteffectto" fun effect =>
    .ok (.statement ("this.effects." ++ .effect effect ++ " = " ++ num "VALUE"))
  | .clearGraphicEffects => .ok (.statement "this.effects.clear()")
  | .showSprite => .ok (.statement "this.visible = true")
  | .hideSprite => .ok (.statement "this.visible = false")
  | .goToFrontBack => do
    if (← slots.choice "FRONT_BACK").isText "back" then return .statement "this.moveBehind()"
    else return .statement "this.moveAhead()"
  | .goForwardBackwardLayers =>
    -- The number of layers is read before the direction is looked at.
    match slots.choice "FORWARD_BACKWARD" with
    | .ok choice =>
      let method := if choice.isText "backward" then "this.moveBehind(" else "this.moveAhead("
      .ok (.statement (method ++ num "NUM" ++ ")"))
    | .error fault => .ok (.statement (num "NUM" ++ .stop fault))
  | .costumeNumberName => costumePlan slots "this"
  | .backdropNumberName => costumePlan slots "this.stage"
  | .size => .ok (.phrase "Math.round(this.size)" .numberNotNaN)
  | .costume | .backdrops => .ok (.literal slots.menuValue)
  | op => .ok (.placeholder op.label)

/-- What becomes of a sound block. -/
def audio (ctx : Context) (slots : Slots) : Audio → Except Fault Plan
  | .playUntilDone => .ok (.statement (suspend ctx "playSoundUntilDone" (any "SOUND_MENU")))
  | .play => .ok (.statement (suspend ctx "startSound" (any "SOUND_MENU")))
  | .stopAllSounds => .ok (.statement "this.stopAllSounds()")
  | .changeEffectBy => withEffect slots "sound_changeeffectby" fun effect => do
    return .statement (← changeBy slots ("this.audioEffects." ++ .effect effect) "VALUE" false)
  | .setEffectTo => withEffect slots "sound_seteffectto" fun effect =>
    .ok (.statement ("this.audioEffects." ++ .effect effect ++ " = " ++ num "VALUE"))
  | .clearEffects => .ok (.statement "this.audioEffects.clear()")
  | .changeVolumeBy =>
    do return .statement (← changeBy slots "this.audioEffects.volume" "VOLUME" false)
  | .setVolumeTo => .ok (.statement ("this.audioEffects.volume = " ++ num "VOLUME"))
  | .volume => .ok (.phrase "this.audioEffects.volume" .numberNotNaN)
  | .soundsMenu => .ok (.literal slots.menuValue)

end ScratchExport.Compile
