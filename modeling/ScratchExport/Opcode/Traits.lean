import ScratchExport.Opcode.Basic

/-!
# Traits of opcodes

Which opcodes start a script, which are the menus of other blocks, which have no counterpart in the
target runtime, and what kind of input the field of a block becomes.
-/

namespace ScratchExport.Opcode

/-- Hats start a script and stand above it. -/
def isHat : Opcode → Bool
  | .event .whenFlagClicked | .event .whenKeyPressed | .event .whenThisSpriteClicked
    | .event .whenStageClicked | .event .whenBackdropSwitchesTo | .event .whenGreaterThan
    | .event .whenBroadcastReceived | .event .whenTouchingObject => true
  | .control .startAsClone => true
  | .procedure .definition => true
  | .video .whenMotionGreaterThan => true
  | .robot .whenDistance | .robot .whenTilted => true
  | _ => false

/-- Menus hold the choice that another block offers in a slot. -/
def isMenu : Opcode → Bool
  | .motion .goToMenu | .motion .glideToMenu | .motion .pointTowardsMenu => true
  | .looks .costume | .looks .backdrops => true
  | .audio .soundsMenu => true
  | .event .broadcastMenu | .event .touchingObjectMenu => true
  | .control .createCloneOfMenu => true
  | .sensing .touchingObjectMenu | .sensing .distanceToMenu | .sensing .keyOptions
    | .sensing .ofObjectMenu => true
  | .music .menuDrum | .music .menuInstrument => true
  | .pen .menuColorParam => true
  | .video .menuAttribute | .video .menuSubject | .video .menuVideoState => true
  | .robot .menuMotorId | .robot .menuMotorDirection | .robot .menuTiltDirection
    | .robot .menuTiltDirectionAny => true
  | _ => false

/-- Opcodes without a counterpart, which compile to a marked placeholder. -/
def isUnsupported : Opcode → Bool
  | .motion .scrollRight | .motion .scrollUp | .motion .alignScene | .motion .xScroll
    | .motion .yScroll => true
  | .looks .switchBackdropToAndWait | .looks .hideAllSprites | .looks .changeStretchBy
    | .looks .setStretchTo => true
  | .event .whenTouchingObject => true
  | .sensing .userId => true
  | .procedure .prototype => true
  | .music .playDrumForBeats | .music .restForBeats | .music .playNoteForBeats | .music
      .setInstrument
    | .music .setTempo | .music .changeTempo | .music .getTempo | .music .midiPlayDrumForBeats
    | .music .midiSetInstrument => true
  | .pen .setShadeToNumber | .pen .changeShadeBy | .pen .setHueToNumber | .pen .changeHueBy => true
  | .video .whenMotionGreaterThan | .video .videoOn | .video .videoToggle | .video
      .setTransparency => true
  | .robot .motorOnFor | .robot .motorOn | .robot .motorOff | .robot .startMotorPower
    | .robot .setMotorDirection | .robot .setLightHue | .robot .playNoteFor | .robot .whenDistance
    | .robot .whenTilted | .robot .getDistance | .robot .isTilted | .robot .getTiltAngle => true
  | _ => false

/-- Opcodes with a counterpart. -/
def isHandled (op : Opcode) : Bool :=
  !op.isUnsupported

/-- The field of a block and the kind of input that it becomes. -/
def field? : Opcode → Option (String × String)
  | .motion .setRotationStyle => some ("STYLE", "rotationStyle")
  | .motion .pointTowardsMenu => some ("TOWARDS", "pointTowardsTarget")
  | .motion .glideToMenu | .motion .goToMenu => some ("TO", "goToTarget")
  | .motion .alignScene => some ("ALIGNMENT", "scrollAlignment")
  | .looks .costume => some ("COSTUME", "costume")
  | .looks .goToFrontBack => some ("FRONT_BACK", "frontBackMenu")
  | .looks .goForwardBackwardLayers => some ("FORWARD_BACKWARD", "forwardBackwardMenu")
  | .looks .changeEffectBy | .looks .setEffectTo => some ("EFFECT", "graphicEffect")
  | .looks .backdropNumberName | .looks .costumeNumberName =>
    some ("NUMBER_NAME", "costumeNumberName")
  | .looks .backdrops | .event .whenBackdropSwitchesTo => some ("BACKDROP", "backdrop")
  | .audio .setEffectTo | .audio .changeEffectBy => some ("EFFECT", "soundEffect")
  | .audio .soundsMenu => some ("SOUND_MENU", "sound")
  | .event .whenKeyPressed | .sensing .keyOptions => some ("KEY_OPTION", "key")
  | .event .whenGreaterThan => some ("WHENGREATERTHANMENU", "greaterThanMenu")
  | .event .whenBroadcastReceived | .event .broadcastMenu => some ("BROADCAST_OPTION", "broadcast")
  | .event .touchingObjectMenu
    | .sensing .touchingObjectMenu => some ("TOUCHINGOBJECTMENU", "touchingTarget")
  | .control .stop => some ("STOP_OPTION", "stopMenu")
  | .control .createCloneOfMenu => some ("CLONE_OPTION", "cloneTarget")
  | .control .forEach | .data .variable | .data .setVariableTo | .data .changeVariableBy
    | .data .showVariable | .data .hideVariable => some ("VARIABLE", "variable")
  | .sensing .distanceToMenu => some ("DISTANCETOMENU", "distanceToMenu")
  | .sensing .setDragMode => some ("DRAG_MODE", "dragModeMenu")
  | .sensing .propertyOf => some ("PROPERTY", "propertyOfMenu")
  | .sensing .ofObjectMenu => some ("OBJECT", "target")
  | .sensing .current => some ("CURRENTMENU", "currentMenu")
  | .operator .mathOp => some ("OPERATOR", "mathopMenu")
  | .data .listContents | .data .addToList | .data .deleteOfList | .data .deleteAllOfList
    | .data .insertAtList | .data .replaceItemOfList | .data .itemOfList | .data .itemNumOfList
    | .data .lengthOfList | .data .listContainsItem | .data .showList
    | .data .hideList => some ("LIST", "list")
  | .procedure .reporterStringNumber | .procedure .reporterBoolean => some ("VALUE", "string")
  | .pen .menuColorParam => some ("colorParam", "penColorParam")
  | .music .menuDrum => some ("DRUM", "musicDrum")
  | .music .menuInstrument => some ("INSTRUMENT", "musicInstrument")
  | .video .menuAttribute => some ("ATTRIBUTE", "videoSensingAttribute")
  | .video .menuSubject => some ("SUBJECT", "videoSensingSubject")
  | .video .menuVideoState => some ("VIDEO_STATE", "videoSensingVideoState")
  | .robot .menuMotorId => some ("MOTOR_ID", "wedo2MotorId")
  | .robot .menuMotorDirection => some ("MOTOR_DIRECTION", "wedo2MotorDirection")
  | .robot .menuTiltDirection => some ("TILT_DIRECTION", "wedo2TiltDirection")
  | .robot .menuTiltDirectionAny => some ("TILT_DIRECTION_ANY", "wedo2TiltDirectionAny")
  | _ => none

end ScratchExport.Opcode
