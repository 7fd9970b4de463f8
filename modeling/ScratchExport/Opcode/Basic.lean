/-!
# Opcodes

The opcodes of Scratch blocks, grouped as in the palette. An opcode is known to project files by its
label; `Opcode.ofLabel?` finds the opcode of a label.
-/

namespace ScratchExport

/-- Moving and turning. -/
inductive Motion where
  | moveSteps | turnRight | turnLeft | goTo | goToMenu | goToXY | glideTo | glideToMenu
  | glideSecsToXY | pointInDirection | pointTowards | pointTowardsMenu | changeXBy | setX
  | changeYBy | setY | ifOnEdgeBounce | setRotationStyle | xPosition | yPosition | direction
  | scrollRight | scrollUp | alignScene | xScroll | yScroll
  deriving DecidableEq

namespace Motion

/-- The label in project files. -/
def label : Motion → String
  | .moveSteps => "motion_movesteps"
  | .turnRight => "motion_turnright"
  | .turnLeft => "motion_turnleft"
  | .goTo => "motion_goto"
  | .goToMenu => "motion_goto_menu"
  | .goToXY => "motion_gotoxy"
  | .glideTo => "motion_glideto"
  | .glideToMenu => "motion_glideto_menu"
  | .glideSecsToXY => "motion_glidesecstoxy"
  | .pointInDirection => "motion_pointindirection"
  | .pointTowards => "motion_pointtowards"
  | .pointTowardsMenu => "motion_pointtowards_menu"
  | .changeXBy => "motion_changexby"
  | .setX => "motion_setx"
  | .changeYBy => "motion_changeyby"
  | .setY => "motion_sety"
  | .ifOnEdgeBounce => "motion_ifonedgebounce"
  | .setRotationStyle => "motion_setrotationstyle"
  | .xPosition => "motion_xposition"
  | .yPosition => "motion_yposition"
  | .direction => "motion_direction"
  | .scrollRight => "motion_scroll_right"
  | .scrollUp => "motion_scroll_up"
  | .alignScene => "motion_align_scene"
  | .xScroll => "motion_xscroll"
  | .yScroll => "motion_yscroll"

def all : List Motion :=
  [.moveSteps, .turnRight, .turnLeft, .goTo, .goToMenu, .goToXY, .glideTo, .glideToMenu,
    .glideSecsToXY, .pointInDirection, .pointTowards, .pointTowardsMenu, .changeXBy, .setX,
    .changeYBy, .setY, .ifOnEdgeBounce, .setRotationStyle, .xPosition, .yPosition, .direction,
    .scrollRight, .scrollUp, .alignScene, .xScroll, .yScroll]

end Motion

/-- Speech, costumes, size and effects. -/
inductive Looks where
  | sayForSecs | say | thinkForSecs | think | switchCostumeTo | costume | nextCostume
  | switchBackdropTo | backdrops | switchBackdropToAndWait | nextBackdrop | changeSizeBy | setSizeTo
  | changeEffectBy | setEffectTo | clearGraphicEffects | showSprite | hideSprite | goToFrontBack
  | goForwardBackwardLayers | costumeNumberName | backdropNumberName | size | hideAllSprites
  | changeStretchBy | setStretchTo
  deriving DecidableEq

namespace Looks

/-- The label in project files. -/
def label : Looks → String
  | .sayForSecs => "looks_sayforsecs"
  | .say => "looks_say"
  | .thinkForSecs => "looks_thinkforsecs"
  | .think => "looks_think"
  | .switchCostumeTo => "looks_switchcostumeto"
  | .costume => "looks_costume"
  | .nextCostume => "looks_nextcostume"
  | .switchBackdropTo => "looks_switchbackdropto"
  | .backdrops => "looks_backdrops"
  | .switchBackdropToAndWait => "looks_switchbackdroptoandwait"
  | .nextBackdrop => "looks_nextbackdrop"
  | .changeSizeBy => "looks_changesizeby"
  | .setSizeTo => "looks_setsizeto"
  | .changeEffectBy => "looks_changeeffectby"
  | .setEffectTo => "looks_seteffectto"
  | .clearGraphicEffects => "looks_cleargraphiceffects"
  | .showSprite => "looks_show"
  | .hideSprite => "looks_hide"
  | .goToFrontBack => "looks_gotofrontback"
  | .goForwardBackwardLayers => "looks_goforwardbackwardlayers"
  | .costumeNumberName => "looks_costumenumbername"
  | .backdropNumberName => "looks_backdropnumbername"
  | .size => "looks_size"
  | .hideAllSprites => "looks_hideallsprites"
  | .changeStretchBy => "looks_changestretchby"
  | .setStretchTo => "looks_setstretchto"

def all : List Looks :=
  [.sayForSecs, .say, .thinkForSecs, .think, .switchCostumeTo, .costume, .nextCostume,
    .switchBackdropTo, .backdrops, .switchBackdropToAndWait, .nextBackdrop, .changeSizeBy,
    .setSizeTo, .changeEffectBy, .setEffectTo, .clearGraphicEffects, .showSprite, .hideSprite,
    .goToFrontBack, .goForwardBackwardLayers, .costumeNumberName, .backdropNumberName, .size,
    .hideAllSprites, .changeStretchBy, .setStretchTo]

end Looks

/-- Playing sounds. -/
inductive Audio where
  | playUntilDone | play | soundsMenu | stopAllSounds | changeEffectBy | setEffectTo | clearEffects
  | changeVolumeBy | setVolumeTo | volume
  deriving DecidableEq

namespace Audio

/-- The label in project files. -/
def label : Audio → String
  | .playUntilDone => "sound_playuntildone"
  | .play => "sound_play"
  | .soundsMenu => "sound_sounds_menu"
  | .stopAllSounds => "sound_stopallsounds"
  | .changeEffectBy => "sound_changeeffectby"
  | .setEffectTo => "sound_seteffectto"
  | .clearEffects => "sound_cleareffects"
  | .changeVolumeBy => "sound_changevolumeby"
  | .setVolumeTo => "sound_setvolumeto"
  | .volume => "sound_volume"

def all : List Audio :=
  [.playUntilDone, .play, .soundsMenu, .stopAllSounds, .changeEffectBy, .setEffectTo, .clearEffects,
    .changeVolumeBy, .setVolumeTo, .volume]

end Audio

/-- Hats and broadcasts. -/
inductive Event where
  | whenFlagClicked | whenKeyPressed | whenThisSpriteClicked | whenStageClicked
  | whenBackdropSwitchesTo | whenGreaterThan | whenBroadcastReceived | broadcast | broadcastMenu
  | broadcastAndWait | whenTouchingObject | touchingObjectMenu
  deriving DecidableEq

namespace Event

/-- The label in project files. -/
def label : Event → String
  | .whenFlagClicked => "event_whenflagclicked"
  | .whenKeyPressed => "event_whenkeypressed"
  | .whenThisSpriteClicked => "event_whenthisspriteclicked"
  | .whenStageClicked => "event_whenstageclicked"
  | .whenBackdropSwitchesTo => "event_whenbackdropswitchesto"
  | .whenGreaterThan => "event_whengreaterthan"
  | .whenBroadcastReceived => "event_whenbroadcastreceived"
  | .broadcast => "event_broadcast"
  | .broadcastMenu => "event_broadcast_menu"
  | .broadcastAndWait => "event_broadcastandwait"
  | .whenTouchingObject => "event_whentouchingobject"
  | .touchingObjectMenu => "event_touchingobjectmenu"

def all : List Event :=
  [.whenFlagClicked, .whenKeyPressed, .whenThisSpriteClicked, .whenStageClicked,
    .whenBackdropSwitchesTo, .whenGreaterThan, .whenBroadcastReceived, .broadcast, .broadcastMenu,
    .broadcastAndWait, .whenTouchingObject, .touchingObjectMenu]

end Event

/-- Waiting, loops, conditions and clones. -/
inductive Control where
  | wait | loop | forever | branch | branchElse | waitUntil | repeatUntil | repeatWhile | forEach
  | stop | startAsClone | createCloneOf | createCloneOfMenu | deleteThisClone | allAtOnce
  | getCounter | incrCounter | clearCounter
  deriving DecidableEq

namespace Control

/-- The label in project files. -/
def label : Control → String
  | .wait => "control_wait"
  | .loop => "control_repeat"
  | .forever => "control_forever"
  | .branch => "control_if"
  | .branchElse => "control_if_else"
  | .waitUntil => "control_wait_until"
  | .repeatUntil => "control_repeat_until"
  | .repeatWhile => "control_while"
  | .forEach => "control_for_each"
  | .stop => "control_stop"
  | .startAsClone => "control_start_as_clone"
  | .createCloneOf => "control_create_clone_of"
  | .createCloneOfMenu => "control_create_clone_of_menu"
  | .deleteThisClone => "control_delete_this_clone"
  | .allAtOnce => "control_all_at_once"
  | .getCounter => "control_get_counter"
  | .incrCounter => "control_incr_counter"
  | .clearCounter => "control_clear_counter"

def all : List Control :=
  [.wait, .loop, .forever, .branch, .branchElse, .waitUntil, .repeatUntil, .repeatWhile, .forEach,
    .stop, .startAsClone, .createCloneOf, .createCloneOfMenu, .deleteThisClone, .allAtOnce,
    .getCounter, .incrCounter, .clearCounter]

end Control

/-- Mouse, keyboard, distances and properties of others. -/
inductive Sensing where
  | touchingObject | touchingObjectMenu | touchingColor | colorIsTouchingColor | distanceTo
  | distanceToMenu | askAndWait | answer | keyPressed | keyOptions | mouseDown | mouseX | mouseY
  | setDragMode | loudness | loud | timer | resetTimer | propertyOf | ofObjectMenu | current
  | daysSince2000 | username | userId
  deriving DecidableEq

namespace Sensing

/-- The label in project files. -/
def label : Sensing → String
  | .touchingObject => "sensing_touchingobject"
  | .touchingObjectMenu => "sensing_touchingobjectmenu"
  | .touchingColor => "sensing_touchingcolor"
  | .colorIsTouchingColor => "sensing_coloristouchingcolor"
  | .distanceTo => "sensing_distanceto"
  | .distanceToMenu => "sensing_distancetomenu"
  | .askAndWait => "sensing_askandwait"
  | .answer => "sensing_answer"
  | .keyPressed => "sensing_keypressed"
  | .keyOptions => "sensing_keyoptions"
  | .mouseDown => "sensing_mousedown"
  | .mouseX => "sensing_mousex"
  | .mouseY => "sensing_mousey"
  | .setDragMode => "sensing_setdragmode"
  | .loudness => "sensing_loudness"
  | .loud => "sensing_loud"
  | .timer => "sensing_timer"
  | .resetTimer => "sensing_resettimer"
  | .propertyOf => "sensing_of"
  | .ofObjectMenu => "sensing_of_object_menu"
  | .current => "sensing_current"
  | .daysSince2000 => "sensing_dayssince2000"
  | .username => "sensing_username"
  | .userId => "sensing_userid"

def all : List Sensing :=
  [.touchingObject, .touchingObjectMenu, .touchingColor, .colorIsTouchingColor, .distanceTo,
    .distanceToMenu, .askAndWait, .answer, .keyPressed, .keyOptions, .mouseDown, .mouseX, .mouseY,
    .setDragMode, .loudness, .loud, .timer, .resetTimer, .propertyOf, .ofObjectMenu, .current,
    .daysSince2000, .username, .userId]

end Sensing

/-- Arithmetic, logic and text. -/
inductive Operator where
  | add | subtract | multiply | divide | random | greaterThan | lessThan | equals | and | or | not
  | join | letterOf | length | contains | mod | round | mathOp
  deriving DecidableEq

namespace Operator

/-- The label in project files. -/
def label : Operator → String
  | .add => "operator_add"
  | .subtract => "operator_subtract"
  | .multiply => "operator_multiply"
  | .divide => "operator_divide"
  | .random => "operator_random"
  | .greaterThan => "operator_gt"
  | .lessThan => "operator_lt"
  | .equals => "operator_equals"
  | .and => "operator_and"
  | .or => "operator_or"
  | .not => "operator_not"
  | .join => "operator_join"
  | .letterOf => "operator_letter_of"
  | .length => "operator_length"
  | .contains => "operator_contains"
  | .mod => "operator_mod"
  | .round => "operator_round"
  | .mathOp => "operator_mathop"

def all : List Operator :=
  [.add, .subtract, .multiply, .divide, .random, .greaterThan, .lessThan, .equals, .and, .or, .not,
    .join, .letterOf, .length, .contains, .mod, .round, .mathOp]

end Operator

/-- Variables and lists. -/
inductive Data where
  | variable | setVariableTo | changeVariableBy | showVariable | hideVariable | listContents
  | addToList | deleteOfList | deleteAllOfList | insertAtList | replaceItemOfList | itemOfList
  | itemNumOfList | lengthOfList | listContainsItem | showList | hideList
  deriving DecidableEq

namespace Data

/-- The label in project files. -/
def label : Data → String
  | .variable => "data_variable"
  | .setVariableTo => "data_setvariableto"
  | .changeVariableBy => "data_changevariableby"
  | .showVariable => "data_showvariable"
  | .hideVariable => "data_hidevariable"
  | .listContents => "data_listcontents"
  | .addToList => "data_addtolist"
  | .deleteOfList => "data_deleteoflist"
  | .deleteAllOfList => "data_deletealloflist"
  | .insertAtList => "data_insertatlist"
  | .replaceItemOfList => "data_replaceitemoflist"
  | .itemOfList => "data_itemoflist"
  | .itemNumOfList => "data_itemnumoflist"
  | .lengthOfList => "data_lengthoflist"
  | .listContainsItem => "data_listcontainsitem"
  | .showList => "data_showlist"
  | .hideList => "data_hidelist"

def all : List Data :=
  [.variable, .setVariableTo, .changeVariableBy, .showVariable, .hideVariable, .listContents,
    .addToList, .deleteOfList, .deleteAllOfList, .insertAtList, .replaceItemOfList, .itemOfList,
    .itemNumOfList, .lengthOfList, .listContainsItem, .showList, .hideList]

end Data

/-- Custom blocks and the reporters of their arguments. -/
inductive Procedure where
  | definition | prototype | call | reporterStringNumber | reporterBoolean
  deriving DecidableEq

namespace Procedure

/-- The label in project files. -/
def label : Procedure → String
  | .definition => "procedures_definition"
  | .prototype => "procedures_prototype"
  | .call => "procedures_call"
  | .reporterStringNumber => "argument_reporter_string_number"
  | .reporterBoolean => "argument_reporter_boolean"

def all : List Procedure :=
  [.definition, .prototype, .call, .reporterStringNumber, .reporterBoolean]

end Procedure

/-- Drums, notes and tempo. -/
inductive Music where
  | playDrumForBeats | restForBeats | playNoteForBeats | setInstrument | setTempo | changeTempo
  | getTempo | midiPlayDrumForBeats | midiSetInstrument | menuDrum | menuInstrument
  deriving DecidableEq

namespace Music

/-- The label in project files. -/
def label : Music → String
  | .playDrumForBeats => "music_playDrumForBeats"
  | .restForBeats => "music_restForBeats"
  | .playNoteForBeats => "music_playNoteForBeats"
  | .setInstrument => "music_setInstrument"
  | .setTempo => "music_setTempo"
  | .changeTempo => "music_changeTempo"
  | .getTempo => "music_getTempo"
  | .midiPlayDrumForBeats => "music_midiPlayDrumForBeats"
  | .midiSetInstrument => "music_midiSetInstrument"
  | .menuDrum => "music_menu_DRUM"
  | .menuInstrument => "music_menu_INSTRUMENT"

def all : List Music :=
  [.playDrumForBeats, .restForBeats, .playNoteForBeats, .setInstrument, .setTempo, .changeTempo,
    .getTempo, .midiPlayDrumForBeats, .midiSetInstrument, .menuDrum, .menuInstrument]

end Music

/-- Drawing. -/
inductive Pen where
  | clear | stamp | penDown | penUp | setColorToColor | changeColorParamBy | setColorParamTo
  | changeSizeBy | setSizeTo | setShadeToNumber | changeShadeBy | setHueToNumber | changeHueBy
  | menuColorParam
  deriving DecidableEq

namespace Pen

/-- The label in project files. -/
def label : Pen → String
  | .clear => "pen_clear"
  | .stamp => "pen_stamp"
  | .penDown => "pen_penDown"
  | .penUp => "pen_penUp"
  | .setColorToColor => "pen_setPenColorToColor"
  | .changeColorParamBy => "pen_changePenColorParamBy"
  | .setColorParamTo => "pen_setPenColorParamTo"
  | .changeSizeBy => "pen_changePenSizeBy"
  | .setSizeTo => "pen_setPenSizeTo"
  | .setShadeToNumber => "pen_setPenShadeToNumber"
  | .changeShadeBy => "pen_changePenShadeBy"
  | .setHueToNumber => "pen_setPenHueToNumber"
  | .changeHueBy => "pen_changePenHueBy"
  | .menuColorParam => "pen_menu_colorParam"

def all : List Pen :=
  [.clear, .stamp, .penDown, .penUp, .setColorToColor, .changeColorParamBy, .setColorParamTo,
    .changeSizeBy, .setSizeTo, .setShadeToNumber, .changeShadeBy, .setHueToNumber, .changeHueBy,
    .menuColorParam]

end Pen

/-- Video sensing. -/
inductive Video where
  | whenMotionGreaterThan | videoOn | videoToggle | setTransparency | menuAttribute | menuSubject
  | menuVideoState
  deriving DecidableEq

namespace Video

/-- The label in project files. -/
def label : Video → String
  | .whenMotionGreaterThan => "videoSensing_whenMotionGreaterThan"
  | .videoOn => "videoSensing_videoOn"
  | .videoToggle => "videoSensing_videoToggle"
  | .setTransparency => "videoSensing_setVideoTransparency"
  | .menuAttribute => "videoSensing_menu_ATTRIBUTE"
  | .menuSubject => "videoSensing_menu_SUBJECT"
  | .menuVideoState => "videoSensing_menu_VIDEO_STATE"

def all : List Video :=
  [.whenMotionGreaterThan, .videoOn, .videoToggle, .setTransparency, .menuAttribute, .menuSubject,
    .menuVideoState]

end Video

/-- Motors and tilt sensors of the robot kit. -/
inductive Robot where
  | motorOnFor | motorOn | motorOff | startMotorPower | setMotorDirection | setLightHue
  | playNoteFor | whenDistance | whenTilted | getDistance | isTilted | getTiltAngle | menuMotorId
  | menuMotorDirection | menuTiltDirection | menuTiltDirectionAny
  deriving DecidableEq

namespace Robot

/-- The label in project files. -/
def label : Robot → String
  | .motorOnFor => "wedo2_motorOnFor"
  | .motorOn => "wedo2_motorOn"
  | .motorOff => "wedo2_motorOff"
  | .startMotorPower => "wedo2_startMotorPower"
  | .setMotorDirection => "wedo2_setMotorDirection"
  | .setLightHue => "wedo2_setLightHue"
  | .playNoteFor => "wedo2_playNoteFor"
  | .whenDistance => "wedo2_whenDistance"
  | .whenTilted => "wedo2_whenTilted"
  | .getDistance => "wedo2_getDistance"
  | .isTilted => "wedo2_isTilted"
  | .getTiltAngle => "wedo2_getTiltAngle"
  | .menuMotorId => "wedo2_menu_MOTOR_ID"
  | .menuMotorDirection => "wedo2_menu_MOTOR_DIRECTION"
  | .menuTiltDirection => "wedo2_menu_TILT_DIRECTION"
  | .menuTiltDirectionAny => "wedo2_menu_TILT_DIRECTION_ANY"

def all : List Robot :=
  [.motorOnFor, .motorOn, .motorOff, .startMotorPower, .setMotorDirection, .setLightHue,
    .playNoteFor, .whenDistance, .whenTilted, .getDistance, .isTilted, .getTiltAngle, .menuMotorId,
    .menuMotorDirection, .menuTiltDirection, .menuTiltDirectionAny]

end Robot

/-- An opcode of some group. -/
inductive Opcode where
  | motion (op : Motion)
  | looks (op : Looks)
  | audio (op : Audio)
  | event (op : Event)
  | control (op : Control)
  | sensing (op : Sensing)
  | operator (op : Operator)
  | data (op : Data)
  | procedure (op : Procedure)
  | music (op : Music)
  | pen (op : Pen)
  | video (op : Video)
  | robot (op : Robot)
  deriving DecidableEq

namespace Opcode

/-- The label in project files. -/
def label : Opcode → String
  | .motion op => op.label
  | .looks op => op.label
  | .audio op => op.label
  | .event op => op.label
  | .control op => op.label
  | .sensing op => op.label
  | .operator op => op.label
  | .data op => op.label
  | .procedure op => op.label
  | .music op => op.label
  | .pen op => op.label
  | .video op => op.label
  | .robot op => op.label

/-- Every opcode. -/
def all : List Opcode :=
  Motion.all.map .motion
    ++ Looks.all.map .looks
    ++ Audio.all.map .audio
    ++ Event.all.map .event
    ++ Control.all.map .control
    ++ Sensing.all.map .sensing
    ++ Operator.all.map .operator
    ++ Data.all.map .data
    ++ Procedure.all.map .procedure
    ++ Music.all.map .music
    ++ Pen.all.map .pen
    ++ Video.all.map .video
    ++ Robot.all.map .robot

/-- The opcode of a label. -/
def ofLabel? (label : String) : Option Opcode :=
  all.find? (·.label == label)

end Opcode

end ScratchExport
