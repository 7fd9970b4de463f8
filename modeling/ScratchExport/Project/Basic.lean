import ScratchExport.Project.Script

/-!
# Projects

A project has a stage and sprites. Both are targets: they own variables, lists, costumes, sounds and
scripts. Fields that a project file leaves untyped are values.
-/

namespace ScratchExport

/-- A variable and how it is shown on the stage. -/
structure Variable where
  name : Value
  value : Value := .int 0
  id : String
  cloud : Bool := false
  visible : Value := .bool false
  mode : Value := .text "default"
  x : Value := .int 0
  y : Value := .int 0
  sliderMin : Value := .int 0
  sliderMax : Value := .int 100
  isDiscrete : Value := .bool true

/-- A list and how it is shown on the stage. -/
structure ListData where
  name : Value
  value : Value := .list []
  id : String
  visible : Value := .bool false
  x : Value := .int 0
  y : Value := .int 0
  width : Value := .null
  height : Value := .null

/-- A picture of a target. -/
structure Costume where
  name : Value
  md5 : Value := .text ""
  ext : Value := .text "svg"
  bitmapResolution : Value := .int 1
  centerX : Value := .int 0
  centerY : Value := .int 0
  data : Option ByteArray := none

/-- A sound of a target. -/
structure Sound where
  name : Value
  md5 : Value := .text ""
  ext : Value := .text "wav"
  sampleCount : Value := .int 0
  rate : Value := .int 0
  data : Option ByteArray := none

/-- The stage or a sprite. -/
structure Target where
  name : Value
  vars : List Variable := []
  lists : List ListData := []
  costumes : List Costume := []
  sounds : List Sound := []
  scripts : List Script := []
  costumeNumber : Value := .int 0
  volume : Value := .int 100
  layerOrder : Value := .int 0

/-- How a sprite turns its costume. -/
inductive RotationStyle where
  | allAround
  | leftRight
  | dontRotate
  deriving DecidableEq

namespace RotationStyle

/-- The word for a style in project data. -/
def word : RotationStyle → String
  | .allAround => "normal"
  | .leftRight => "leftRight"
  | .dontRotate => "none"

/-- The style of a word; other words leave the sprite free to turn. -/
def ofWord (s : String) : RotationStyle :=
  if s == "leftRight" then .leftRight else if s == "none" then .dontRotate else .allAround

end RotationStyle

/-- A target with a place on the stage. -/
structure Sprite extends Target where
  x : Value := .int 0
  y : Value := .int 0
  direction : Value := .int 90
  size : Value := .int 100
  visible : Value := .bool true
  draggable : Value := .bool false
  rotationStyle : RotationStyle := .allAround

/-- A stage and sprites. -/
structure Project where
  stage : Target
  sprites : List Sprite := []
  tempo : Value := .int 60
  videoOn : Bool := false
  videoAlpha : Value := .int 50

/-- The stage, then the sprites. -/
def Project.targets (p : Project) : List Target :=
  p.stage :: p.sprites.map (·.toTarget)

namespace Target

/-- The first procedure of a target with a given code. -/
def findProcedure (t : Target) (proccode : Value) : Option Nat :=
  t.scripts.findIdx? fun s => s.isProcedure && s.proccode.same proccode

/-- The script at an index is a procedure that runs without screen refresh. -/
def isWarpAt (t : Target) (i : Nat) : Bool :=
  (t.scripts[i]?.map (·.isWarp)).getD false

/-- The name of the script at an index. -/
def nameAt (t : Target) (i : Nat) : Value :=
  match t.scripts[i]? with
  | some s => s.name
  | none => .null

end Target

end ScratchExport
