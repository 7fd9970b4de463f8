import ScratchExport.Archive.Blocks
import ScratchExport.Project.Basic

/-!
# Projects from project files

A project file is one JSON record: targets with their data, costumes, sounds and blocks, and
monitors that say how variables and lists are shown. Costumes and sounds name their bytes, the
assets, by file name.
-/

namespace ScratchExport.Archive

/-- Files by name. -/
abbrev Assets := List (String × ByteArray)

/-- Monitors by the id of what they show; the last of equal ids counts. -/
def monitors (data : Value) : Except Fault (List (String × Value)) := do
  (← (← data.get "monitors" (.list [])).members).foldlM (fun known monitor => do
    match ← (← monitor.get "id" .null).asKey with
    | .text id => return Assoc.set id monitor known
    | _ => return known) []

/-- The name of the file that a costume or sound is kept in. -/
def assetName (item : Value) : Except Fault Value := do
  let name ← item.get "md5ext" .null
  if name.truthy then return name
  return .text ((← item.get "assetId" (.text "")).display ++ "." ++
    (← item.get "dataFormat" (.text "")).display)

/-- The bytes of a costume or sound. That they are missing is worth a warning if there are any
assets at all. -/
def asset (assets : Assets) (owner : Value) (kind : String) (item : Value) :
    Noted (Option ByteArray) := do
  let name ← (← assetName item).asKey
  let found := match name with
    | .text s => assets.lookup s
    | _ => none
  if found.isNone && !assets.isEmpty then
    Noted.note .loader .warning
      (owner.display ++ ": " ++ kind ++ " asset " ++ name.display ++ " is missing from the archive")
  return found

def costume (assets : Assets) (owner item : Value) : Noted Costume := do
  return {
    name := ← item.get "name" (.text "")
    md5 := ← item.get "assetId" (.text "")
    ext := ← item.get "dataFormat" (.text "svg")
    bitmapResolution := ← item.get "bitmapResolution" (.int 1)
    centerX := ← item.get "rotationCenterX" (.int 0)
    centerY := ← item.get "rotationCenterY" (.int 0)
    data := ← asset assets owner "costume" item }

def sound (assets : Assets) (owner item : Value) : Noted Sound := do
  return {
    name := ← item.get "name" (.text "")
    md5 := ← item.get "assetId" (.text "")
    ext := ← item.get "dataFormat" (.text "wav")
    sampleCount := ← item.get "sampleCount" (.int 0)
    rate := ← item.get "rate" (.int 0)
    data := ← asset assets owner "sound" item }

/-- A variable: its name, its value, and whether it is kept in the cloud. -/
def variableOf (monitors : List (String × Value)) (id : String) (item : Value) :
    Except Fault Variable := do
  let monitor := (monitors.lookup id).getD (.record [])
  return {
    name := ← item.item 0
    value := ← item.item 1
    id := id
    cloud := (← item.itemOrNull 2).truthy
    visible := ← monitor.get "visible" (.bool false)
    mode := ← monitor.get "mode" (.text "default")
    x := ← monitor.get "x" (.int 0)
    y := ← monitor.get "y" (.int 0)
    sliderMin := ← monitor.get "sliderMin" (.int 0)
    sliderMax := ← monitor.get "sliderMax" (.int 100)
    isDiscrete := ← monitor.get "isDiscrete" (.bool true) }

/-- An extent, or null when it is nothing. -/
def extent (v : Value) : Value :=
  if v.truthy then v else .null

/-- A list: its name and its items. -/
def listOf (monitors : List (String × Value)) (id : String) (item : Value) :
    Except Fault ListData := do
  let monitor := (monitors.lookup id).getD (.record [])
  return {
    name := ← item.item 0
    value := .list (← (← item.item 1).members)
    id := id
    visible := ← monitor.get "visible" (.bool false)
    x := ← monitor.get "x" (.int 0)
    y := ← monitor.get "y" (.int 0)
    width := extent (← monitor.get "width" .null)
    height := extent (← monitor.get "height" .null) }

/-- What the stage and sprites have in common. -/
def target (assets : Assets) (monitors : List (String × Value)) (name data : Value) :
    Reading Target := do
  return {
    name := name
    costumeNumber := ← data.get "currentCostume" (.int 0)
    volume := ← data.get "volume" (.int 100)
    layerOrder := ← data.get "layerOrder" (.int 0)
    costumes := ← (← (← data.get "costumes" (.list [])).members).mapM fun item =>
      costume assets name item
    sounds := ← (← (← data.get "sounds" (.list [])).members).mapM fun item => sound assets name item
    vars := ← (← (← data.get "variables" (.record [])).fields).mapM fun (id, item) =>
      variableOf monitors id item
    lists := ← (← (← data.get "lists" (.record [])).fields).mapM fun (id, item) =>
      listOf monitors id item
    scripts := ← Blocks.scripts ⟨name, ← (← data.get "blocks" (.record [])).fields⟩ }

/-- The rotation style that a project file names. -/
def rotationStyle : Value → RotationStyle
  | .text "left-right" => .leftRight
  | .text "don't rotate" => .dontRotate
  | _ => .allAround

def sprite (assets : Assets) (monitors : List (String × Value)) (data : Value) :
    Reading Sprite := do
  let name ← data.get "name" (.text "Sprite")
  let x ← data.get "x" (.int 0)
  let y ← data.get "y" (.int 0)
  let direction ← data.get "direction" (.int 90)
  let size ← data.get "size" (.int 100)
  let visible ← data.get "visible" (.bool true)
  let draggable ← data.get "draggable" (.bool false)
  let style := rotationStyle (← (← data.get "rotationStyle" .null).asKey)
  let target ← target assets monitors name data
  return ⟨target, x, y, direction, size, visible, draggable, style⟩

/-- Whether a target is the stage. -/
def isStage (data : Value) : Except Fault Bool := do
  return (← data.get "isStage" .null).truthy

/-- The first target that is the stage. -/
def stageData : List Value → Except Fault Value
  | [] => .error .noStage
  | data :: rest => do if ← isStage data then return data else stageData rest

/-- The sprites among the targets: those that are not the stage. -/
def sprites (assets : Assets) (monitors : List (String × Value)) :
    List Value → Reading (List Sprite)
  | [] => return []
  | data :: rest => do
    if ← isStage data then sprites assets monitors rest
    else
      let first ← sprite assets monitors data
      let others ← sprites assets monitors rest
      return first :: others

/-- The targets of a project file. -/
def targetList : Value → Except Fault (List Value)
  | .record fields => match fields.lookup "targets" with
    | some (.list targets) => .ok targets
    | _ => .error .noTargetList
  | _ => .error .noTargetList

/-- The project of a project file. -/
def readProject (data : Value) (assets : Assets) : Reading Project := do
  let targets ← targetList data
  let monitors ← monitors data
  let stageData ← stageData targets
  let stage ← target assets monitors (← stageData.get "name" (.text "Stage")) stageData
  let sprites ← sprites assets monitors targets
  return {
    stage := stage
    sprites := sprites
    tempo := ← stageData.get "tempo" (.int 60)
    videoOn := (← stageData.get "videoState" .null).isText "on"
    videoAlpha := ← stageData.get "videoTransparency" (.int 50) }

/-- The project of a project file; blocks without an id are numbered from one. -/
def project (data : Value) (assets : Assets) : Noted Project := do
  return (← (readProject data assets).run 1).1

end ScratchExport.Archive
