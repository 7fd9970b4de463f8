import ScratchExport.Compile.Method
import ScratchExport.Export.Watcher

/-!
# Target files

The file of a target defines its class: a constructor that lists costumes, sounds and triggers, sets
the data and makes the watchers, and a method for each script.
-/

namespace ScratchExport.Export

/-- The costume as the runtime makes it. -/
def costumeSource (o : Options) (className : String) (c : Costume) : Except Fault String := do
  let center ← Literal.initial (.record [("x", c.centerX), ("y", c.centerY)])
  let url := o.assetUrl ⟨.costume, className, c.name, c.md5, c.ext⟩
  return "new Costume(" ++ c.name.json ++ ", " ++ Text.literal url ++ ", " ++ center ++ ")"

/-- The sound as the runtime makes it. -/
def soundSource (o : Options) (className : String) (s : Sound) : String :=
  let url := o.assetUrl ⟨.sound, className, s.name, s.md5, s.ext⟩
  "new Sound(" ++ s.name.json ++ ", " ++ Text.literal url ++ ")"

/-- The lines that set a list of the constructor. -/
def listLines (name : String) (items : List String) : List String :=
  ["this." ++ name ++ " = [", ",\n".intercalate items, "];", ""]

/-- The lines that set the volume, unless it is full. -/
def volumeLines (volume : Value) : Except Fault (List String) :=
  if volume.same (.int 100) then .ok []
  else do return ["this.audioEffects.volume = " ++ (← Literal.initial volume) ++ ";", ""]

/-- The property that holds data. -/
def propertyOf (names : Name.TargetNames) (d : Datum) : Except Fault String :=
  match names.data.lookup d.id with
  | some property => .ok property
  | none => .error .noSuchKey

/-- The line that sets data to the value it starts with. -/
def dataLine (names : Name.TargetNames) (d : Datum) : Except Fault String := do
  let property ← propertyOf names d
  return "this.vars." ++ property ++ " = " ++ (← Literal.initial d.value) ++ ";"

/-- The statement that makes the watcher of data, if it has one. -/
def watcherLine? (t : Target) (isStage : Bool) (names : Name.TargetNames) (watched : List String)
    (d : Datum) : Except Fault (Option String) := do
  if d.visible.truthy || watched.contains d.id then
    return some (← watcherSource t isStage (← propertyOf names d) d)
  else return none

/-- The lines of the constructor from the costumes to the watchers. -/
def constructorLines (job : Job) (isStage : Bool) (t : Target) (names : Name.TargetNames)
    (triggers : List String) : Except Fault (List String) := do
  let costumes ← t.costumes.mapM (costumeSource job.options names.className)
  let sounds := t.sounds.map (soundSource job.options names.className)
  let volume ← volumeLines t.volume
  let data ← (dataOf t).mapM (dataLine names)
  let watched ← watchedIds job.project t isStage
  let watchers ← (dataOf t).mapM (watcherLine? t isStage names watched)
  return listLines "costumes" costumes ++ listLines "sounds" sounds ++
    listLines "triggers" triggers ++ volume ++ data ++ [""] ++ watchers.filterMap id

/-- The lines up to the constructor's own. -/
def headLines (isStage : Bool) (className runtime : String) : List String :=
  let base := if isStage then "StageBase" else "Sprite"
  let imported := if isStage then "Stage as StageBase" else "Sprite"
  ["import \x7b " ++ imported ++ ", Trigger, Watcher, Costume, Color, Sound \x7d from " ++
    Text.literal runtime ++ ";",
    "", "export default class " ++ className ++ " extends " ++ base ++ " \x7b",
    "constructor(...args) \x7b",
    "super(...args);", ""]

/-- The file of a target at an address. -/
def Job.targetFile (job : Job) (index : Nat) (t : Target) (names : Name.TargetNames)
    (url : String) : Noted String := do
  let isStage := index == 0
  let runtime ← Url.relativeUrl url job.runtimeUrl
  let code ← Compile.targetCode job.project job.names index
  let constructor ← constructorLines job isStage t names code.triggers
  let methods := code.methods.flatMap fun m => ["", m.render]
  return "\n".intercalate (headLines isStage names.className runtime ++ constructor ++ ["\x7d"] ++
    methods ++ ["\x7d"])

end ScratchExport.Export
