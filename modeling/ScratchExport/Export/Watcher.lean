import ScratchExport.Export.Page

/-!
# Watchers

A watcher shows a variable or list on the stage. Data gets one when it is visible from the start or
when a block of a script may show or hide it: a block of the owner, or of any target if the owner is
the stage.
-/

namespace ScratchExport.Export

/-- A variable or list of a target. -/
inductive Datum where
  | variable (v : Variable)
  | list (l : ListData)

namespace Datum

def id : Datum → String
  | .variable v => v.id
  | .list l => l.id

def name : Datum → Value
  | .variable v => v.name
  | .list l => l.name

/-- The value it starts with. -/
def value : Datum → Value
  | .variable v => v.value
  | .list l => l.value

def visible : Datum → Value
  | .variable v => v.visible
  | .list l => l.visible

def x : Datum → Value
  | .variable v => v.x
  | .list l => l.x

def y : Datum → Value
  | .variable v => v.y
  | .list l => l.y

end Datum

/-- The data of a target: variables, then lists. -/
def dataOf (t : Target) : List Datum :=
  t.vars.map .variable ++ t.lists.map .list

/-- The slot of a block that shows or hides a watcher. -/
def watcherSlot? : BlockKind → Option String
  | .known (.data .showVariable) | .known (.data .hideVariable) => some "VARIABLE"
  | .known (.data .showList) | .known (.data .hideList) => some "LIST"
  | _ => none

/-- The data that a block shows or hides. -/
def watcherRef? (b : Block) : Except Fault (Option DataRef) := do
  let _ ← b.kind.label.asKey
  return (watcherSlot? b.kind).bind fun slot =>
    match b.input? slot with
    | some (.reference _ ref) => some ref
    | _ => match b.literal slot .null with
      | .null => none
      | v => some ⟨.null, .text v.display⟩

/-- The references of all blocks of a target that show or hide a watcher. -/
def watcherRefs (t : Target) : Except Fault (List DataRef) := do
  let blocks ← t.scripts.mapM fun s => s.walk
  return (← blocks.flatten.mapM watcherRef?).filterMap id

/-- Whether a reference is to this data: by id, or by name when it has no id. -/
def refersTo (ref : DataRef) (d : Datum) : Bool :=
  match ref.id with
  | .null => ref.name.same d.name
  | id => id.same (.text d.id)

/-- The ids of the data of a target that some block may show or hide. -/
def watchedIds (p : Project) (t : Target) (isStage : Bool) : Except Fault (List String) := do
  let refs ← (if isStage then p.targets else [t]).mapM watcherRefs
  return ((dataOf t).filter fun d => refs.flatten.any (refersTo · d)).map (·.id)

/-- The style of a variable's watcher. -/
def watcherStyle (mode : Value) : String :=
  if mode.isText "large" then "large" else if mode.isText "slider" then "slider" else "normal"

/-- The fields for the style of a watcher. -/
def styleField : Datum → Except Fault String
  | .variable v => do return "style: " ++ Text.literal (watcherStyle (← v.mode.asKey))
  | .list _ => .ok "style: \"normal\""

/-- The fields of a slider. -/
def sliderFields (property : String) : Datum → Except Fault (List String)
  | .variable v =>
    if v.mode.isText "slider" then do
      let least ← Literal.initial v.sliderMin
      let most ← Literal.initial v.sliderMax
      return ["setValue: value => \x7b\nthis.vars." ++ property ++ " = value;\n\x7d",
        "step: " ++ (if v.isDiscrete.truthy then "1" else "0.01"), "min: " ++ least,
        "max: " ++ most]
    else .ok []
  | .list _ => .ok []

/-- The field for an extent of a list. -/
def extentField (name : String) : Value → Except Fault (List String)
  | .null => .ok []
  | v => do return [name ++ ": " ++ (← Literal.initial v)]

/-- The fields for the extents of a watcher. -/
def extentFields : Datum → Except Fault (List String)
  | .variable _ => .ok []
  | .list l => do
    let width ← extentField "width" l.width
    let height ← extentField "height" l.height
    return width ++ height

/-- The label of a watcher; data of a sprite is labelled with its owner. -/
def watcherLabel (t : Target) (isStage : Bool) (d : Datum) : Value :=
  if isStage then d.name else .text (t.name.display ++ ": " ++ d.name.display)

/-- The statement that makes a watcher. Positions on the stage count from its upper left corner. -/
def watcherSource (t : Target) (isStage : Bool) (property : String) (d : Datum) :
    Except Fault String := do
  let style ← styleField d
  let visible ← Literal.initial d.visible
  let slider ← sliderFields property d
  let x ← Literal.initial (← d.x.add (.int 240))
  let y ← Literal.initial (← Value.sub (.int 180) d.y)
  let extents ← extentFields d
  return recordSource ("this.watchers." ++ property ++ " = new Watcher(")
    (["label: " ++ (watcherLabel t isStage d).json, style, "visible: " ++ visible,
      "value: () => this.vars." ++ property] ++ slider ++ ["x: " ++ x, "y: " ++ y] ++ extents)
    ");"

end ScratchExport.Export
