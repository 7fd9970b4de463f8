import ScratchExport.Export.Job
import ScratchExport.Literal.Source

/-!
# The page and the entry module

The page shows the project and starts it. The entry module imports the class of every target and
makes the stage, the sprites and the project from them.
-/

namespace ScratchExport.Export

namespace Job

/-- The page, line by line. -/
def pageLines (job : Job) (entry : String) : List String :=
  [ "<!DOCTYPE html>",
    "<html>",
    "  <head>",
    "    <link rel=\"stylesheet\" href=\"" ++ job.options.runtimeStyleUrl ++ "\" />",
    "  </head>",
    "  <body>",
    "    <button id=\"greenFlag\">Green Flag</button>",
    "    <div id=\"project\"></div>",
    "",
    "    <script type=\"module\">",
    "      import project from " ++ Text.literal entry ++ ";",
    "",
    "      project.attach(\"#project\");",
    "",
    "      document",
    "        .querySelector(\"#greenFlag\")",
    "        .addEventListener(\"click\", () => \x7b",
    "          project.greenFlag();",
    "        \x7d);" ]
  ++ (if job.options.autoplay then ["", "      // Autoplay", "      project.greenFlag();"] else [])
  ++ ["    </script>", "  </body>", "</html>"]

/-- The page. -/
def page (job : Job) : Except Fault String := do
  return "\n".intercalate (job.pageLines (← Url.relativeUrl job.pageUrl job.entryUrl))

/-- The import of a class. -/
def importLine (job : Job) (className : String) : String :=
  "import " ++ className ++ " from " ++ Text.literal (job.options.entryToTarget className) ++ ";"

/-- Costumes count from one. -/
def costumeNumber (t : Target) : Except Fault String := do
  return (← t.costumeNumber.add (.int 1)).display

end Job

/-- The runtime's name for a rotation style. -/
def rotationStyleSource : RotationStyle → String
  | .allAround => "Sprite.RotationStyle.ALL_AROUND"
  | .leftRight => "Sprite.RotationStyle.LEFT_RIGHT"
  | .dontRotate => "Sprite.RotationStyle.DONT_ROTATE"

/-- A record of a generated file, one field a line, with `opening` before and `closing`
behind it. -/
def recordSource (opening : String) (fields : List String) (closing : String) : String :=
  opening ++ "\x7b\n" ++ ",\n".intercalate fields ++ "\n\x7d" ++ closing

/-- The entry of a sprite in the record of sprites. -/
def spriteSource (className : String) (s : Sprite) : Except Fault String := do
  let x ← Literal.initial s.x
  let y ← Literal.initial s.y
  let direction ← Literal.initial s.direction
  let costume ← Job.costumeNumber s.toTarget
  let size ← Literal.initial s.size
  let visible ← Literal.initial s.visible
  return recordSource (className ++ ": new " ++ className ++ "(")
    ["x: " ++ x, "y: " ++ y, "direction: " ++ direction,
      "rotationStyle: " ++ rotationStyleSource s.rotationStyle, "costumeNumber: " ++ costume,
      "size: " ++ size,
      "visible: " ++ visible, "layerOrder: " ++ s.layerOrder.display]
    "),"

namespace Job

/-- The class of the stage. -/
def stageClass (job : Job) : String :=
  job.classNames.headD ""

/-- The entry module. -/
def entry (job : Job) : Except Fault String := do
  let stageCostume ← costumeNumber job.project.stage
  let sprites ← (job.classNames.tail.zip job.project.sprites).mapM fun (name, s) =>
    spriteSource name s
  return "\n".intercalate (
    ["import \x7b Project, Sprite \x7d from " ++ Text.literal job.options.runtimeModuleUrl ++ ";",
      ""]
    ++ job.classNames.map job.importLine
    ++ ["", "const stage = new " ++ job.stageClass ++ "(\x7b costumeNumber: " ++ stageCostume ++
      " \x7d);", "", "const sprites = \x7b"]
    ++ sprites
    ++ ["\x7d;", "", "const project = new Project(stage, sprites, \x7b",
      "  frameRate: 30 // Set to 60 to make your project run faster", "\x7d);",
      "export default project;"])

end Job

end ScratchExport.Export
