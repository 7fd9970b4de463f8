import ScratchExport.Layout.Indent
import ScratchExport.Value.Text

/-!
# Options of an export

Where the files of an export go and how they look. Paths of target files and URLs of assets are
policies: functions from a class name or an asset. A policy can also be given as a template, in
which words in braces stand for what they name; `fillTemplate` fills one in a single pass, so that
what was filled in is not looked at again.
-/

namespace ScratchExport.Export

/-- Costumes and sounds. -/
inductive AssetKind where
  | costume
  | sound
  deriving DecidableEq

/-- The word for a kind of asset. -/
def AssetKind.word : AssetKind → String
  | .costume => "costume"
  | .sound => "sound"

/-- The folder for a kind of asset. -/
def AssetKind.folder : AssetKind → String
  | .costume => "costumes"
  | .sound => "sounds"

/-- A costume or sound of a target, as far as its URL depends on it. -/
structure AssetInfo where
  kind : AssetKind
  /-- The class of the target. -/
  target : String
  name : Value
  md5 : Value
  ext : Value

/-- Assets lie in a folder of their target. -/
def defaultAssetUrl (a : AssetInfo) : String :=
  "./" ++ a.target ++ "/" ++ a.kind.folder ++ "/" ++ a.name.display ++ "." ++ a.ext.display

/-- Each class has a folder beside the entry module. -/
def defaultEntryToTarget (className : String) : String :=
  "./" ++ className ++ "/" ++ className ++ ".js"

/-- From the folder of one class to that of another. -/
def defaultTargetToTarget (className : String) : String :=
  "../" ++ className ++ "/" ++ className ++ ".js"

/-- Where the files of an export go and how they look. -/
structure Options where
  entryUrl : String := "./index.js"
  pageUrl : String := "./index.html"
  runtimeModuleUrl : String := "https://unpkg.com/leopard@^1/dist/index.esm.js"
  runtimeStyleUrl : String := "https://unpkg.com/leopard@^1/dist/index.min.css"
  entryToTarget : String → String := defaultEntryToTarget
  targetToTarget : String → String := defaultTargetToTarget
  assetUrl : AssetInfo → String := defaultAssetUrl
  autoplay : Bool := true
  /-- Without a layout no script can be written. -/
  layout : Option Layout.Options := some {}

/-! ### Templates -/

/-- The word that ends at the next closing brace, and what follows the brace. -/
def bracedWord? : List Char → Option (List Char × List Char)
  | [] => none
  | '\x7d' :: rest => some ([], rest)
  | c :: rest => (bracedWord? rest).map fun (word, after) => (c :: word, after)

/-- Fill the words in braces that are known; `fuel` bounds the number of steps. -/
def fillChars (words : List (String × String)) : Nat → List Char → List Char
  | 0, cs => cs
  | _, [] => []
  | fuel + 1, c :: rest =>
    let known := if c == '\x7b' then
        (bracedWord? rest).bind fun (word, after) =>
          (words.lookup (String.ofList word)).map (·, after)
      else none
    match known with
    | some (text, after) => text.toList ++ fillChars words fuel after
    | none => c :: fillChars words fuel rest

/-- Fill a template. Every step takes at least one character, so its length bounds the steps. -/
def fillTemplate (words : List (String × String)) (template : String) : String :=
  String.ofList (fillChars words template.length template.toList)

/-- The path policy of a template, in which `name` is the class name. -/
def pathTemplate (template : String) (className : String) : String :=
  fillTemplate [("name", className)] template

/-- The asset policy of a template. -/
def assetTemplate (template : String) (a : AssetInfo) : String :=
  fillTemplate [("kind", a.kind.word), ("target", a.target), ("name", a.name.display),
    ("md5", a.md5.display), ("ext", a.ext.display)] template

end ScratchExport.Export
