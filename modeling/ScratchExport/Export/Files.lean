import ScratchExport.Assoc
import ScratchExport.Export.TargetFile
import ScratchExport.Layout.Format

/-!
# The files of an export

`files` gives the generated files by path: the page, the entry module and a file for every target.
`assets` gives the bytes of costumes and sounds by the path to which their URLs, read at the page,
lead. What is written later to a path replaces what was there.
-/

namespace ScratchExport.Export

/-- Text files by path. -/
abbrev Files := List (String × String)

namespace Job

/-- Add the files of targets. -/
def addTargetFiles (job : Job) : List (Nat × Target × Name.TargetNames) → Files → Noted Files
  | [], files => return files
  | (index, t, names) :: rest, files => do
    let url ← job.targetUrl names.className
    let text ← job.targetFile index t names url
    job.addTargetFiles rest (Assoc.set (← outputPath url) text files)

/-- The targets with their indices and names. -/
def numberedTargets (job : Job) : List (Nat × Target × Name.TargetNames) :=
  (List.range job.project.targets.length).zip (job.project.targets.zip job.names.targets)

/-- The files before they are laid out. -/
def build (job : Job) : Noted Files := do
  let page ← job.page
  let files := Assoc.set (← outputPath job.pageUrl) page []
  let entry ← job.entry
  let files := Assoc.set (← outputPath job.entryUrl) entry files
  job.checkTargetPaths
  let files ← job.addTargetFiles job.numberedTargets files
  files.forM fun (path, _) => Noted.note .exporter .trace ("assembled " ++ path)
  return files

end Job

/-- The generated files of a project. -/
def files (p : Project) (o : Options) : Noted Files := do
  let job ← Job.make p o
  let files ← job.build
  match o.layout with
  | some layout => return files.map fun (path, text) => (path, Layout.format layout path text)
  | none => .fail .notANumber

/-! ### Assets -/

/-- The costumes and sounds of a target that have bytes. -/
def assetsOf (className : String) (t : Target) : List (AssetInfo × ByteArray) :=
  (t.costumes.filterMap fun c => c.data.map fun bytes =>
    (⟨.costume, className, c.name, c.md5, c.ext⟩, bytes))
    ++ t.sounds.filterMap fun s => s.data.map fun bytes =>
      (⟨.sound, className, s.name, s.md5, s.ext⟩, bytes)

/-- Add an asset, unless its URL leads elsewhere. -/
def addAsset (o : Options) (pageUrl : String) (assets : List (String × ByteArray))
    (entry : AssetInfo × ByteArray) : Noted (List (String × ByteArray)) := do
  let (info, bytes) := entry
  let url ← Url.joinUrl pageUrl (o.assetUrl info)
  if ← Url.isLocal url then return Assoc.set (← Url.filePath url) bytes assets
  else
    Noted.note .command .trace
      ("not writing " ++ info.kind.word ++ " asset " ++ info.name.display ++ ", it resolves to " ++
        url)
    return assets

/-- The assets of a project by path. -/
def assets (p : Project) (o : Options) : Noted (List (String × ByteArray)) := do
  let names ← Name.assign p
  let pageUrl ← Url.joinUrl Url.localOrigin o.pageUrl
  let all := (names.targets.zip p.targets).flatMap fun (names, t) => assetsOf names.className t
  all.foldlM (addAsset o pageUrl) []

end ScratchExport.Export
