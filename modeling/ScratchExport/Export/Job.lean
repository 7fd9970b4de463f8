import ScratchExport.Export.Options
import ScratchExport.Name.Table
import ScratchExport.Noted
import ScratchExport.Url.Relative

/-!
# Addresses of the exported files

The page lies below the local origin, the entry module is named from the page, the target files and
the runtime from the entry module. A job is a project with its names and these addresses.
-/

namespace ScratchExport.Export

/-- A project to export. -/
structure Job where
  project : Project
  names : Name.Table
  options : Options
  pageUrl : String
  entryUrl : String
  runtimeUrl : String

namespace Job

/-- Choose names and resolve the addresses. -/
def make (project : Project) (options : Options) : Except Fault Job := do
  let names ← Name.assign project
  let pageUrl ← Url.joinUrl Url.localOrigin options.pageUrl
  let entryUrl ← Url.joinUrl pageUrl options.entryUrl
  let runtimeUrl ← Url.joinUrl entryUrl options.runtimeModuleUrl
  return ⟨project, names, options, pageUrl, entryUrl, runtimeUrl⟩

/-- The classes of the targets, in order. -/
def classNames (job : Job) : List String :=
  job.names.targets.map (·.className)

/-- The address of the file of a class. -/
def targetUrl (job : Job) (className : String) : Except Fault String :=
  Url.joinUrl job.entryUrl (job.options.entryToTarget className)

/-- Report something about the files. -/
def warn (message : String) : Noted Unit :=
  .note .exporter .degraded message

/-- The path of the file at an address, with a warning when the address is not a local one. -/
def outputPath (url : String) : Noted String := do
  if !(← Url.isLocal url) then warn ("output URL " ++ url ++ " is not relative to the export root")
  Url.filePath url

/-- Warn about a class whose file other targets would look for elsewhere. -/
def checkTargetPath (job : Job) (base className : String) : Noted Unit := do
  let resolved ← Url.joinUrl base (job.options.targetToTarget className)
  let expected ← job.targetUrl className
  if resolved != expected then
    warn ("path_from_target_to_target for " ++ className ++ " resolves to " ++ resolved ++
      ", expected " ++ expected)

/-- Check that the two path policies agree, if there is a target that could refer to another. -/
def checkTargetPaths (job : Job) : Noted Unit :=
  match job.classNames with
  | first :: second :: rest => do
    let base ← job.targetUrl first
    (first :: second :: rest).forM (job.checkTargetPath base)
  | _ => return

end Job

end ScratchExport.Export
