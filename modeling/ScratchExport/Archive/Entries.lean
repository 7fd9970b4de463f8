import ScratchExport.Archive.Project

/-!
# Archives

An archive is a list of named entries. The project file is the entry `project.json`; all other
entries are assets. Of entries with one name the last counts.
-/

namespace ScratchExport.Archive

/-- The entries of an archive, in order. -/
abbrev Entries := List (String × ByteArray)

/-- The name of the project file. -/
def projectFile : String := "project.json"

/-- The entry with a name. -/
def entry? (entries : Entries) (name : String) : Option ByteArray :=
  entries.reverse.lookup name

/-- The data in the project file. -/
def projectData (entries : Entries) : Except Fault Value :=
  match entry? entries projectFile with
  | none => .error .noProjectFile
  | some bytes => match (String.fromUTF8? bytes).bind Json.read? with
    | some data => .ok data
    | none => .error .invalidProjectFile

/-- The assets of an archive. -/
def assetsIn (entries : Entries) : Assets :=
  Assoc.ofList (entries.filter (·.1 != projectFile))

/-- The project in an archive. -/
def load (entries : Entries) : Noted Project := do
  project (← projectData entries) (assetsIn entries)

end ScratchExport.Archive
