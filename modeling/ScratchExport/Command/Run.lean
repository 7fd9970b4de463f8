import ScratchExport.Archive.Entries
import ScratchExport.Command.Arguments

/-!
# Running a command

The command loads the project of an archive, exports it and writes the result. Its log holds all
notes when it is to be verbose, and otherwise only the warnings about the archive.
-/

namespace ScratchExport.Command

/-- Export an archive. -/
def convert (archive : Except Fault Archive.Entries) (kind : Export.OutputKind) (o : Export.Options)
    (place : Option String) : Noted (Export.Files × Export.Output) := do
  let project ← Archive.load (← archive)
  let files ← Export.files project o
  let assets ← Export.assets project o
  return (files, ← Export.write files assets kind place)

/-- The word for a part of the program in the log. -/
def originWord : Origin → String
  | .loader => "sb3"
  | .generator => "codegen"
  | .exporter => "assembler"
  | .command => "compiler"

/-- The full log of a note; what degrades the output is also a warning of the command. -/
def fullLog (n : Note) : List String :=
  let written (level : String) (origin : Origin) :=
    level ++ " " ++ originWord origin ++ ": " ++ n.message
  match n.severity with
  | .trace => [written "DEBUG" n.origin]
  | .degraded => [written "DEBUG" n.origin, written "WARNING" .command]
  | .warning => [written "WARNING" n.origin]

/-- The short log of a note. -/
def shortLog (n : Note) : List String :=
  match n.severity with
  | .warning => [n.message]
  | .trace | .degraded => []

/-- The log of a run. -/
def log (verbose : Bool) (notes : List Note) : List String :=
  notes.flatMap (if verbose then fullLog else shortLog)

/-- How a kind of output that was left out is named. -/
def noKind : String := "[]"

/-- Run a command, where `archiveAt` reads the file at a path if there is one. -/
def run (s : Settings) (archiveAt : String → Option (Except Fault Archive.Entries)) :
    Noted Export.Output :=
  match archiveAt s.input with
  | none => .fail (.inputNotFound s.input)
  | some archive => match s.kind with
    | none => .fail (.unknownOutput noKind)
    | some kind => do return (← convert archive kind s.options s.output).2

end ScratchExport.Command
