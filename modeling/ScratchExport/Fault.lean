/-!
# Faults

Why a computation stops. Project data is untyped, so most faults say which kind of value was needed
and not found; the rest are faults of an archive, of a URL, of what is written or of the command
line. `Fault.message?` gives the wording of those that are reported in words.
-/

namespace ScratchExport

/-- What stops a computation. -/
inductive Fault where
  /-- A list or a record was used as a key. -/
  | notAKey
  /-- Members were asked of a value that has none. -/
  | notASequence
  /-- Arithmetic met something that is no number. -/
  | notANumber
  /-- Text to be read was not text. -/
  | notText
  /-- Fields were asked of something that is no record. -/
  | notARecord
  /-- A name was not text. -/
  | notAName
  /-- A block input or procedure argument was something else. -/
  | notAnInput
  /-- A position is past the end. -/
  | noSuchMember
  /-- A record lacks a key. -/
  | noSuchKey
  /-- Text is not the numeral it should be. -/
  | badNumeral
  /-- A URL is malformed. -/
  | badUrl
  /-- A path is empty. -/
  | emptyPath
  /-- A number is too large for a double. -/
  | tooLarge
  /-- Text is not JSON. -/
  | malformedJson
  /-- Blocks refer to each other in a circle. -/
  | cyclicBlocks
  /-- Bytes are not an archive. -/
  | notAnArchive
  /-- An archive has no project file. -/
  | noProjectFile
  /-- The project file is not JSON text. -/
  | invalidProjectFile
  /-- The project has no list of targets. -/
  | noTargetList
  /-- No target is the stage. -/
  | noStage
  /-- The kind of output is unknown. -/
  | unknownOutput (name : String)
  /-- There is no folder to write to. -/
  | noFolder
  /-- There is no file to write an archive to. -/
  | noArchiveFile
  /-- A path holds a null character. -/
  | nullInPath
  /-- A file or folder has a name that is too long for a folder. -/
  | nameTooLong
  /-- An entry has a path that is too long for an archive. -/
  | entryTooLong
  /-- A path leads through a file. -/
  | fileOnTheWay
  /-- The folder of a file would lie where a file lies. -/
  | fileForFolder
  /-- A file would lie where a folder lies. -/
  | folderForFile
  /-- The input file is missing. -/
  | inputNotFound (path : String)
  /-- The command line ends the program with this exit code. -/
  | usage (code : Nat)
  deriving DecidableEq

namespace Fault

/-- The wording of a fault that is reported in words. -/
def message? : Fault → Option String
  | .notAnArchive => some "Not a valid .sb3 archive: File is not a zip file"
  | .noProjectFile => some "Archive does not contain project.json"
  | .invalidProjectFile => some "Invalid project.json"
  | .noTargetList => some "project.json has no target list"
  | .noStage => some "project.json has no stage target"
  | .unknownOutput name =>
    some ("Unknown output type '" ++ name ++ "', expected one of leopard, leopard-zip")
  | .inputNotFound path => some ("Input file not found: '" ++ path ++ "'")
  | _ => none

end Fault

end ScratchExport
