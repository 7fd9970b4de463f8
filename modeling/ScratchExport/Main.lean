import ScratchExport.Command.Run
import ScratchExport.Zip.Archive

/-!
# The command line

Reads the archive that the arguments name, runs the command and writes its output: files into a
folder, or one zip archive. The log goes to standard error.
-/

namespace ScratchExport.Main

/-- The folder that a path lies in. -/
def folderOf (path : String) : String :=
  Path.normal (String.ofList (path.toList.reverse.dropWhile (· != '/')).reverse)

/-- Write a file, making its folder if there is none. -/
def writeFile (path : String) (bytes : ByteArray) : IO Unit := do
  IO.FS.createDirAll (folderOf path)
  IO.FS.writeBinFile path bytes

/-- Write an output to a place. -/
def writeOutput (place : String) : Export.Output → IO Unit
  | .folder files => files.forM fun (path, bytes) => writeFile (place ++ "/" ++ path) bytes
  | .zip entries => writeFile place (Zip.write entries)

/-- The archive in the file at a path, if the file can be read. -/
def archiveAt (path : String) : IO (Option (Except Fault Archive.Entries)) := do
  match ← (IO.FS.readBinFile path).toBaseIO with
  | .error _ => return none
  | .ok bytes => match Zip.read? bytes with
    | some entries => return some (.ok entries)
    | none => return some (.error .notAnArchive)

/-- What to say about a fault. -/
def describe (fault : Fault) : String :=
  fault.message?.getD "the project data is malformed"

/-- How the program is called. -/
def usage : String :=
  "usage: scratch-export [-h] [--output-type \x7bleopard,leopard-zip\x7d] [--runtime-url URL] [--runtime-style-url URL]\n"
    ++ "                      [--no-autoplay] [--indent INDENT] [--tabs] [--verbose] input output"

/-- Carry out the settings. -/
def carryOut (settings : Command.Settings) : IO UInt32 := do
  let archive ← archiveAt settings.input
  let outcome := Command.run settings fun _ => archive
  (Command.log settings.verbose outcome.notes).forM fun line => IO.eprintln line
  match outcome.result with
  | .ok output =>
    (settings.output).forM fun place => writeOutput place output
    return 0
  | .error fault =>
    IO.eprintln (describe fault)
    return 1

end ScratchExport.Main

/-- Export a project as the arguments say. -/
def main (args : List String) : IO UInt32 := do
  match ScratchExport.Command.parse args with
  | .ok settings => ScratchExport.Main.carryOut settings
  | .error (.usage code) =>
    if code == 0 then IO.println ScratchExport.Main.usage else IO.eprintln ScratchExport.Main.usage
    return code.toUInt32
  | .error fault =>
    IO.eprintln (ScratchExport.Main.describe fault)
    return 1
