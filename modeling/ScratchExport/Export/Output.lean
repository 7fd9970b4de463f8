import ScratchExport.Export.Files
import ScratchExport.Path

/-!
# Output

The files and assets of an export are written to a folder or into one zip archive, files before
assets. In a folder, what is written later to a file replaces what was there, and no file can lie
where a folder is needed. An archive keeps every entry; the path of an entry ends before its first
null character. The folder holds nothing at first, and how long a whole path may be in it is not
asked here.
-/

namespace ScratchExport.Export

/-- Where an export goes. -/
inductive OutputKind where
  | folder
  | zip
  deriving DecidableEq

namespace OutputKind

def name : OutputKind → String
  | .folder => "leopard"
  | .zip => "leopard-zip"

/-- The kind of output with a name. -/
def ofName (name : String) : Except Fault OutputKind :=
  if name == folder.name then .ok .folder
  else if name == zip.name then .ok .zip
  else .error (.unknownOutput name)

end OutputKind

/-- What is written. -/
inductive Output where
  | folder (files : List (String × ByteArray))
  | zip (entries : List (String × ByteArray))

/-- The files as bytes, then the assets. -/
def contents (files : Files) (assets : List (String × ByteArray)) : List (String × ByteArray) :=
  files.map (fun (path, text) => (path, text.toUTF8)) ++ assets

/-- The most bytes that the name of a file or folder has. -/
def longestName : Nat := 255

/-- The most bytes that the path of an archive's entry has. -/
def longestEntry : Nat := 65535

/-- A folder that is being written: its files, and the folders made on the way to them. -/
structure Store where
  files : List (String × ByteArray) := []
  folders : List String := []

namespace Store

def isTooLong (name : List Char) : Bool :=
  longestName < (String.ofList name).utf8ByteSize

/-- Make the folders that lead to a file. -/
def makeFolders (s : Store) : List Path.Stop → Except Fault Store
  | [] => .ok s
  | stop :: rest =>
    if isTooLong stop.name then .error .nameTooLong
    else if (s.files.lookup stop.place).isSome then
      .error (if rest.isEmpty then .fileForFolder else .fileOnTheWay)
    else makeFolders { s with folders := s.folders ++ [stop.place] } rest

/-- Write a file, making the folders that lead to it. -/
def put (s : Store) (path : String) (bytes : ByteArray) : Except Fault Store := do
  let isNull (c : Char) : Bool := c == '\x00'
  if (Path.segments path.toList).dropLast.any (·.any isNull) then .error .nullInPath
  else do
    let s ← s.makeFolders (Path.way path)
    if path.toList.any isNull then .error .nullInPath
    else if isTooLong (Path.name path) then .error .nameTooLong
    else if Path.endsAbove path || s.folders.contains (Path.resolved path) then
      .error .folderForFile
    else .ok { s with files := Assoc.set (Path.resolved path) bytes s.files }

end Store

/-- The path of an entry in an archive. -/
def entryPath (path : String) : Except Fault String :=
  let kept := String.ofList (path.toList.takeWhile (· != '\x00'))
  if kept.isEmpty then .error .noSuchMember
  else if longestEntry < kept.utf8ByteSize then .error .entryTooLong
  else .ok kept

/-- What an export writes. -/
def output (files : Files) (assets : List (String × ByteArray)) : OutputKind → Except Fault Output
  | .folder => do
    let store ← (contents files assets).foldlM (fun s (path, bytes) =>
      s.put path bytes) ({} : Store)
    return .folder store.files
  | .zip => do
    return .zip (← (contents files assets).mapM fun (path, bytes) =>
      do return (← entryPath path, bytes))

/-- Write an export to a place, if there is one. -/
def write (files : Files) (assets : List (String × ByteArray)) (kind : OutputKind)
    (place : Option String) : Noted Output :=
  match place, kind with
  | none, .folder => .fail .noFolder
  | none, .zip => .fail .noArchiveFile
  | some place, _ => do
    let written ← output files assets kind
    Noted.note .command .trace ("wrote " ++ toString files.length ++ " files and "
      ++ toString assets.length ++ " assets to " ++ place)
    return written

end ScratchExport.Export
