import ScratchExport.Url.Join

/-!
# Local URLs and relative references

Files of an export are addressed below a fixed local origin. `isLocal` tells whether a URL lies
there, `filePath` gives the path of the file below the export root, and `relativeUrl` writes a
reference from one local file to another; a URL elsewhere is referred to as it is.
-/

namespace ScratchExport.Url

/-- The origin below which the files of an export lie. -/
def localOrigin : String := "https://local.invalid/"

/-- Whether a URL has the local origin. -/
def isLocalChars (cs : List Char) : Except Fault Bool := do
  let p ← split cs
  return p.scheme == "https".toList && p.authority == "local.invalid".toList

/-- Whether a URL has the local origin. -/
def isLocal (url : String) : Except Fault Bool :=
  isLocalChars url.toList

/-- The path of a URL below the export root. -/
def filePath (url : String) : Except Fault String := do
  return String.ofList ((← split url.toList).path.dropWhile (· == '/'))

/-- The segments of an absolute path, with `.` and `..` resolved. -/
def normalSegments (path : List Char) : List (List Char) :=
  resolve [] ((segments path).filter (!·.isEmpty))

/-- The folder of a path. -/
def folder (path : List Char) : List Char :=
  (lastSegment path).1

/-- The way from one list of segments to another, up through what they do not share. -/
def wayBetween : List (List Char) → List (List Char) → List (List Char)
  | a :: as, b :: bs =>
    if a == b then wayBetween as bs else (a :: as).map (fun _ => ['.', '.']) ++ b :: bs
  | as, bs => as.map (fun _ => ['.', '.']) ++ bs

/-- The path from a folder to a path. -/
def relativePath (path start : List Char) : Except Fault (List Char) :=
  if path.isEmpty then .error .emptyPath
  else
    match wayBetween (normalSegments start) (normalSegments path) with
    | [] => .ok ['.']
    | way => .ok (Text.joinWith ['/'] way)

/-- A reference to `goal` that can stand in the file at `origin`. -/
def relativeChars (origin goal : List Char) : Except Fault (List Char) := do
  if !(← isLocalChars origin) then return goal
  if !(← isLocalChars goal) then return goal
  let source ← split origin
  let target ← split goal
  let way ← relativePath target.path (folder source.path)
  let way := if ['.', '.', '/'].isPrefixOf way then way else '.' :: '/' :: way
  return unsplit ⟨[], [], way, target.query, target.fragment⟩

/-- `relativeChars` on strings. -/
def relativeUrl (origin goal : String) : Except Fault String := do
  return String.ofList (← relativeChars origin.toList goal.toList)

end ScratchExport.Url
