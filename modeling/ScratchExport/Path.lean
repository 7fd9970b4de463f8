import ScratchExport.Text.Lines

/-!
# File paths

A path is written without empty and `.` segments. A leading slash is kept, and so are exactly two,
which are not the same as one; the empty path is `.`. `resolved` is the file that a path leads to,
with `..` taken as the folder above, and `way` lists the folders that it leads through.
-/

namespace ScratchExport.Path

/-- The segments of a path that are not idle. -/
def segments (path : List Char) : List (List Char) :=
  (Text.splitWhere (· == '/') path).filter fun s => !s.isEmpty && s != ['.']

/-- The slashes at the front that count. -/
def root : List Char → List Char
  | '/' :: '/' :: '/' :: _ => ['/']
  | '/' :: '/' :: _ => ['/', '/']
  | '/' :: _ => ['/']
  | _ => []

/-- A path in its normal form. -/
def normal (path : String) : String :=
  let cs := path.toList
  match root cs ++ Text.joinWith ['/'] (segments cs) with
  | [] => "."
  | normal => String.ofList normal

/-- Follow segments; `done` holds the segments so far, the last one first. Above the root there is
only the root. -/
def follow (rooted : Bool) : List (List Char) → List (List Char) → List (List Char)
  | done, [] => done.reverse
  | done, segment :: rest =>
    if segment == ['.', '.'] then
      match done with
      | [] => follow rooted (if rooted then [] else [segment]) rest
      | last :: earlier => follow rooted (if last == segment then segment :: done else earlier) rest
    else follow rooted (segment :: done) rest

/-- Where segments lead from a root, written without detours. -/
def reached (root : List Char) (segments : List (List Char)) : String :=
  match root ++ Text.joinWith ['/'] (follow (!root.isEmpty) [] segments) with
  | [] => "."
  | reached => String.ofList reached

/-- The path without detours. -/
def resolved (path : String) : String :=
  reached (root path.toList) (segments path.toList)

/-- A folder on the way along a path: the segment that leads to it, and where it lies. -/
structure Stop where
  name : List Char
  place : String

/-- The folders that a path leads through, the first one first. -/
def way (path : String) : List Stop :=
  let steps := segments path.toList
  (List.range steps.length).map fun n =>
    ⟨(steps.take n).getLast?.getD [], reached (root path.toList) (steps.take n)⟩

/-- The last segment of a path. -/
def name (path : String) : List Char :=
  (segments path.toList).getLast?.getD []

/-- The path ends at the root or one folder up, so that no file can lie there. -/
def endsAbove (path : String) : Bool :=
  if (segments path.toList).isEmpty then !(root path.toList).isEmpty else name path == ['.', '.']

end ScratchExport.Path
