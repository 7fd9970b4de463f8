import ScratchExport.Url.Parts

/-!
# Joining URLs

`join base url` is the URL that a reference `url` names when it is read at `base`. Path segments `.`
and `..` are resolved; a `..` at the root has no effect.
-/

namespace ScratchExport.Url

/-- The part of a path up to its last slash, that slash included, and the rest. -/
def lastSegment (path : List Char) : List Char × List Char :=
  let segment := (path.reverse.takeWhile (· != '/')).reverse
  (path.take (path.length - segment.length), segment)

/-- The path and the parameters of its last segment. -/
def parameters (scheme path : List Char) : List Char × List Char :=
  if schemeIn withParameters scheme && path.contains ';' then
    let (folder, segment) := lastSegment path
    let (name, parameters) := cutAt ';' segment
    (folder ++ name, parameters)
  else (path, [])

/-- Put parts together, with parameters behind the path. -/
def unsplitWith (p : Parts) (parameters : List Char) : List Char :=
  unsplit { p with path := appendPart p.path ';' parameters }

/-- The segments of a path. -/
def segments (path : List Char) : List (List Char) :=
  Text.splitWhere (· == '/') path

/-- The segments between the first and the last without the empty ones. -/
def dropInnerEmpty : List (List Char) → List (List Char)
  | [] => []
  | [a] => [a]
  | a :: rest => a :: rest.dropLast.filter (!·.isEmpty) ++ rest.drop (rest.length - 1)

/-- Resolve `.` and `..`; `done` holds the resolved segments, the last one first. -/
def resolve : List (List Char) → List (List Char) → List (List Char)
  | done, [] => done.reverse
  | done, segment :: rest =>
    if segment == ['.', '.'] then resolve (done.drop 1) rest
    else if segment == ['.'] then resolve done rest
    else resolve (segment :: done) rest

/-- The segments of a reference's path, put behind the folder of the base unless the path starts at
the root. -/
def joinSegments (basePath path : List Char) : List (List Char) :=
  match path with
  | '/' :: _ => segments path
  | _ =>
    let baseSegments := segments basePath
    let folder := if baseSegments.getLast? == some [] then baseSegments else baseSegments.dropLast
    dropInnerEmpty (folder ++ segments path)

/-- The path of a reference read at a base path. -/
def joinPath (basePath path : List Char) : List Char :=
  let all := joinSegments basePath path
  let resolved := resolve [] all
  let last := all.getLast?.getD []
  let resolved := if last == ['.'] || last == ['.', '.'] then resolved ++ [[]] else resolved
  match Text.joinWith ['/'] resolved with
  | [] => ['/']
  | joined => joined

/-- The URL that a reference names at a base. -/
def join (base url : List Char) : Except Fault (List Char) :=
  if base.isEmpty then .ok url
  else if url.isEmpty then .ok base
  else do
    let b ← split base
    let (basePath, baseParameters) := parameters b.scheme b.path
    let u ← splitWith b.scheme url
    let (path, ps) := parameters u.scheme u.path
    if u.scheme != b.scheme || !schemeIn withRelative u.scheme then return url
    else if schemeIn withAuthority u.scheme && !u.authority.isEmpty then
      return unsplitWith { u with path := path } ps
    else
      let located := if schemeIn withAuthority u.scheme then b.authority else u.authority
      if path.isEmpty && ps.isEmpty then
        let query := if u.query.isEmpty then b.query else u.query
        return unsplitWith ⟨u.scheme, located, basePath, query, u.fragment⟩ baseParameters
      else return unsplitWith ⟨u.scheme, located, joinPath basePath path, u.query, u.fragment⟩ ps

/-- `join` on strings. -/
def joinUrl (base url : String) : Except Fault String := do
  return String.ofList (← join base.toList url.toList)

end ScratchExport.Url
