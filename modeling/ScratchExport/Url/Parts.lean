import ScratchExport.Fault
import ScratchExport.Url.Host

/-!
# The parts of a URL

`split` takes a URL apart into scheme, authority, path, query and fragment, and `unsplit` puts parts
together. Blanks and controls at the front and all tabs and line ends are ignored. A malformed host
is a fault: brackets of one kind only, brackets around a part of the host, a host that is no address
in an authority with brackets, or characters that stand for a separator in compatibility form.
-/

namespace ScratchExport.Url

/-- A URL in its parts. -/
structure Parts where
  scheme : List Char
  authority : List Char
  path : List Char
  query : List Char
  fragment : List Char
  deriving DecidableEq

/-- Characters of a scheme. -/
def isSchemeChar (c : Char) : Bool :=
  c.isAlphanum || c == '+' || c == '-' || c == '.'

/-- The scheme in front of the first colon and the rest, if the text has one. -/
def scheme? (cs : List Char) : Option (List Char × List Char) :=
  let name := cs.takeWhile (· != ':')
  match name, cs.dropWhile (· != ':') with
  | c :: _, ':' :: rest =>
    if c.isAlpha && name.all isSchemeChar then some (name.map Char.toLower, rest) else none
  | _, _ => none

/-- Characters whose compatibility form holds one of `/ ? # @ :`. -/
def hiddenSeparators : List Nat :=
  [0x2047, 0x2048, 0x2049, 0x2100, 0x2101, 0x2105, 0x2106, 0x2A74, 0xFE13, 0xFE16, 0xFE55, 0xFE56,
    0xFE5F, 0xFE6B, 0xFF03, 0xFF0F, 0xFF1A, 0xFF1F, 0xFF20]

/-- The host and port of an authority: what stands behind its last `@`. -/
def hostAndPort (cs : List Char) : List Char :=
  (cs.reverse.takeWhile (· != '@')).reverse

/-- The host of an authority that has brackets somewhere. Brackets around the host enclose all of
it, so that only a port may follow them. -/
def bracketedHost? (cs : List Char) : Option (List Char) :=
  match hostAndPort cs with
  | '[' :: inside => match inside.dropWhile (· != ']') with
    | [] | [_] | _ :: ':' :: _ => some (inside.takeWhile (· != ']'))
    | _ => none
  | location => if location.contains '[' then none else some (location.takeWhile (· != ':'))

/-- An authority without fault. -/
def isAuthority (cs : List Char) : Bool :=
  (cs.contains '[' == cs.contains ']') &&
    (!cs.contains '[' || (bracketedHost? cs).any isBracketedHost)
    && !cs.any fun c => hiddenSeparators.contains c.toNat

/-- The text before the first `c` and, when there is one, the text after it. -/
def cutAt (c : Char) (cs : List Char) : List Char × List Char :=
  (cs.takeWhile (· != c), (cs.dropWhile (· != c)).drop 1)

/-- The characters of a URL that count. -/
def clean (cs : List Char) : List Char :=
  (cs.dropWhile (·.toNat ≤ 0x20)).filter fun c => !(c == '\t' || c == '\r' || c == '\n')

/-- The authority after `//` and the rest. -/
def authority : List Char → List Char × List Char
  | '/' :: '/' :: rest =>
    let inside := fun c => !(c == '/' || c == '?' || c == '#')
    (rest.takeWhile inside, rest.dropWhile inside)
  | cs => ([], cs)

/-- Take a URL apart; without a scheme of its own it has the default one. -/
def splitWith (scheme : List Char) (cs : List Char) : Except Fault Parts :=
  let cs := clean cs
  let (scheme, cs) := (scheme? cs).getD (scheme, cs)
  let (netloc, cs) := authority cs
  let (cs, fragment) := cutAt '#' cs
  let (path, query) := cutAt '?' cs
  if isAuthority netloc then .ok ⟨scheme, netloc, path, query, fragment⟩ else .error .badUrl

/-- Take a URL apart. -/
def split (cs : List Char) : Except Fault Parts :=
  splitWith [] cs

/-- Schemes whose URLs have an authority. -/
def withAuthority : List String :=
  ["", "ftp", "http", "gopher", "nntp", "telnet", "imap", "wais", "file", "mms", "https", "shttp",
    "snews", "prospero", "rtsp", "rtspu", "rsync", "svn", "svn+ssh", "sftp", "nfs", "git",
    "git+ssh", "ws", "wss"]

/-- Schemes whose URLs can be relative. -/
def withRelative : List String :=
  ["", "ftp", "http", "gopher", "nntp", "imap", "wais", "file", "https", "shttp", "mms", "prospero",
    "rtsp", "rtspu", "sftp", "svn", "svn+ssh", "ws", "wss"]

/-- Schemes whose last path segment can have parameters after `;`. -/
def withParameters : List String :=
  ["", "ftp", "hdl", "prospero", "http", "imap", "https", "shttp", "rtsp", "rtspu", "sip", "sips",
    "mms", "sftp", "tel"]

/-- Whether a scheme is in a list of schemes. -/
def schemeIn (schemes : List String) (scheme : List Char) : Bool :=
  schemes.any fun s => s.toList == scheme

/-- The text with `mark` and `part` behind it, unless the part is empty. -/
def appendPart (cs : List Char) (mark : Char) (part : List Char) : List Char :=
  if part.isEmpty then cs else cs ++ mark :: part

/-- Put parts together. A scheme that has authorities gets an empty one, unless the path starts with
two slashes. -/
def unsplit (p : Parts) : List Char :=
  let rooted := match p.path with
    | [] => []
    | '/' :: _ => p.path
    | path => '/' :: path
  let located :=
    if !p.authority.isEmpty
        || (!p.scheme.isEmpty && schemeIn withAuthority p.scheme
          && !(['/', '/'].isPrefixOf p.path)) then
      '/' :: '/' :: p.authority ++ rooted
    else p.path
  let schemed := if p.scheme.isEmpty then located else p.scheme ++ ':' :: located
  appendPart (appendPart schemed '?' p.query) '#' p.fragment

end ScratchExport.Url
