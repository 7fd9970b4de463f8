import ScratchExport.Zip.Checksum
import ScratchExport.Zip.Inflate

/-!
# Zip archives

An archive ends with a directory of its entries and a record that tells where the directory starts.
`read?` finds the entries through the directory; entries may be stored or deflated, and each has to
match its checksum. `write` makes an archive in which every entry is stored.
-/

namespace ScratchExport.Zip

/-- A number of `width` bytes, the lowest first, at a place. -/
def number? (bytes : ByteArray) (width start : Nat) : Option Nat :=
  match width with
  | 0 => some 0
  | width + 1 => do
    let low ← bytes[start]?
    return low.toNat + 256 * (← number? bytes width (start + 1))

/-- The marks at the front of the parts of an archive. -/
def entryMark : Nat := 0x04034B50
def directoryMark : Nat := 0x02014B50
def endMark : Nat := 0x06054B50

/-- The last place from `start` downwards with the end mark. -/
def findEnd? (bytes : ByteArray) : Nat → Option Nat
  | 0 => if number? bytes 4 0 == some endMark then some 0 else none
  | start + 1 =>
    if number? bytes 4 (start + 1) == some endMark then some (start + 1) else findEnd? bytes start

/-- The content of an entry, given how it is packed. -/
def unpack? (method : Nat) (packed : ByteArray) : Option ByteArray :=
  if method == 0 then some packed else if method == 8 then inflate? packed else none

/-- The content of the entry that a line of the directory describes. -/
def content? (bytes : ByteArray) (line : Nat) : Option ByteArray := do
  let method ← number? bytes 2 (line + 10)
  let sum ← number? bytes 4 (line + 16)
  let size ← number? bytes 4 (line + 20)
  let entry ← number? bytes 4 (line + 42)
  if (← number? bytes 4 entry) != entryMark then none
  let start := entry + 30 + (← number? bytes 2 (entry + 26)) + (← number? bytes 2 (entry + 28))
  if bytes.size < start + size then none
  let content ← unpack? method (bytes.extract start (start + size))
  if checksum content == sum then some content else none

/-- The entries in the lines of the directory. -/
def readDirectory (bytes : ByteArray) : (count line : Nat) → Option (List (String × ByteArray))
  | 0, _ => some []
  | count + 1, line => do
    if (← number? bytes 4 line) != directoryMark then none
    let nameSize ← number? bytes 2 (line + 28)
    let name ← String.fromUTF8? (bytes.extract (line + 46) (line + 46 + nameSize))
    let content ← content? bytes line
    let next := line + 46 + nameSize + (← number? bytes 2 (line + 30)) +
      (← number? bytes 2 (line + 32))
    let rest ← readDirectory bytes count next
    return (name, content) :: rest

/-- The entries of an archive, in the order of its directory. -/
def read? (bytes : ByteArray) : Option (List (String × ByteArray)) := do
  let last ← findEnd? bytes (bytes.size - 22)
  readDirectory bytes (← number? bytes 2 (last + 10)) (← number? bytes 4 (last + 16))

/-! ### Writing -/

/-- A number as `width` bytes, the lowest first. -/
def numberBytes : (width : Nat) → Nat → List UInt8
  | 0, _ => []
  | width + 1, n => (n % 256).toUInt8 :: numberBytes width (n / 256)

/-- Fields, each with its width in bytes. -/
def fields (values : List (Nat × Nat)) : ByteArray :=
  ⟨(values.flatMap fun (width, n) => numberBytes width n).toArray⟩

/-- The fields that an entry and its line in the directory share: version, names in UTF-8, stored,
the earliest date, checksum and sizes. -/
def sharedFields (name content : ByteArray) : List (Nat × Nat) :=
  [(2, 20), (2, 0x0800), (2, 0), (2, 0), (2, 0x21), (4, checksum content), (4, content.size),
    (4, content.size), (2, name.size), (2, 0)]

/-- An entry. -/
def entryBytes (name content : ByteArray) : ByteArray :=
  fields ((4, entryMark) :: sharedFields name content) ++ name ++ content

/-- The line of the directory for the entry at a place. -/
def directoryLine (name content : ByteArray) (start : Nat) : ByteArray :=
  fields ([(4, directoryMark), (2, 20)] ++ sharedFields name content ++ [(2, 0), (2, 0), (2, 0),
    (4, 0), (4, start)]) ++ name

/-- Append entries to the entries and the directory written so far. -/
def writeEntries : List (String × ByteArray) → (body directory : ByteArray) → ByteArray × ByteArray
  | [], body, directory => (body, directory)
  | (name, content) :: rest, body, directory =>
    let line := directoryLine name.toUTF8 content body.size
    writeEntries rest (body ++ entryBytes name.toUTF8 content) (directory ++ line)

/-- An archive of these entries. -/
def write (entries : List (String × ByteArray)) : ByteArray :=
  let (body, directory) := writeEntries entries .empty .empty
  let count := entries.length
  body ++ directory ++ fields [(4, endMark), (2, 0), (2, 0), (2, count), (2, count),
    (4, directory.size), (4, body.size), (2, 0)]

end ScratchExport.Zip
