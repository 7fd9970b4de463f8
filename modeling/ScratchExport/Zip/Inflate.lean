import ScratchExport.Zip.Code

/-!
# Inflating

Deflated data is a sequence of blocks. A block is stored as it is, or it is coded: symbols are
bytes, or lengths with a distance, which repeat what was written that far back. The codes of a block
are fixed or described at its front. Every symbol takes at least one bit, so the number of bits
bounds the steps.
-/

namespace ScratchExport.Zip

/-- A least value and the number of bits that are added to it. -/
abbrev Range := Nat × Nat

/-- Lengths of repetitions, by symbol from 257 on. -/
def lengthRanges : List Range :=
  [(3, 0), (4, 0), (5, 0), (6, 0), (7, 0), (8, 0), (9, 0), (10, 0), (11, 1), (13, 1), (15, 1),
    (17, 1), (19, 2),
    (23, 2), (27, 2), (31, 2), (35, 3), (43, 3), (51, 3), (59, 3), (67, 4), (83, 4), (99, 4),
    (115, 4), (131, 5),
    (163, 5), (195, 5), (227, 5), (258, 0)]

/-- Distances of repetitions, by symbol. -/
def distanceRanges : List Range :=
  [(1, 0), (2, 0), (3, 0), (4, 0), (5, 1), (7, 1), (9, 2), (13, 2), (17, 3), (25, 3), (33, 4),
    (49, 4), (65, 5),
    (97, 5), (129, 6), (193, 6), (257, 7), (385, 7), (513, 8), (769, 8), (1025, 9), (1537, 9),
    (2049, 10), (3073, 10),
    (4097, 11), (6145, 11), (8193, 12), (12289, 12), (16385, 13), (24577, 13)]

/-- The value that a symbol and the bits behind it give. -/
def ranged? (ranges : List Range) (symbol : Nat) (b : Bits) : Option (Nat × Bits) := do
  let (least, width) ← ranges[symbol]?
  let (more, b) ← b.take? width
  return (least + more, b)

/-- Repeat bytes from `distance` back. -/
def repeatBack (distance : Nat) : Nat → ByteArray → Option ByteArray
  | 0, out => some out
  | n + 1, out =>
    if h : 0 < distance ∧ distance ≤ out.size then
      repeatBack distance n (out.push (out.get (out.size - distance) (by omega)))
    else none

/-- Read the symbols of a coded block up to its end mark. -/
def readSymbols (literals distances : Code) : Nat → Bits → ByteArray → Option (Bits × ByteArray)
  | 0, _, _ => none
  | fuel + 1, b, out => do
    let (symbol, b) ← literals.read? b
    if symbol < 256 then readSymbols literals distances fuel b (out.push symbol.toUInt8)
    else if symbol == 256 then return (b, out)
    else
      let (length, b) ← ranged? lengthRanges (symbol - 257) b
      let (symbol, b) ← distances.read? b
      let (distance, b) ← ranged? distanceRanges symbol b
      readSymbols literals distances fuel b (← repeatBack distance length out)

/-- The codes of a block without description. -/
def fixedCodes : Code × Code :=
  (.ofLengths (List.replicate 144 8 ++ List.replicate 112 9 ++ List.replicate 24 7 ++
    List.replicate 8 8), .ofLengths (List.replicate 30 5))

/-- The order in which the lengths of the code for lengths are given. -/
def lengthOrder : List Nat :=
  [16, 17, 18, 0, 8, 7, 9, 6, 10, 5, 11, 4, 12, 3, 13, 2, 14, 1, 15]

/-- Numbers of three bits. -/
def readTriples : Nat → Bits → Option (List Nat × Bits)
  | 0, b => some ([], b)
  | n + 1, b => do
    let (first, b) ← b.take? 3
    let (rest, b) ← readTriples n b
    return (first :: rest, b)

/-- Read code lengths until there are `wanted`, the last one first; runs are written
as repetitions. -/
def readLengths (code : Code) (wanted : Nat) : Nat → Bits → List Nat → Option (List Nat × Bits)
  | 0, _, _ => none
  | fuel + 1, b, done => do
    if wanted ≤ done.length then return (done, b)
    let (symbol, b) ← code.read? b
    if symbol < 16 then readLengths code wanted fuel b (symbol :: done)
    else
      let (least, width, value) ←
        if symbol == 16 then done.head?.map fun last => (3, 2, last)
        else if symbol == 17 then some (3, 3, 0)
        else some (11, 7, 0)
      let (more, b) ← b.take? width
      readLengths code wanted fuel b (List.replicate (least + more) value ++ done)

/-- The codes that a block describes at its front. -/
def describedCodes (b : Bits) : Option ((Code × Code) × Bits) := do
  let (literals, b) ← b.take? 5
  let (distances, b) ← b.take? 5
  let (lengths, b) ← b.take? 4
  let (triples, b) ← readTriples (lengths + 4) b
  let given := lengthOrder.zip triples
  let code := Code.ofLengths ((List.range 19).map fun symbol => (given.lookup symbol).getD 0)
  let wanted := literals + 257 + (distances + 1)
  let (reversed, b) ← readLengths code wanted (wanted + 1) b []
  let all := reversed.reverse
  if all.length == wanted then
    return ((.ofLengths (all.take (literals + 257)), .ofLengths (all.drop (literals + 257))), b)
  else none

/-- A stored block: its length, the length's complement, and the bytes. -/
def readStored (b : Bits) (out : ByteArray) : Option (Bits × ByteArray) := do
  let b := b.align
  let (length, b) ← b.take? 16
  let (complement, b) ← b.take? 16
  let start := b.position / 8
  if length + complement == 65535 && start + length ≤ b.bytes.size then
    return ({ b with position := b.position + 8 * length },
      out ++ b.bytes.extract start (start + length))
  else none

/-- Read blocks up to the last one. -/
def readBlocks : Nat → Bits → ByteArray → Option ByteArray
  | 0, _, _ => none
  | fuel + 1, b, out => do
    let (last, b) ← b.take? 1
    let (kind, b) ← b.take? 2
    let steps := 8 * b.bytes.size + 1
    let (b, out) ←
      if kind == 0 then readStored b out
      else if kind == 1 then readSymbols fixedCodes.1 fixedCodes.2 steps b out
      else if kind == 2 then do
        let ((literals, distances), b) ← describedCodes b
        readSymbols literals distances steps b out
      else none
    if last == 1 then return out else readBlocks fuel b out

/-- The bytes that deflated data stands for. -/
def inflate? (bytes : ByteArray) : Option ByteArray :=
  readBlocks (8 * bytes.size + 1) ⟨bytes, 0⟩ .empty

end ScratchExport.Zip
