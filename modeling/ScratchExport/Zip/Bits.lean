/-!
# Bits of bytes

Compressed data is read bit by bit, the lowest bit of each byte first. Numbers of several bits have
their lowest bit first, too.
-/

namespace ScratchExport.Zip

/-- A place in the bits of some bytes. -/
structure Bits where
  bytes : ByteArray
  /-- How many bits were read. -/
  position : Nat

namespace Bits

/-- The next bit. -/
def next? (b : Bits) : Option (Nat × Bits) :=
  if h : b.position / 8 < b.bytes.size then
    let byte := (b.bytes.get (b.position / 8) h).toNat
    some (byte / Nat.pow 2 (b.position % 8) % 2, { b with position := b.position + 1 })
  else none

/-- The number in the next bits. -/
def take? : Nat → Bits → Option (Nat × Bits)
  | 0, b => some (0, b)
  | n + 1, b => do
    let (low, b) ← b.next?
    let (high, b) ← take? n b
    return (low + 2 * high, b)

/-- Go on at the start of a byte. -/
def align (b : Bits) : Bits :=
  { b with position := (b.position + 7) / 8 * 8 }

end Bits

end ScratchExport.Zip
