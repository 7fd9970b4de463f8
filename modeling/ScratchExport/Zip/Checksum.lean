/-!
# Checksums

The cyclic checksum of an archive's entries: the remainder of the bytes, as a polynomial with its
lowest power first, with all bits inverted before and after.
-/

namespace ScratchExport.Zip

/-- Divide by one power. -/
def checksumStep (c : UInt32) : UInt32 :=
  if c &&& 1 == 1 then (c >>> 1) ^^^ 0xEDB88320 else c >>> 1

/-- Divide by several powers. -/
def checksumSteps : Nat → UInt32 → UInt32
  | 0, c => c
  | n + 1, c => checksumSteps n (checksumStep c)

/-- Take one byte into the remainder. -/
def checksumByte (c : UInt32) (byte : UInt8) : UInt32 :=
  checksumSteps 8 (c ^^^ byte.toUInt32)

/-- The checksum of bytes. -/
def checksum (bytes : ByteArray) : Nat :=
  (bytes.foldl checksumByte 0xFFFFFFFF ^^^ 0xFFFFFFFF).toNat

end ScratchExport.Zip
