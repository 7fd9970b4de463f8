import ScratchExport.Zip.Bits

/-!
# Prefix codes

A prefix code is given by the lengths of its code words: shorter words come before longer ones, and
words of one length follow each other in the order of their symbols. A word is read bit by bit, its
highest bit first, until it falls below the first unused word of its length.
-/

namespace ScratchExport.Zip

/-- The longest code word. -/
def longestWord : Nat := 15

/-- A prefix code. -/
structure Code where
  /-- How many words there are of each length from one on. -/
  counts : List Nat
  /-- The symbols in the order of their words. -/
  symbols : Array Nat

namespace Code

/-- The symbols whose words have a length. -/
def symbolsOf (lengths : List Nat) (length : Nat) : List Nat :=
  (lengths.zipIdx.filter (·.1 == length)).map (·.2)

/-- The code with these lengths of words, by symbol; a symbol of length zero has no word. -/
def ofLengths (lengths : List Nat) : Code :=
  let groups := (List.range longestWord).map fun i => symbolsOf lengths (i + 1)
  ⟨groups.map List.length, groups.flatten.toArray⟩

/-- Read a word of the remaining lengths, where `word` was read so far, `first` is the first word of
the last length that has no symbol yet, and `index` counts the symbols of shorter words. -/
def readFrom (symbols : Array Nat) :
    List Nat → (word first index : Nat) → Bits → Option (Nat × Bits)
  | [], _, _, _, _ => none
  | count :: counts, word, first, index, b => do
    let (bit, b) ← b.next?
    let word := 2 * word + bit
    let first := 2 * first
    if word < first + count then return (← symbols[index + (word - first)]?, b)
    else readFrom symbols counts word (first + count) (index + count) b

/-- Read a symbol. -/
def read? (c : Code) (b : Bits) : Option (Nat × Bits) :=
  readFrom c.symbols c.counts 0 0 0 b

end Code

end ScratchExport.Zip
