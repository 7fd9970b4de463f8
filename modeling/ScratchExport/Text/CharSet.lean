/-!
# Sets of characters

A set of characters is given by the code points at which membership switches, in increasing order: a
character is in the set when an odd number of switches lie at or below it. Tables of a character
property are written this way, so that one membership test serves them all.
-/

namespace ScratchExport.Text

/-- A set of characters by its switches, in increasing order. -/
structure CharSet where
  switches : List Nat

namespace CharSet

/-- An odd number of switches at or below `c` means that `c` is inside. -/
def contains (s : CharSet) (c : Char) : Bool :=
  (s.switches.takeWhile (· ≤ c.toNat)).length % 2 == 1

end CharSet

end ScratchExport.Text
