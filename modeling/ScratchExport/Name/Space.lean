import ScratchExport.Text.Digit

/-!
# Name spaces

A name space holds the names that are taken. Allocating a candidate takes the first free name in the
chain of its variants: a variant raises the number at the end of the name, or puts a 2 there when
the name ends in no number. Variants never repeat, so with `n` names taken one of the first `n + 1`
is free, and the search is bounded by that.
-/

namespace ScratchExport.Name

/-- The next variant of a name. A single line feed at the end goes when the number before it is
raised; a name with any other line feed has no number. -/
def nextVariantChars (cs : List Char) : List Char :=
  let body := if cs.getLast? == some '\n' then cs.dropLast else cs
  let digits := (body.reverse.takeWhile Text.isDigit).reverse
  if digits.isEmpty || body.contains '\n' then cs ++ ['2']
  else (body.reverse.dropWhile Text.isDigit).reverse ++ Text.decimal (Text.digitsValue digits + 1)

/-- The next variant of a name. -/
def nextVariant (name : String) : String :=
  String.ofList (nextVariantChars name.toList)

/-- The first name in the chain of variants that is not taken; after `fuel` steps whatever comes
next. -/
def firstFree (taken : List String) : Nat → String → String
  | 0, name => name
  | fuel + 1, name => if taken.contains name then firstFree taken fuel (nextVariant name) else name

/-- A set of taken names. -/
structure Space where
  taken : List String

namespace Space

/-- Whether a name is taken. -/
def contains (s : Space) (name : String) : Bool :=
  s.taken.contains name

/-- The first free variant of a candidate, and the space in which it is taken. -/
def allocate (s : Space) (candidate : String) : String × Space :=
  let name := firstFree s.taken s.taken.length candidate
  (name, ⟨name :: s.taken⟩)

/-- The first free variant of each candidate, in turn. -/
def allocateAll (s : Space) : List String → List String × Space
  | [] => ([], s)
  | candidate :: rest =>
    let (name, s) := s.allocate candidate
    let (names, s) := s.allocateAll rest
    (name :: names, s)

/-- The taken names in the order of their code points, each once. -/
def sorted (s : Space) : List String :=
  s.taken.eraseDups.mergeSort fun a b => decide (a ≤ b)

end Space

end ScratchExport.Name
