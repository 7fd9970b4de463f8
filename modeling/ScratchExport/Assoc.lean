/-!
# Ordered maps

A map that remembers the order in which its keys first came, as a list of pairs. Writing to a key
that is there keeps its place and replaces its value; a new key goes to the end. Reading is
`List.lookup`.
-/

namespace ScratchExport.Assoc

variable {κ α : Type} [BEq κ]

/-- Write `a` at `k`. -/
def set (k : κ) (a : α) : List (κ × α) → List (κ × α)
  | [] => [(k, a)]
  | (k', a') :: rest => if k' == k then (k', a) :: rest else (k', a') :: set k a rest

/-- Write every pair of the second map, in order. -/
def update (m : List (κ × α)) (entries : List (κ × α)) : List (κ × α) :=
  entries.foldl (fun acc (k, a) => set k a acc) m

/-- The map that a list of pairs writes. -/
def ofList (entries : List (κ × α)) : List (κ × α) :=
  update [] entries

end ScratchExport.Assoc
