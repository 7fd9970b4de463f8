import ScratchExport.Text.CaseTable

/-!
# Upper and lower case

Full case mapping, one character at a time, except for the capital sigma: it becomes a final sigma
when a letter with case stands before it and none after it, where ignorable characters in between do
not count.
-/

namespace ScratchExport.Text

/-- The image of a character under a table of runs and a table of longer images. -/
def mapCase (runs : List (Nat × Nat × Nat × Nat)) (long : List (Nat × List Nat)) (c : Char) :
    List Char :=
  let n := c.toNat
  match long.find? (·.1 == n) with
  | some (_, image) => image.map Char.ofNat
  | none =>
    match runs.find? fun (first, last, step, _) =>
        first ≤ n && n ≤ last && (n - first) % step == 0 with
    | some (first, _, _, image) => [Char.ofNat (image + (n - first))]
    | none => [c]

/-- The first character that decides case, if any, is a letter with case. -/
def startsCased (cs : List Char) : Bool :=
  match cs.dropWhile CaseTable.caseIgnorable.contains with
  | c :: _ => CaseTable.cased.contains c
  | [] => false

/-- Lower case of what follows the characters `before`, which are given last first. -/
def lowerAfter (before : List Char) : List Char → List Char
  | [] => []
  | 'Σ' :: rest =>
    (if startsCased before && !startsCased rest then 'ς' else 'σ') :: lowerAfter
      ('Σ' :: before) rest
  | c :: rest => mapCase CaseTable.lowerRuns CaseTable.lowerLong c ++ lowerAfter (c :: before) rest

/-- The text in lower case. -/
def lower (s : String) : String :=
  String.ofList (lowerAfter [] s.toList)

/-- The text in upper case. -/
def upper (s : String) : String :=
  String.ofList (s.toList.flatMap (mapCase CaseTable.upperRuns CaseTable.upperLong))

end ScratchExport.Text
