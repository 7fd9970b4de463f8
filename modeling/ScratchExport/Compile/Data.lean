import ScratchExport.Compile.Plan

/-!
# Variable and list blocks

A position in a list is a number, or one of the words for the last, a random or every position.
-/

namespace ScratchExport.Compile

/-- A position in a list as its slot gives it. -/
inductive Position where
  | all
  | last
  | random
  /-- A number, to be read from the slot. -/
  | numbered

/-- The position that a slot gives. -/
def position (slots : Slots) : Except Fault Position := do
  if slots.hasBlock "INDEX" then return .numbered
  let choice ← slots.choice "INDEX"
  if choice.isText "all" then return .all
  else if choice.isText "last" then return .last
  else if choice.isText "random" || choice.isText "any" then return .random
  else return .numbered

/-- A random position of a list. -/
def randomIndex (items : Phrase) : Phrase :=
  "this.random(0, " ++ items ++ ".length - 1)"

/-- The number in the position slot, as an index. -/
def index : Phrase := .input "INDEX" .index

/-- Show or hide the watcher of data. -/
def watcherPlan (ctx : Context) (slots : Slots) (slot : String) (kind : DataKind) (visible : Bool) :
    Except Fault Plan := do
  match ← dataPhrase? ctx slots slot kind "watchers" with
  | some watcher => return .statement (watcher ++ ".visible = " ++ .text (boolSource visible))
  | none => missingData slots slot kind

/-- Delete at a position. -/
def deletePlan (slots : Slots) (items : Phrase) : Except Fault Plan := do
  match ← position slots with
  | .all => return .statement (items ++ " = []")
  | .last => return .statement (items ++ ".splice(" ++ items ++ ".length - 1, 1)")
  | .random => return .statement (items ++ ".splice(" ++ randomIndex items ++ ", 1)")
  | .numbered => return .statement (items ++ ".splice(" ++ index ++ ", 1)")

/-- A statement that takes the item before it looks at the position. -/
def itemFirst (slots : Slots) (phrase : Position → Phrase) : Plan :=
  match position slots with
  | .ok p => .statement (phrase p)
  | .error fault => .statement (any "ITEM" ++ .stop fault)

/-- Insert the item at a position. -/
def insertPhrase (items : Phrase) : Position → Phrase
  | .last => items ++ ".push(" ++ any "ITEM" ++ ")"
  | .random => items ++ ".splice(this.random(0, " ++ items ++ ".length), 0, " ++ any "ITEM" ++ ")"
  | .all | .numbered => items ++ ".splice(" ++ .after index (", 0, " ++ any "ITEM") ++ ")"

/-- Put the item in place of the one at a position. -/
def replacePhrase (items : Phrase) : Position → Phrase
  | .last => items ++ ".splice(" ++ items ++ ".length - 1, 1, " ++ any "ITEM" ++ ")"
  | .random => items ++ ".splice(" ++ randomIndex items ++ ", 1, " ++ any "ITEM" ++ ")"
  | .all | .numbered => items ++ ".splice(" ++ .after index (", 1, " ++ any "ITEM") ++ ")"

/-- The item at a position. -/
def itemPlan (slots : Slots) (items : Phrase) : Except Fault Plan := do
  match ← position slots with
  | .last => return .phrase ("this.itemOf(" ++ items ++ ", " ++ items ++ ".length - 1)") .any
  | .random => return .phrase ("this.itemOf(" ++ items ++ ", " ++ randomIndex items ++ ")") .any
  | .all | .numbered => return .phrase ("this.itemOf(" ++ items ++ ", " ++ index ++ ")") .any

/-- The position of an item; as an index it counts from zero already. -/
def itemNumberPlan (desired : Shape) (items : Phrase) : Plan :=
  let lookup := "this.indexInArray(" ++ items ++ ", " ++ any "ITEM" ++ ")"
  if desired == .index then .phrase lookup .index else .phrase (lookup ++ " + 1") .numberNotNaN

/-- What becomes of a variable or list block. -/
def data (ctx : Context) (slots : Slots) (desired : Shape) : Data → Except Fault Plan
  | .variable => withVariable fun place => .ok (.phrase place .any)
  | .setVariableTo => withVariable fun place => .ok (.statement (place ++ " = " ++ any "VALUE"))
  | .changeVariableBy => withVariable fun place => do
    return .statement (← changeBy slots place "VALUE" true)
  | .showVariable => watcherPlan ctx slots "VARIABLE" .variable true
  | .hideVariable => watcherPlan ctx slots "VARIABLE" .variable false
  | .listContents => withList fun items => .ok (.phrase (items ++ ".join(\" \")") .string)
  | .addToList => withList fun items => .ok (.statement (items ++ ".push(" ++ any "ITEM" ++ ")"))
  | .deleteOfList => withList (deletePlan slots)
  | .deleteAllOfList => withList fun items => .ok (.statement (items ++ " = []"))
  | .insertAtList => withList fun items => .ok (itemFirst slots (insertPhrase items))
  | .replaceItemOfList => withList fun items => .ok (itemFirst slots (replacePhrase items))
  | .itemOfList => withList (itemPlan slots)
  | .itemNumOfList => withList fun items => .ok (itemNumberPlan desired items)
  | .lengthOfList => withList fun items => .ok (.phrase (items ++ ".length") .numberNotNaN)
  | .listContainsItem => withList fun items =>
    .ok (.phrase ("this.arrayIncludes(" ++ items ++ ", " ++ any "ITEM" ++ ")") .boolean)
  | .showList => watcherPlan ctx slots "LIST" .list true
  | .hideList => watcherPlan ctx slots "LIST" .list false
where
  withVariable : (Phrase → Except Fault Plan) → Except Fault Plan :=
    withData ctx slots "VARIABLE" .variable
  withList : (Phrase → Except Fault Plan) → Except Fault Plan := withData ctx slots "LIST" .list

end ScratchExport.Compile
