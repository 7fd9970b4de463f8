import ScratchExport.Assoc
import ScratchExport.Name.Identifier
import ScratchExport.Name.Reserved
import ScratchExport.Name.Space
import ScratchExport.Project.Calls

/-!
# The names of a project

`assign` chooses every identifier that generated code uses: one class per target, one property per
variable and list, one method per script and per second method, and one parameter per procedure
argument. Each kind has a name space of its own, seeded with the names it must not take. Lists are
named before variables.
-/

namespace ScratchExport.Name

/-- The identifiers of a target. -/
structure TargetNames where
  authorName : Value
  className : String
  /-- Property names by the id of the variable or list. -/
  data : List (String × String)
  /-- Method names of the scripts, in order. -/
  scripts : List String
  /-- Names of the methods without screen refresh, by script. -/
  warpVariants : List (Nat × String)
  /-- Parameter names by argument name, for each script. -/
  params : List (List (String × String))

namespace TargetNames

/-- The method of a script, the one without screen refresh if that is asked for and there is one. -/
def scriptName (t : TargetNames) (index : Nat) (warp : Bool) : String :=
  match (if warp then t.warpVariants.lookup index else none) with
  | some name => name
  | none => t.scripts[index]?.getD ""

end TargetNames

/-- The identifiers of all targets, the stage first. -/
structure Table where
  targets : List TargetNames

namespace Table

/-- The class of the first sprite with a given author's name. -/
def spriteClass? (t : Table) (author : Value) : Option String :=
  ((t.targets.drop 1).find? fun names => names.authorName.same author).map (·.className)

end Table

/-- The identifier candidate of an untyped name. -/
def candidate (name : Value) (upper : Bool) : Except Fault String := do
  return camelCase (← name.asName) upper

/-- Properties for ids with names, in order; a repeated id keeps its place and its last property. -/
def assignData (space : Space) (data : List (String × String)) :
    List (String × Value) → Except Fault (List (String × String))
  | [] => .ok data
  | (id, name) :: rest => do
    let (property, space) := space.allocate (← candidate name false)
    assignData space (Assoc.set id property data) rest

/-- Parameters for the arguments of a procedure; an argument that repeats a name shares its
parameter. -/
def assignParams (space : Space) (params : List (String × String)) :
    List Argument → Except Fault (List (String × String))
  | [] => .ok params
  | a :: rest => do
    if a.kind == .label then assignParams space params rest
    else
      let name ← (← a.name.asKey).asName
      if (params.lookup name).isSome then assignParams space params rest
      else
        let (param, space) := space.allocate (camelCase name false)
        assignParams space (params ++ [(name, param)]) rest

/-- The identifiers of one target, whose class name is chosen already. -/
def assignTarget (isStage : Bool) (className : String) (t : Target) : Except Fault TargetNames := do
  let data ← assignData ⟨variableSeed⟩ []
    (t.lists.map (fun l => (l.id, l.name)) ++ t.vars.map fun v => (v.id, v.name))
  let members : Space := ⟨if isStage then stageMembers else spriteMembers⟩
  let (scripts, members) := members.allocateAll (← t.scripts.mapM fun s => candidate s.name false)
  let reachable ← t.warpReachable
  let variants := reachable.map fun i => camelCase ((t.nameAt i).display ++ " warp") false
  let (warpNames, _) := members.allocateAll variants
  let params ← t.scripts.mapM fun s => do assignParams ⟨parameterSeed⟩ [] (← s.arguments)
  return ⟨t.name, className, data, scripts, reachable.zip warpNames, params⟩

/-- The identifiers of targets, in order, with class names from one space. -/
def assignTargets (classes : Space) (isStage : Bool) : List Target → Except Fault (List TargetNames)
  | [] => .ok []
  | t :: rest => do
    let (className, classes) := classes.allocate (← candidate t.name true)
    let names ← assignTarget isStage className t
    let others ← assignTargets classes false rest
    return names :: others

/-- The identifiers of a project. -/
def assign (p : Project) : Except Fault Table := do
  return ⟨← assignTargets ⟨classSeed⟩ true p.targets⟩

end ScratchExport.Name
