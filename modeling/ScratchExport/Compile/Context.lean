import ScratchExport.Name.Table
import ScratchExport.Noted
import ScratchExport.Shape

/-!
# Where a block is compiled

A block is compiled for a script of a target, either for a generator method or, with `warp`, for a
method that runs without screen refresh. The context answers what a name refers to there: a sprite
of the project, or a variable or list of the target or the stage.
-/

namespace ScratchExport.Compile

/-- Source and its shape. -/
structure Fragment where
  source : String
  shape : Shape

/-- The script that a block is compiled for. -/
structure Context where
  project : Project
  names : Name.Table
  targetIndex : Nat
  target : Target
  targetNames : Name.TargetNames
  scriptIndex : Nat
  script : Script
  params : List (String × String)
  warp : Bool

namespace Context

/-- The context of a script. -/
def make (project : Project) (names : Name.Table) (targetIndex scriptIndex : Nat) (warp : Bool) :
    Except Fault Context :=
  match project.targets[targetIndex]?, names.targets[targetIndex]? with
  | some target, some targetNames =>
    match target.scripts[scriptIndex]?, targetNames.params[scriptIndex]? with
    | some script, some params =>
      .ok ⟨project, names, targetIndex, target, targetNames, scriptIndex, script, params, warp⟩
    | _, _ => .error .noSuchMember
  | _, _ => .error .noSuchMember

/-- The names that local variables must not take: the parameters and what is reserved. -/
def locals (ctx : Context) : Name.Space :=
  ⟨Name.parameterSeed ++ ctx.params.map (·.2)⟩

/-- The method that the script is compiled to. -/
def methodName (ctx : Context) : String :=
  ctx.targetNames.scriptName ctx.scriptIndex ctx.warp

/-- Report that the output is degraded. -/
def warn (ctx : Context) (message : String) : Noted Unit :=
  .note .generator .degraded (ctx.target.name.display ++ ": " ++ message)

/-- The index of the first sprite with an author's name. -/
def spriteIndex? (ctx : Context) (author : Value) : Option Nat :=
  (ctx.project.sprites.findIdx? fun s => s.name.same author).map (· + 1)

/-- The ids and names of a target's variables or lists, in order. -/
def dataOf (t : Target) : DataKind → List (String × Value)
  | .variable => t.vars.map fun v => (v.id, v.name)
  | .list => t.lists.map fun l => (l.id, l.name)

/-- The property of the first data item of a target that satisfies `p`. -/
def property? (ctx : Context) (kind : DataKind) (p : String → Value → Bool) (index : Nat) :
    Option (Nat × String) :=
  match ctx.project.targets[index]?, ctx.names.targets[index]? with
  | some t, some names =>
    (dataOf t kind).findSome? fun (id, name) =>
      if p id name then (names.data.lookup id).map (index, ·) else none
  | _, _ => none

/-- The targets whose data a script can use: its own, then the stage. -/
def scopes (ctx : Context) : List Nat :=
  if ctx.targetIndex == 0 then [0] else [ctx.targetIndex, 0]

/-- The owner and property of referenced data: by id in any scope, else by name. -/
def resolve (ctx : Context) (kind : DataKind) (ref : DataRef) : Option (Nat × String) :=
  match ctx.scopes.findSome? (ctx.property? kind fun id _ => (Value.text id).same ref.id) with
  | some found => some found
  | none => ctx.scopes.findSome? (ctx.property? kind fun _ name => name.same ref.name)

end Context

end ScratchExport.Compile
