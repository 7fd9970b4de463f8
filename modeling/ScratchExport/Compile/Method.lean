import ScratchExport.Compile.Block

/-!
# Methods and triggers

Each script of a target becomes a method: a generator, or a plain method when the script runs
without screen refresh. A script with screen refresh that is reached from one without gets a second,
plain method. The hat of a script becomes a trigger that starts its method.
-/

namespace ScratchExport.Compile

/-- A method of a generated class. -/
structure Method where
  name : String
  params : List String
  body : String
  generator : Bool

namespace Method

/-- The source of a method. -/
def render (m : Method) : String :=
  (if m.generator then "*" else "") ++ m.name ++ "(" ++ ", ".intercalate m.params ++ ") \x7b\n" ++
    m.body ++ "\n\x7d"

/-- The method of a context's script. -/
def compile (ctx : Context) : Noted Method := do
  let body ← stackSource ctx ctx.script.body
  return ⟨ctx.methodName, ctx.params.map (·.2), body, !ctx.warp⟩

end Method

/-- A trigger with the parts between its event and its method. -/
def triggerSource (ctx : Context) (parts : String) : String :=
  "new Trigger(Trigger." ++ parts ++ ", this." ++ ctx.methodName ++ ")"

/-- The trigger for a value that grows past a limit; a limit from a block is asked for anew each
time. -/
def greaterThanTrigger (ctx : Context) (hat : Block) : Noted String := do
  let menu := Text.upper (← (← Slots.choice hat.inputs "WHENGREATERTHANMENU").asName)
  let value ← slotSource ctx hat "VALUE" .number
  let value := if ((hat.input? "VALUE").map (·.isBlock)).getD false then "() => " ++
    value else value
  return triggerSource ctx ((if menu.isEmpty then "TIMER" else menu) ++
    "_GREATER_THAN, \x7b VALUE: " ++ value ++ " \x7d")

/-- The trigger of a hat; procedures and hats without counterpart have none. -/
def hatTrigger (ctx : Context) (hat : Block) : Noted (Option String) :=
  match hat.kind with
  | .known (.procedure .definition) => pure none
  | .known (.event .whenFlagClicked) => pure (some (triggerSource ctx "GREEN_FLAG"))
  | .known (.event .whenKeyPressed) => do
    let key ← slotSource ctx hat "KEY_OPTION" .string
    return some (triggerSource ctx ("KEY_PRESSED, \x7b key: " ++ key ++ " \x7d"))
  | .known (.event .whenThisSpriteClicked) | .known (.event .whenStageClicked) =>
    pure (some (triggerSource ctx "CLICKED"))
  | .known (.event .whenBroadcastReceived) => do
    let message := (← Slots.choice hat.inputs "BROADCAST_OPTION").json
    return some (triggerSource ctx ("BROADCAST, \x7b name: " ++ message ++ " \x7d"))
  | .known (.event .whenBackdropSwitchesTo) => do
    let backdrop := (← Slots.choice hat.inputs "BACKDROP").json
    return some (triggerSource ctx ("BACKDROP_CHANGED, \x7b backdrop: " ++ backdrop ++ " \x7d"))
  | .known (.event .whenGreaterThan) => do return some (← greaterThanTrigger ctx hat)
  | .known (.control .startAsClone) => pure (some (triggerSource ctx "CLONE_START"))
  | kind => do
    ctx.warn ("hat block '" ++ kind.label.display ++ "' has no trigger")
    return none

/-- The trigger of a script. -/
def trigger (ctx : Context) : Noted (Option String) :=
  match ctx.script.hat? with
  | some hat => hatTrigger ctx hat
  | none => pure none

/-- What the scripts of a target compile to. -/
structure TargetCode where
  methods : List Method
  triggers : List String

/-- The methods and the trigger of one script. -/
def scriptCode (project : Project) (names : Name.Table) (targetIndex scriptIndex : Nat) :
    Noted TargetCode := do
  let ctx ← Context.make project names targetIndex scriptIndex false
  let ctx := { ctx with warp := ctx.script.isWarp }
  let method ← Method.compile ctx
  let triggers := (← trigger ctx).toList
  if (ctx.targetNames.warpVariants.lookup scriptIndex).isSome then
    let variant ← Method.compile { ctx with warp := true }
    return ⟨[method, variant], triggers⟩
  else return ⟨[method], triggers⟩

/-- The code of several scripts, in order. -/
def scriptsCode (project : Project) (names : Name.Table) (targetIndex : Nat) :
    List Nat → Noted TargetCode
  | [] => pure ⟨[], []⟩
  | i :: rest => do
    let code ← scriptCode project names targetIndex i
    let others ← scriptsCode project names targetIndex rest
    return ⟨code.methods ++ others.methods, code.triggers ++ others.triggers⟩

/-- The code of a target. -/
def targetCode (project : Project) (names : Name.Table) (targetIndex : Nat) : Noted TargetCode :=
  match project.targets[targetIndex]? with
  | none => .fail .noSuchMember
  | some target => do
    let code ← scriptsCode project names targetIndex (List.range target.scripts.length)
    Noted.note .generator .trace
      ("compiled " ++ toString code.methods.length ++ " methods for target " ++ target.name.display)
    return code

end ScratchExport.Compile
