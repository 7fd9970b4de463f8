import ScratchExport.Compile.Motion

/-!
# Event and control blocks

A loop with a counter takes a local name for it that no enclosing loop and no parameter has; its
body is compiled with that name taken.
-/

namespace ScratchExport.Compile

/-- What becomes of an event block inside a script; a hat there has no meaning. -/
def event (ctx : Context) (slots : Slots) : Event → Except Fault Plan
  | .broadcast => .ok (.statement ("this.broadcast(" ++ str "BROADCAST_INPUT" ++ ")"))
  | .broadcastAndWait => .ok (.statement (suspend ctx "broadcastAndWait" (str "BROADCAST_INPUT")))
  | .broadcastMenu | .touchingObjectMenu => .ok (.literal slots.menuValue)
  | op => .ok (.placeholder op.label)

/-- A whole number of rounds: a half is rounded up. -/
def roundHalfUp (x : Binary64) : Binary64 :=
  match (x + .finite false (Binary64.one / 2)).floor? with
  | some n => (Binary64.ofInt? n).getD x
  | none => x

/-- The heading of a counting loop. -/
def countingHead (counter : String) (start relation limit : Phrase) : Phrase :=
  "for (let " ++ .name counter ++ " = " ++ start ++ "; " ++ .name counter ++ relation ++ limit ++
    "; " ++ .name counter ++ "++)"

/-- A loop with a fixed number of rounds. A count from a block is read once, rounded. -/
def repeatPlan (ctx : Context) (slots : Slots) (locals : Name.Space) : Except Fault Plan := do
  let count ← slots.literalNumber "TIMES"
  let times : Phrase := match count.filter (·.isFinite) with
    | some n => .number (roundHalfUp n)
    | none => .input "TIMES" .number
  let (counter, inner) := locals.allocate "i"
  if slots.hasBlock "TIMES" then
    let (limit, inner) := inner.allocate "times"
    let start := "0, " ++ .name limit ++ " = Math.round(" ++ times ++ ")"
    return .statement (loop ctx (countingHead counter start " < " (.name limit))
      (.body "SUBSTACK" inner))
  else return .statement (loop ctx (countingHead counter "0" " < " times) (.body "SUBSTACK" inner))

/-- A loop that sets a variable to 1, 2, … up to a limit. -/
def forEachPlan (ctx : Context) (locals : Name.Space) (place : Phrase) : Plan :=
  let (counter, inner) := locals.allocate "i"
  let body := place ++ " = " ++ .name counter ++ ";\n" ++ Phrase.body "SUBSTACK" inner
  .statement (loop ctx (countingHead counter "1" " <= " (num "VALUE")) body)

/-- What becomes of a control block. -/
def control (ctx : Context) (slots : Slots) (locals : Name.Space) : Control → Except Fault Plan
  | .wait => .ok (.statement (suspend ctx "wait" (.input "DURATION" .number)))
  | .loop => repeatPlan ctx slots locals
  | .forever => .ok (.statement (loop ctx "while (true)" (.body "SUBSTACK" locals)))
  | .branch =>
    .ok (.statement ("if (" ++ bool "CONDITION" ++ ") \x7b\n" ++ .body "SUBSTACK" locals ++ "\x7d"))
  | .branchElse =>
    .ok (.statement ("if (" ++ bool "CONDITION" ++ ") \x7b\n" ++ .body "SUBSTACK" locals
      ++ "\x7d else \x7b\n" ++ .body "SUBSTACK2" locals ++ "\x7d"))
  | .waitUntil =>
    .ok (.statement (loop ctx ("while (!" ++ .operand "CONDITION" .boolean ++ ")") ""))
  | .repeatUntil =>
    .ok (.statement (loop ctx ("while (!" ++ .operand "CONDITION" .boolean ++ ")")
      (.body "SUBSTACK" locals)))
  | .repeatWhile =>
    .ok (.statement (loop ctx ("while (" ++ bool "CONDITION" ++ ")") (.body "SUBSTACK" locals)))
  | .forEach =>
    withData ctx slots "VARIABLE" .variable fun place => .ok (forEachPlan ctx locals place)
  | .stop => do
    let option ← slots.choice "STOP_OPTION"
    if option.isText "this script" then return .statement "return;"
    else return .placeholder ("stop " ++ option.display)
  | .createCloneOf => withChoice slots "CLONE_OPTION" "control_create_clone_of" fun choice =>
    if choice.isText "_myself_" then .ok (.statement "this.createClone()")
    else match sprite? ctx choice with
      | some sprite => .ok (.statement (sprite ++ ".createClone()"))
      | none => .ok (.missing "sprite" choice)
  | .deleteThisClone => .ok (.statement "this.deleteThisClone()")
  | .allAtOnce => .ok (.statement (.input "SUBSTACK" .stack))
  | .getCounter => .ok (.phrase "this.stage.__counter" .numberNotNaN)
  | .incrCounter => .ok (.statement "this.stage.__counter++")
  | .clearCounter => .ok (.statement "this.stage.__counter = 0")
  | .createCloneOfMenu => .ok (.literal slots.menuValue)
  | .startAsClone => .ok (.placeholder Control.startAsClone.label)

end ScratchExport.Compile
