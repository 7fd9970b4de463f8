import ScratchExport.Project.Basic

/-!
# Calls between procedures

A script calls a procedure of its own target by the procedure's code. A procedure that runs without
screen refresh passes that on to what it calls, directly or through other procedures:
`warpReachable` lists the procedures that need a second method for this.
-/

namespace ScratchExport.Target

/-- The procedures that blocks call, each once, in the order of the first call. -/
def calleesOf (t : Target) (blocks : List Block) : List Nat :=
  (blocks.filterMap fun b =>
    if b.kind.is (.procedure .call) then t.findProcedure (b.literal "PROCCODE" .null) else
      none).eraseDups

/-- The procedures that a script calls directly. -/
def procedureCalls (t : Target) (s : Script) : Except Fault (List Nat) := do
  return t.calleesOf (← s.walk)

/-- The procedures that the script at an index calls directly. -/
def callsAt (t : Target) (i : Nat) : Except Fault (List Nat) :=
  match t.scripts[i]? with
  | some s => t.procedureCalls s
  | none => .ok []

/-- Follow calls from the pending scripts; every script is followed once, so `fuel` steps are enough
when there are as many scripts. -/
def explore (t : Target) : Nat → List Nat → List Nat → Except Fault (List Nat)
  | 0, _, seen => .ok seen
  | _ + 1, [], seen => .ok seen
  | fuel + 1, i :: pending, seen => do
    let found := (← t.callsAt i).filter fun j => !seen.contains j
    explore t fuel (found.reverse ++ pending) (seen ++ found)

/-- Procedures with screen refresh that some procedure without it reaches through calls,
in order. -/
def warpReachable (t : Target) : Except Fault (List Nat) := do
  let indices := List.range t.scripts.length
  let starts := indices.filter t.isWarpAt
  let seen ← t.explore (t.scripts.length + 1) starts.reverse starts
  return indices.filter fun i => seen.contains i && !t.isWarpAt i

end ScratchExport.Target
