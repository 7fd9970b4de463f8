import ScratchExport.Proofs.Calls

/-!
# The closure of calls

`warpReachable` is the transitive closure of `Target.Calls` from the procedures without screen
refresh, less these procedures themselves (`warpReachable_closure`). A finished worklist has seen
exactly what the starting scripts reach (`Worklist.mem_seen_iff`), and it is finished whatever the
call graph looks like, since fuel for one step more than there are scripts is never used up
(`Worklist.explore_extra`). The loop can stop early only at a script it has reached whose calls
cannot be told, and then with the fault of that script (`Worklist.explore_error`).
-/

namespace ScratchExport.Target
open Relation (ReflTransGen TransGen)
variable {t : Target} {i j : Nat}

/-- The scripts from which calls are followed: the procedures without screen refresh. -/
def warpStarts (t : Target) : List Nat :=
  (List.range t.scripts.length).filter t.isWarpAt

/-- A procedure with screen refresh. -/
def IsPlainProcedure (t : Target) (j : Nat) : Prop :=
  ∃ s, t.scripts[j]? = some s ∧ s.isProcedure = true ∧ s.isWarp = false

/-- A procedure without screen refresh reaches the script at `j` through one call or more. -/
def WarpReaches (t : Target) (j : Nat) : Prop :=
  ∃ i, t.isWarpAt i = true ∧ TransGen t.Calls i j

theorem mem_warpStarts : i ∈ t.warpStarts ↔ t.isWarpAt i = true := by
  rw [warpStarts, List.mem_filter, List.mem_range]
  exact and_iff_right_of_imp lt_of_isWarpAt

/-- A call may stand anywhere inside the script, and of several procedures with its code the first
one is meant. -/
theorem calls_iff : t.Calls i j ↔ ∃ s, t.scripts[i]? = some s ∧ stackWalkFault? s.blocks = none ∧
    ∃ b ∈ s.nested, b.kind.is (.procedure .call) = true ∧
    t.findProcedure (b.literal "PROCCODE" .null) = some j := by
  constructor
  · rintro ⟨callees, hok, hj⟩
    cases hs : t.scripts[i]? with
    | none =>
      simp only [callsAt, hs] at hok
      cases hok
      cases hj
    | some s =>
      simp only [callsAt, hs, procedureCalls, Script.walk] at hok
      cases hfault : stackWalkFault? s.blocks with
      | some fault =>
        rw [hfault] at hok
        cases hok
      | none =>
        rw [hfault] at hok
        cases hok
        exact ⟨s, rfl, hfault, mem_calleesOf.1 hj⟩
  · rintro ⟨s, hs, hfault, hcall⟩
    refine ⟨t.calleesOf s.nested, ?_, mem_calleesOf.2 hcall⟩
    simp only [callsAt, hs, procedureCalls, Script.walk, hfault]
    rfl

theorem Calls.isProcedure (h : t.Calls i j) :
    ∃ s, t.scripts[j]? = some s ∧ s.isProcedure = true := by
  obtain ⟨-, -, -, b, -, -, hfind⟩ := calls_iff.1 h
  obtain ⟨hlt, hcode, -⟩ := List.findIdx?_eq_some_iff_getElem.1 hfind
  exact ⟨_, List.getElem?_eq_getElem hlt, (Bool.and_eq_true_iff.1 hcode).1⟩

namespace Worklist
variable {starts done pending seen : List Nat}

theorem mem_seen_iff (h : t.Worklist starts done [] seen) :
    j ∈ seen ↔ ∃ start ∈ starts, ReflTransGen t.Calls start j := by
  refine ⟨h.reached j, ?_⟩
  rintro ⟨start, hstart, hpath⟩
  induction hpath with
  | refl => exact h.starts_seen start hstart
  | @tail i j _ hcall ih =>
    obtain ⟨callees, hcallees, hj⟩ := hcall
    have hdone : i ∈ done := by simpa using h.parts.mem_iff.1 ih
    obtain ⟨followed, hfollowed, hseen⟩ := h.closed i hdone
    rw [hcallees] at hfollowed
    cases hfollowed
    exact hseen j hj

theorem explore_extra {fuel : Nat} (h : t.Worklist starts done pending seen)
    (hfuel : t.scripts.length < fuel + done.length) (extra : Nat) :
    t.explore (fuel + extra) pending seen = t.explore fuel pending seen := by
  induction fuel generalizing done pending seen with
  | zero => have := h.length_done_le; omega
  | succ fuel ih =>
    rw [Nat.succ_add]
    cases pending with
    | nil => rfl
    | cons i pending =>
      rw [Target.explore, Target.explore]
      cases hcalls : t.callsAt i with
      | error fault => rfl
      | ok callees => exact ih (h.step hcalls) (by simp only [List.length_cons]; omega)

theorem explore_error {fuel : Nat} {fault : Fault} (h : t.Worklist starts done pending seen)
    (herror : t.explore fuel pending seen = .error fault) :
    ∃ i, (∃ start ∈ starts, ReflTransGen t.Calls start i) ∧ t.callsAt i = .error fault := by
  induction fuel generalizing done pending seen with
  | zero => cases herror
  | succ fuel ih =>
    cases pending with
    | nil => cases herror
    | cons i pending =>
      rw [Target.explore] at herror
      cases hcalls : t.callsAt i with
      | error stop =>
        rw [hcalls] at herror
        cases herror
        have hseen : i ∈ seen := h.parts.mem_iff.2 (by simp)
        exact ⟨i, h.reached i hseen, hcalls⟩
      | ok callees =>
        rw [hcalls] at herror
        exact ih (h.step hcalls) herror

end Worklist

theorem worklist_warpStarts (t : Target) :
    t.Worklist t.warpStarts [] t.warpStarts.reverse t.warpStarts :=
  .init (List.nodup_range.filter _) fun _ hi => lt_of_isWarpAt (mem_warpStarts.1 hi)

theorem reached_iff :
    (∃ start ∈ t.warpStarts, ReflTransGen t.Calls start j) ↔
      t.isWarpAt j = true ∨ t.WarpReaches j := by
  constructor
  · rintro ⟨start, hstart, hpath⟩
    rcases Relation.reflTransGen_iff_eq_or_transGen.1 hpath with rfl | hpath
    · exact .inl (mem_warpStarts.1 hstart)
    · exact .inr ⟨start, mem_warpStarts.1 hstart, hpath⟩
  · rintro (hwarp | ⟨start, hstart, hpath⟩)
    · exact ⟨j, mem_warpStarts.2 hwarp, .refl⟩
    · exact ⟨start, mem_warpStarts.2 hstart, hpath.to_reflTransGen⟩

theorem WarpReaches.isPlainProcedure (h : t.WarpReaches j) (hplain : t.isWarpAt j = false) :
    t.IsPlainProcedure j := by
  obtain ⟨start, -, hpath⟩ := h
  obtain ⟨i, -, hcall⟩ := Relation.TransGen.tail'_iff.1 hpath
  obtain ⟨s, hs, hprocedure⟩ := hcall.isProcedure
  refine ⟨s, hs, hprocedure, ?_⟩
  rw [isWarpAt, hs] at hplain
  exact hplain

theorem IsPlainProcedure.not_isWarpAt (h : t.IsPlainProcedure j) : t.isWarpAt j = false := by
  obtain ⟨s, hs, -, hplain⟩ := h
  rw [isWarpAt, hs]
  exact hplain

theorem mem_warpReachable_iff {reachable : List Nat} (h : t.warpReachable = .ok reachable) :
    j ∈ reachable ↔ t.IsPlainProcedure j ∧ t.WarpReaches j := by
  obtain ⟨followed, seen, hlist, rfl⟩ := warpReachable_eq_ok h
  have hseen : j ∈ seen ↔ t.isWarpAt j = true ∨ t.WarpReaches j :=
    hlist.mem_seen_iff.trans reached_iff
  simp only [List.mem_filter, List.mem_range, Bool.and_eq_true, List.contains_iff_mem,
    Bool.not_eq_true', hseen]
  constructor
  · rintro ⟨-, hwarp | hreach, hplain⟩
    · rw [hplain] at hwarp
      cases hwarp
    · exact ⟨hreach.isPlainProcedure hplain, hreach⟩
  · rintro ⟨hprocedure, hreach⟩
    have hplain := hprocedure.not_isWarpAt
    obtain ⟨s, hs, -⟩ := hprocedure
    exact ⟨(List.getElem?_eq_some_iff.1 hs).1, .inr hreach, hplain⟩

theorem pairwise_warpReachable {reachable : List Nat} (h : t.warpReachable = .ok reachable) :
    reachable.Pairwise (· < ·) := by
  obtain ⟨-, seen, -, rfl⟩ := warpReachable_eq_ok h
  exact List.pairwise_lt_range.filter _

theorem warpReachable_error {fault : Fault} (h : t.warpReachable = .error fault) :
    ∃ i, (t.isWarpAt i = true ∨ t.WarpReaches i) ∧ t.callsAt i = .error fault := by
  cases hexplore : t.explore (t.scripts.length + 1) t.warpStarts.reverse t.warpStarts with
  | error stop =>
    have hstop : t.warpReachable = .error stop := by
      show t.explore (t.scripts.length + 1) t.warpStarts.reverse t.warpStarts >>= _ = _
      rw [hexplore]
      rfl
    rw [hstop] at h
    cases h
    obtain ⟨i, hreached, hcalls⟩ := t.worklist_warpStarts.explore_error hexplore
    exact ⟨i, reached_iff.1 hreached, hcalls⟩
  | ok seen =>
    have hok : t.warpReachable = .ok _ := Outcome.bind_eq_ok.2 ⟨seen, hexplore, rfl⟩
    rw [hok] at h
    cases h

/-- The search ends on every call graph: fuel beyond one step more than there are scripts changes
nothing. It gives, in increasing order, the procedures with screen refresh that a procedure without
it reaches through one call or more. So it does for every target without malformed calls; for
others, unless it reaches a script with one, whose fault it gives. -/
theorem warpReachable_closure (t : Target) :
    (∀ extra, t.explore (t.scripts.length + 1 + extra) t.warpStarts.reverse t.warpStarts =
      t.explore (t.scripts.length + 1) t.warpStarts.reverse t.warpStarts) ∧
    (t.Walkable → ∃ reachable, t.warpReachable = .ok reachable) ∧
    ((∃ reachable, t.warpReachable = .ok reachable ∧ reachable.Pairwise (· < ·) ∧
        ∀ j, j ∈ reachable ↔ t.IsPlainProcedure j ∧ t.WarpReaches j) ∨
      ∃ i fault, (t.isWarpAt i = true ∨ t.WarpReaches i) ∧ t.callsAt i = .error fault ∧
        t.warpReachable = .error fault) := by
  refine ⟨t.worklist_warpStarts.explore_extra (by simp), warpReachable_ok, ?_⟩
  cases h : t.warpReachable with
  | ok reachable =>
    exact .inl ⟨reachable, rfl, pairwise_warpReachable h, fun _ => mem_warpReachable_iff h⟩
  | error fault =>
    obtain ⟨i, hreached, hcalls⟩ := warpReachable_error h
    exact .inr ⟨i, fault, hreached, hcalls, rfl⟩

/-- The hat of a procedure. -/
def procedureHat (code : String) (warp : Bool) : Block :=
  .mk (.known (.procedure .definition)) [("PROCCODE", .plain "string" (.text code)),
    ("WARP", .plain "boolean" (.bool warp))] "hat"

/-- A call of a procedure, with what it passes. -/
def procedureCall (code : String) (passed : List Input) : Block :=
  .mk (.known (.procedure .call)) [("PROCCODE", .plain "string" (.text code)),
    ("INPUTS", .values passed)] "call"

/-- The first procedure runs without screen refresh. It calls itself and, in what it passes, the
second; the second and the third call each other, one of them inside a loop. The fourth has the code
of the second, the fifth calls the second and is called by a script that is no procedure. -/
def callRing : Target where
  name := .text "Cat"
  scripts := [
    ⟨[procedureHat "a" true, procedureCall "a" [.block (some (procedureCall "b" []))]], .text "a",
      .int 0, .int 0⟩,
    ⟨[procedureHat "b" false, procedureCall "c" []], .text "b", .int 0, .int 0⟩,
    ⟨[procedureHat "c" false,
      .mk (.known (.control .forever)) [("SUBSTACK", .stack (some [procedureCall "b" []]))] "loop"],
      .text "c", .int 0, .int 0⟩,
    ⟨[procedureHat "b" false], .text "b", .int 0, .int 0⟩,
    ⟨[procedureHat "d" false, procedureCall "b" []], .text "d", .int 0, .int 0⟩,
    ⟨[procedureCall "d" []], .text "start", .int 0, .int 0⟩]

theorem callRing_closure : callRing.Walkable ∧ callRing.warpReachable = .ok [1, 2] ∧
    ∀ j, j = 1 ∨ j = 2 ↔ callRing.IsPlainProcedure j ∧ callRing.WarpReaches j := by
  have hwalk : callRing.Walkable := by
    unfold Walkable
    decide
  have hreachable : callRing.warpReachable = .ok [1, 2] := rfl
  obtain ⟨-, hreturns, hexact⟩ := warpReachable_closure callRing
  obtain ⟨reachable, hok⟩ := hreturns hwalk
  rcases hexact with ⟨found, hfound, -, hmem⟩ | ⟨i, fault, -, -, herror⟩
  · rw [hreachable] at hfound
    cases hfound
    exact ⟨hwalk, hreachable, fun j => by simpa using hmem j⟩
  · rw [hok] at herror
    cases herror

end ScratchExport.Target
