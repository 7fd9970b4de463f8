import Mathlib.Data.List.Nodup
import Mathlib.Data.List.Perm.Subperm
import Mathlib.Logic.Relation
import ScratchExport.Project.Calls
import ScratchExport.Proofs.Outcome

/-!
# What `warpReachable` finds

`Target.Calls t i j`: the script at `i` calls the procedure at `j` directly. `explore` is a worklist
loop over this relation, and `Target.Worklist` is its invariant: what is seen is what has been
followed together with what is pending, all of it reached from the starting scripts, and the calls
of what has been followed are seen. A script is put on the list only when it is first seen, so it is
followed once, and fuel for one step more than there are scripts lasts until nothing is pending.
What is seen at the end is therefore closed under calls.

Malformed calls are the only way for the loop to stop with a fault (`Target.warpReachable_ok`).
-/

namespace ScratchExport

theorem nodup_eraseDups (l : List Nat) : l.eraseDups.Nodup := by
  cases l with
  | nil => simp
  | cons a rest =>
    rw [List.eraseDups_cons]
    refine List.nodup_cons.2 ⟨?_, nodup_eraseDups _⟩
    rw [List.mem_eraseDups]; simp
termination_by l.length
decreasing_by exact Nat.lt_succ_of_le (List.length_filter_le _ _)

namespace Target
variable {t : Target} {i j : Nat}

/-- The script at `i` calls the procedure at `j` directly. -/
def Calls (t : Target) (i j : Nat) : Prop :=
  ∃ callees, t.callsAt i = .ok callees ∧ j ∈ callees

/-- Every call in the scripts of a target has inputs that can be walked through. -/
def Walkable (t : Target) : Prop :=
  ∀ s ∈ t.scripts, stackWalkFault? s.blocks = none

theorem findProcedure_lt {proccode : Value} (h : t.findProcedure proccode = some j) :
    j < t.scripts.length := by
  obtain ⟨hlt, -⟩ := List.findIdx?_eq_some_iff_getElem.1 h
  exact hlt

theorem mem_calleesOf {blocks : List Block} : j ∈ t.calleesOf blocks ↔
    ∃ b ∈ blocks, b.kind.is (.procedure .call) = true ∧
    t.findProcedure (b.literal "PROCCODE" .null) = some j := by
  rw [calleesOf, List.mem_eraseDups, List.mem_filterMap]
  constructor
  · rintro ⟨b, hb, h⟩
    split at h
    · exact ⟨b, hb, ‹_›, h⟩
    · cases h
  · rintro ⟨b, hb, hcall, h⟩
    exact ⟨b, hb, by simp [hcall, h]⟩

theorem callsAt_eq_ok {callees : List Nat} (h : t.callsAt i = .ok callees) :
    callees.Nodup ∧ ∀ j ∈ callees, j < t.scripts.length := by
  unfold callsAt at h
  split at h
  · obtain ⟨blocks, -, h⟩ := Outcome.bind_eq_ok.1 h
    rw [Outcome.pure_eq_ok] at h; subst h
    refine ⟨nodup_eraseDups _, fun j hj => ?_⟩
    obtain ⟨b, -, -, hfind⟩ := mem_calleesOf.1 hj
    exact findProcedure_lt hfind
  · cases h; simp

theorem mem_of_callsAt {s : Script} {b : Block} {callees : List Nat} (h : t.callsAt i = .ok callees)
    (hs : t.scripts[i]? = some s) (hb : b ∈ s.nested) (hcall : b.kind.is (.procedure .call) = true)
    (hfind : t.findProcedure (b.literal "PROCCODE" .null) = some j) : j ∈ callees := by
  simp only [callsAt, hs, procedureCalls, Outcome.bind_eq_ok, Outcome.pure_eq_ok] at h
  obtain ⟨blocks, hwalk, rfl⟩ := h
  have hblocks : blocks = s.nested := by
    unfold Script.walk at hwalk
    split at hwalk
    · cases hwalk
    · cases hwalk; rfl
  rw [hblocks]
  exact mem_calleesOf.2 ⟨b, hb, hcall, hfind⟩

/-- The state of `explore` from `starts`, where the scripts in `done` have been followed. -/
structure Worklist (t : Target) (starts done pending seen : List Nat) : Prop where
  nodup : seen.Nodup
  parts : seen.Perm (done ++ pending)
  bounded : ∀ i ∈ seen, i < t.scripts.length
  starts_seen : ∀ i ∈ starts, i ∈ seen
  reached : ∀ i ∈ seen, ∃ start ∈ starts, Relation.ReflTransGen t.Calls start i
  /-- What has been followed was followed without a fault, and its calls are seen. -/
  closed : ∀ i ∈ done, ∃ callees, t.callsAt i = .ok callees ∧ ∀ j ∈ callees, j ∈ seen

namespace Worklist
open List (Perm)
variable {starts done pending seen callees : List Nat}

theorem init (hnodup : starts.Nodup) (hlt : ∀ i ∈ starts, i < t.scripts.length) :
    t.Worklist starts [] starts.reverse starts :=
  ⟨hnodup, by simp, hlt, fun _ h => h, fun i h => ⟨i, h, .refl⟩, by simp⟩

theorem length_done_le (h : t.Worklist starts done pending seen) :
    done.length + pending.length ≤ t.scripts.length := by
  have hsub : seen ⊆ List.range t.scripts.length := fun i hi => List.mem_range.2 (h.bounded i hi)
  have hle := (h.nodup.subperm hsub).length_le
  have hlen := h.parts.length_eq
  simp only [List.length_append, List.length_range] at hle hlen
  omega

theorem step (h : t.Worklist starts done (i :: pending) seen) (hcalls : t.callsAt i = .ok callees) :
    t.Worklist starts (i :: done) ((callees.filter fun j => !seen.contains j).reverse ++ pending)
      (seen ++ callees.filter fun j => !seen.contains j) := by
  set found := callees.filter fun j => !seen.contains j with hfound
  have hmem : ∀ j, j ∈ found ↔ j ∈ callees ∧ j ∉ seen := by simp [hfound]
  obtain ⟨hnodup, hlt⟩ := callsAt_eq_ok hcalls
  have hi : i ∈ seen := h.parts.mem_iff.2 (by simp)
  have hseen : ∀ j ∈ callees, j ∈ seen ++ found := by
    intro j hj
    by_cases hjs : j ∈ seen
    · exact List.mem_append_left _ hjs
    · exact List.mem_append_right _ ((hmem j).2 ⟨hj, hjs⟩)
  refine ⟨?_, ?_, ?_, fun i hi => List.mem_append_left _ (h.starts_seen i hi), ?_, ?_⟩
  · rw [List.nodup_append']
    exact ⟨h.nodup, hnodup.filter _, fun j hj hj' => ((hmem j).1 hj').2 hj⟩
  · have hswap : (pending ++ found).Perm (found.reverse ++ pending) :=
      List.perm_append_comm.trans ((List.reverse_perm found).symm.append_right pending)
    calc (seen ++ found).Perm ((done ++ i :: pending) ++ found) := h.parts.append_right found
      Perm _ (i :: (done ++ pending) ++ found) := List.perm_middle.append_right found
      Perm _ (i :: done ++ (found.reverse ++ pending)) := by
        simpa only [List.cons_append, List.append_assoc] using (hswap.append_left done).cons i
  · intro j hj
    rcases List.mem_append.1 hj with hj | hj
    · exact h.bounded j hj
    · exact hlt j ((hmem j).1 hj).1
  · intro j hj
    rcases List.mem_append.1 hj with hj | hj
    · exact h.reached j hj
    · obtain ⟨start, hstart, hpath⟩ := h.reached i hi
      exact ⟨start, hstart, hpath.tail ⟨callees, hcalls, ((hmem j).1 hj).1⟩⟩
  · intro k hk
    rcases List.mem_cons.1 hk with rfl | hk
    · exact ⟨callees, hcalls, hseen⟩
    · obtain ⟨others, hothers, hin⟩ := h.closed k hk
      exact ⟨others, hothers, fun j hj => List.mem_append_left _ (hin j hj)⟩

/-- With fuel left for every script, the loop goes on until nothing is pending. -/
theorem explore {fuel : Nat} {result : List Nat} (h : t.Worklist starts done pending seen)
    (hfuel : t.scripts.length < fuel + done.length)
    (hok : t.explore fuel pending seen = .ok result) :
    ∃ followed, t.Worklist starts followed [] result := by
  induction fuel generalizing done pending seen with
  | zero => have := h.length_done_le; omega
  | succ fuel ih =>
    cases pending with
    | nil => cases hok; exact ⟨done, h⟩
    | cons i pending =>
      obtain ⟨callees, hcalls, hok⟩ := Outcome.bind_eq_ok.1 hok
      exact ih (h.step hcalls) (by simp only [List.length_cons]; omega) hok

end Worklist

theorem callsAt_ok (hwalk : t.Walkable) (i : Nat) : ∃ callees, t.callsAt i = .ok callees := by
  unfold callsAt
  split
  · rename_i s hs
    have hnone := hwalk s (List.mem_of_getElem? hs)
    exact ⟨_, by simp only [procedureCalls, Script.walk, hnone]; rfl⟩
  · exact ⟨[], rfl⟩

theorem explore_ok (hwalk : t.Walkable) (fuel : Nat) (pending seen : List Nat) :
    ∃ result, t.explore fuel pending seen = .ok result := by
  induction fuel generalizing pending seen with
  | zero => exact ⟨seen, rfl⟩
  | succ fuel ih =>
    cases pending with
    | nil => exact ⟨seen, rfl⟩
    | cons i pending =>
      obtain ⟨callees, hcalls⟩ := callsAt_ok hwalk i
      obtain ⟨result, hresult⟩ := ih ((callees.filter fun j => !seen.contains j).reverse ++ pending)
        (seen ++ callees.filter fun j => !seen.contains j)
      exact ⟨result, Outcome.bind_eq_ok.2 ⟨callees, hcalls, hresult⟩⟩

theorem warpReachable_ok (hwalk : t.Walkable) : ∃ reachable, t.warpReachable = .ok reachable := by
  obtain ⟨seen, hseen⟩ := explore_ok hwalk (t.scripts.length + 1)
    ((List.range t.scripts.length).filter t.isWarpAt).reverse
    ((List.range t.scripts.length).filter t.isWarpAt)
  exact ⟨_, Outcome.bind_eq_ok.2 ⟨seen, hseen, rfl⟩⟩

/-- The procedures that are found are those with screen refresh among what a finished worklist has
seen, which started at the procedures without. -/
theorem warpReachable_eq_ok {reachable : List Nat} (h : t.warpReachable = .ok reachable) :
    ∃ followed seen, t.Worklist ((List.range t.scripts.length).filter t.isWarpAt) followed [] seen ∧
      reachable = (List.range t.scripts.length).filter fun i =>
        seen.contains i && !t.isWarpAt i := by
  obtain ⟨seen, hseen, h⟩ := Outcome.bind_eq_ok.1 h
  rw [Outcome.pure_eq_ok] at h
  have hstart : t.Worklist ((List.range t.scripts.length).filter t.isWarpAt) []
      ((List.range t.scripts.length).filter t.isWarpAt).reverse
      ((List.range t.scripts.length).filter t.isWarpAt) :=
    .init (List.nodup_range.filter _) fun i hi => List.mem_range.1 (List.mem_of_mem_filter hi)
  obtain ⟨followed, hdone⟩ := hstart.explore (by simp) hseen
  exact ⟨followed, seen, hdone, h.symm⟩

theorem not_isWarpAt_of_mem_reachable {reachable : List Nat} (h : t.warpReachable = .ok reachable)
    (hi : i ∈ reachable) : i < t.scripts.length ∧ t.isWarpAt i = false := by
  obtain ⟨-, seen, -, rfl⟩ := warpReachable_eq_ok h
  simp only [List.mem_filter, List.mem_range, Bool.and_eq_true, Bool.not_eq_true'] at hi
  exact ⟨hi.1, hi.2.2⟩

theorem lt_of_isWarpAt (h : t.isWarpAt i = true) : i < t.scripts.length := by
  by_contra hge
  rw [isWarpAt, List.getElem?_eq_none (by omega)] at h
  cases h

/-- Scripts that run without screen refresh, by themselves or because they are reached from such a
one, only call procedures of the same kind, and the walk through them met no fault. -/
theorem warpReachable_closed {reachable : List Nat} (h : t.warpReachable = .ok reachable)
    (hi : t.isWarpAt i = true ∨ i ∈ reachable) :
    ∃ callees, t.callsAt i = .ok callees ∧ ∀ j ∈ callees, t.isWarpAt j = true ∨ j ∈ reachable := by
  obtain ⟨followed, seen, hlist, rfl⟩ := warpReachable_eq_ok h
  have hseen : i ∈ seen := by
    rcases hi with hi | hi
    · exact hlist.starts_seen i (List.mem_filter.2 ⟨List.mem_range.2 (lt_of_isWarpAt hi), hi⟩)
    · simp only [List.mem_filter, Bool.and_eq_true, List.contains_iff_mem] at hi
      exact hi.2.1
  have hfollowed : i ∈ followed := by simpa using hlist.parts.mem_iff.1 hseen
  obtain ⟨callees, hcalls, hin⟩ := hlist.closed i hfollowed
  refine ⟨callees, hcalls, fun j hj => ?_⟩
  cases hwarp : t.isWarpAt j with
  | true => exact .inl rfl
  | false =>
    refine .inr (List.mem_filter.2 ⟨List.mem_range.2 (hlist.bounded j (hin j hj)), ?_⟩)
    simp [hin j hj, hwarp]

end Target
end ScratchExport
