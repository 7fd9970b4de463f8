import ScratchExport.Text.Lines

/-!
# Pieces between separators

`Text.splitWhere` and `Text.joinWith` are the library's `List.splitOnP` and `List.intercalate`, so
its lemmas apply: what stands before a separator and what stands behind it are cut independently of
each other, and pieces joined with the separator are the text again.
-/

namespace ScratchExport.Text
variable {p : Char → Bool} {c : Char} {cs : List Char}

theorem splitWhere_eq_splitOnP (p : Char → Bool) (cs : List Char) :
    splitWhere p cs = cs.splitOnP p := by
  induction cs with
  | nil => rfl
  | cons c rest ih =>
    have hcons : consLine c (rest.splitOnP p) = (rest.splitOnP p).modifyHead (c :: ·) := by
      obtain ⟨line, more, heq⟩ := List.exists_cons_of_ne_nil (List.splitOnP_ne_nil p rest)
      rw [heq]
      rfl
    rw [splitWhere, List.splitOnP_cons_eq_if_modifyHead, ih, hcons]

theorem joinWith_eq_intercalate (sep : List Char) (ls : List (List Char)) :
    joinWith sep ls = sep.intercalate ls := by
  induction ls using joinWith.induct with
  | case1 => rfl
  | case2 line => rw [joinWith, List.intercalate_singleton]
  | case3 line rest hrest ih =>
    rw [joinWith, ih, List.intercalate_cons_of_ne_nil]
    all_goals exact hrest

theorem splitWhere_ne_nil (p : Char → Bool) (cs : List Char) : splitWhere p cs ≠ [] := by
  rw [splitWhere_eq_splitOnP]
  exact List.splitOnP_ne_nil p cs

theorem splitWhere_append (hc : p c = true) (cs ds : List Char) :
    splitWhere p (cs ++ c :: ds) = splitWhere p cs ++ splitWhere p ds := by
  simp only [splitWhere_eq_splitOnP]
  exact List.splitOnP_append_cons cs ds hc

theorem splitWhere_eq_singleton (h : ∀ c ∈ cs, p c = false) : splitWhere p cs = [cs] := by
  rw [splitWhere_eq_splitOnP]
  exact List.splitOnP_eq_singleton h

theorem joinWith_cons (sep line : List Char) {ls : List (List Char)} (h : ls ≠ []) :
    joinWith sep (line :: ls) = line ++ sep ++ joinWith sep ls := by
  simp only [joinWith_eq_intercalate]
  exact List.intercalate_cons_of_ne_nil h

theorem mem_joinWith {sep : List Char} {ls : List (List Char)} (h : c ∈ joinWith sep ls) :
    c ∈ sep ∨ ∃ line ∈ ls, c ∈ line := by
  induction ls using joinWith.induct with
  | case1 => cases h
  | case2 line => exact .inr ⟨line, List.mem_singleton_self line, h⟩
  | case3 line rest hrest ih =>
    rw [joinWith_cons _ _ hrest, List.mem_append, List.mem_append] at h
    rcases h with (h | h) | h
    · exact .inr ⟨line, List.mem_cons_self, h⟩
    · exact .inl h
    · exact (ih h).imp_right fun ⟨later, hlater, hc⟩ => ⟨later, List.mem_cons_of_mem _ hlater, hc⟩

theorem joinWith_splitWhere (sep : Char) (cs : List Char) :
    joinWith [sep] (splitWhere (· == sep) cs) = cs := by
  rw [joinWith_eq_intercalate, splitWhere_eq_splitOnP]
  exact List.intercalate_splitOn sep

end ScratchExport.Text
