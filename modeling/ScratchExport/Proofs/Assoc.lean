import Mathlib.Data.List.Nodup
import Mathlib.Tactic.Tauto
import ScratchExport.Assoc

/-!
# Reading an ordered map after writing to it

Writing replaces the value of one key and leaves the others; the keys stay distinct, and no value
comes from anywhere but the old map and the write.
-/

namespace ScratchExport.Assoc

variable {κ α : Type} [BEq κ] {k k' : κ} {a : α} {m : List (κ × α)}

theorem lookup_cons_eq (key : κ) (value : α) (rest : List (κ × α)) :
    List.lookup k' ((key, value) :: rest) = if k' == key then some value else rest.lookup k' := by
  rw [List.lookup_cons]; cases k' == key <;> rfl

theorem lookup_set [LawfulBEq κ] (k k' : κ) (a : α) (m : List (κ × α)) :
    (set k a m).lookup k' = if k' == k then some a else m.lookup k' := by
  induction m with
  | nil => rw [set, lookup_cons_eq]
  | cons entry rest ih =>
    obtain ⟨key, value⟩ := entry
    rw [set]
    by_cases hkey : key = k
    · subst hkey
      by_cases hk : k' = key <;> simp [lookup_cons_eq, hk]
    · by_cases hk : k' = key
      · subst hk; simp [hkey]
      · simp [lookup_cons_eq, hkey, hk, ih]

theorem mem_of_mem_set {entry : κ × α} (h : entry ∈ set k a m) : entry.2 = a ∨ entry ∈ m := by
  induction m with
  | nil => rw [set, List.mem_singleton] at h; subst h; exact .inl rfl
  | cons first rest ih =>
    obtain ⟨key, value⟩ := first
    rw [set] at h
    split at h
    · rcases List.mem_cons.1 h with rfl | h
      · exact .inl rfl
      · exact .inr (by simp [h])
    · rcases List.mem_cons.1 h with rfl | h
      · exact .inr (by simp)
      · exact (ih h).imp_right (by simp +contextual)

theorem mem_values_set {b : α} (h : b ∈ (set k a m).map (·.2)) : b = a ∨ b ∈ m.map (·.2) := by
  obtain ⟨entry, hentry, rfl⟩ := List.mem_map.1 h
  exact (mem_of_mem_set hentry).imp_right fun h => List.mem_map_of_mem h

theorem nodup_values_set (h : (m.map (·.2)).Nodup) (ha : a ∉ m.map (·.2)) :
    ((set k a m).map (·.2)).Nodup := by
  induction m with
  | nil => simp [set]
  | cons first rest ih =>
    obtain ⟨key, value⟩ := first
    obtain ⟨hvalue, hrest⟩ := List.nodup_cons.1 h
    rw [List.map_cons, List.mem_cons, not_or] at ha
    rw [set]
    split
    · exact List.nodup_cons.2 ⟨ha.2, hrest⟩
    · refine List.nodup_cons.2 ⟨fun hin => ?_, ih hrest ha.2⟩
      rcases mem_values_set hin with heq | hin
      · exact ha.1 heq.symm
      · exact hvalue hin

theorem mem_keys_set [LawfulBEq κ] {key : κ} :
    key ∈ (set k a m).map (·.1) ↔ key = k ∨ key ∈ m.map (·.1) := by
  induction m with
  | nil => simp [set]
  | cons first rest ih =>
    obtain ⟨key', value⟩ := first
    rw [set]
    split
    · rename_i hk
      rw [beq_iff_eq] at hk
      simp [hk]
    · rw [List.map_cons, List.mem_cons, ih, List.map_cons, List.mem_cons]
      tauto

theorem nodup_keys_set [LawfulBEq κ] (h : (m.map (·.1)).Nodup) : ((set k a m).map (·.1)).Nodup := by
  induction m with
  | nil => simp [set]
  | cons first rest ih =>
    obtain ⟨key, value⟩ := first
    obtain ⟨hkey, hrest⟩ := List.nodup_cons.1 h
    rw [set]
    split
    · exact h
    · rename_i hne
      refine List.nodup_cons.2 ⟨fun hin => ?_, ih hrest⟩
      rcases mem_keys_set.1 hin with heq | hin
      · exact hne (beq_iff_eq.2 heq)
      · exact hkey hin

/-- A new key goes to the end. -/
theorem set_of_not_mem [LawfulBEq κ] (h : k ∉ m.map (·.1)) : set k a m = m ++ [(k, a)] := by
  induction m with
  | nil => rfl
  | cons first rest ih =>
    obtain ⟨key, value⟩ := first
    rw [List.map_cons, List.mem_cons, not_or] at h
    rw [set, if_neg (by simpa using fun heq => h.1 heq.symm), ih h.2]
    rfl

theorem update_of_nodup [LawfulBEq κ] {entries : List (κ × α)}
    (h : ((m ++ entries).map (·.1)).Nodup) : update m entries = m ++ entries := by
  induction entries generalizing m with
  | nil => simp [update]
  | cons first rest ih =>
    have hnew : first.1 ∉ m.map (·.1) := by
      intro hin
      rw [List.map_append, List.map_cons, List.nodup_append'] at h
      exact h.2.2 hin List.mem_cons_self
    show update (set first.1 first.2 m) rest = _
    rw [set_of_not_mem hnew, ih (by simpa using h)]
    simp

theorem mem_of_lookup [LawfulBEq κ] {v : α} (h : m.lookup k = some v) : (k, v) ∈ m := by
  obtain ⟨before, after, rfl, -⟩ := List.lookup_eq_some_iff.1 h
  simp

theorem lookup_of_mem [LawfulBEq κ] (hnodup : (m.map (·.1)).Nodup) (h : (k, a) ∈ m) :
    m.lookup k = some a := by
  obtain ⟨before, after, rfl⟩ := List.append_of_mem h
  refine List.lookup_eq_some_iff.2 ⟨before, after, rfl, fun entry hentry => ?_⟩
  rw [List.map_append, List.map_cons, List.nodup_append'] at hnodup
  rw [bne_iff_ne]
  rintro rfl
  exact hnodup.2.2 (List.mem_map_of_mem hentry) List.mem_cons_self

/-- When no value occurs twice, a value is read at one key only. -/
theorem eq_of_lookup_eq [LawfulBEq κ] {v : α} (hnodup : (m.map (·.2)).Nodup)
    (h : m.lookup k = some v) (h' : m.lookup k' = some v) : k = k' :=
  congrArg Prod.fst (List.inj_on_of_nodup_map hnodup (mem_of_lookup h) (mem_of_lookup h') rfl)

end ScratchExport.Assoc
