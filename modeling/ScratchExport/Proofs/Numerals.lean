import Mathlib.Data.Bool.AllAny
import ScratchExport.Literal.Number
import ScratchExport.Proofs.NameSpace

/-!
# The characters of numerals

Whatever number is written, decimal digits and a few marks are all that it takes: an integer is
digits behind a sign at most, and a double needs a point, an exponent mark and signs besides.
Hexadecimal digits come one by one from `Nat.digitChar`.
-/

namespace ScratchExport

/-- The marks in the text of a finite double. -/
def numeralMarks : List Char := ".e+-".toList

theorem exists_digitChar_of_mem_toDigits {b n : Nat} {c : Char} (hb : 1 < b)
    (h : c ∈ Nat.toDigits b n) : ∃ d, c = Nat.digitChar d := by
  rw [Nat.toDigits_eq_if hb] at h
  split_ifs at h with hn
  · exact ⟨n, List.mem_singleton.1 h⟩
  · rcases List.mem_append.1 h with h | h
    · exact exists_digitChar_of_mem_toDigits hb h
    · exact ⟨n % b, List.mem_singleton.1 h⟩
termination_by n
decreasing_by exact Nat.div_lt_self (by omega) hb

theorem Text.head_decimal {n : Nat} (hn : 0 < n) : (decimal n).head? ≠ some '0' := by
  induction n using Nat.strongRecOn with
  | ind n ih =>
    rw [decimal, Nat.toDigits_eq_if (by decide)]
    split_ifs with hsmall
    · have hdigits : ∀ k < 10, 0 < k → [Nat.digitChar k].head? ≠ some '0' := by decide
      exact hdigits n hsmall hn
    · rw [List.head?_append_of_ne_nil _ Nat.toDigits_ne_nil]
      exact ih (n / 10) (by omega) (by omega)

theorem mem_toString_int {i : Int} {c : Char} (h : c ∈ (toString i).toList) :
    c.isDigit = true ∨ c = '-' := by
  cases i with
  | ofNat n =>
    refine .inl (Text.isDigit_of_mem_decimal (n := n) ?_)
    simpa [toString, Int.repr, Nat.repr, Text.decimal] using h
  | negSucc n =>
    have h : c = '-' ∨ c ∈ Text.decimal (n + 1) := by
      simpa [toString, Int.repr, Nat.repr, Text.decimal] using h
    exact h.symm.imp_left Text.isDigit_of_mem_decimal

namespace Binary64

theorem mem_of_mem_trimZeros {digits : List Char} {c : Char} (h : c ∈ trimZeros digits) :
    c ∈ digits := by
  have := (List.dropWhile_sublist (· == '0')).mem (List.mem_reverse.1 h)
  exact List.mem_reverse.1 this

theorem mem_layout {digits : List Char} {lead : Int} {c : Char}
    (hdigits : ∀ d ∈ digits, d.isDigit = true) (h : c ∈ layout digits lead) :
    c.isDigit = true ∨ c ∈ numeralMarks := by
  have htake (n : Nat) (h : c ∈ digits.take n) : c.isDigit = true :=
    hdigits c (List.mem_of_mem_take h)
  have hdrop (n : Nat) (h : c ∈ digits.drop n) : c.isDigit = true :=
    hdigits c (List.mem_of_mem_drop h)
  have hzeros (n : Nat) (h : c ∈ List.replicate n '0') : c.isDigit = true := by
    rw [(List.mem_replicate.1 h).2]; rfl
  have hsign : (if lead < 0 then '-' else '+') ∈ numeralMarks := by split_ifs <;> decide
  unfold layout at h
  split at h
  · simp only [List.mem_append, List.mem_cons] at h
    rcases h with (h | h) | rfl | h
    · exact .inl (htake _ h)
    · exact .inl (hzeros _ h)
    · exact .inr (by decide)
    · split_ifs at h
      · rw [List.mem_singleton.1 h]; exact .inl rfl
      · exact .inl (hdrop _ h)
  split at h
  · simp only [List.cons_append, List.mem_append, List.mem_cons] at h
    rcases h with rfl | rfl | h | h
    · exact .inl rfl
    · exact .inr (by decide)
    · exact .inl (hzeros _ h)
    · exact .inl (hdigits c h)
  · simp only [List.cons_append, List.append_assoc, List.mem_append, List.mem_cons] at h
    rcases h with h | h | rfl | rfl | h | h
    · exact .inl (htake _ h)
    · split_ifs at h
      · cases h
      · rcases List.mem_cons.1 h with rfl | h
        · exact .inr (by decide)
        · exact .inl (hdrop _ h)
    · exact .inr (by decide)
    · exact .inr hsign
    · exact .inl (hzeros _ h)
    · exact .inl (Text.isDigit_of_mem_decimal h)

theorem mem_text {negative : Bool} {units : Nat} {c : Char}
    (h : c ∈ (text (.finite negative units)).toList) : c.isDigit = true ∨ c ∈ numeralMarks := by
  obtain ⟨body, hbody, htext⟩ : ∃ body, (∀ c ∈ body, c.isDigit = true ∨ c ∈ numeralMarks) ∧
      (text (.finite negative units)).toList = if negative then '-' :: body else body := by
    refine ⟨_, fun c h => ?_, by rw [text]; exact String.toList_ofList⟩
    split_ifs at h
    · revert c
      exact List.all_iff_forall_prop.1 (by decide)
    · generalize shortest units = found at h
      obtain ⟨digits, exponent⟩ := found
      exact mem_layout (fun d hd => Text.isDigit_of_mem_decimal (mem_of_mem_trimZeros hd)) h
  rw [htext] at h
  split_ifs at h
  · rcases List.mem_cons.1 h with rfl | h
    · exact .inr (by decide)
    · exact hbody c h
  · exact hbody c h

end Binary64

theorem Literal.mem_numberLiteral {negative : Bool} {units : Nat} {c : Char}
    (h : c ∈ (numberLiteral (.finite negative units)).toList) :
    c.isDigit = true ∨ c ∈ numeralMarks := by
  unfold numberLiteral at h
  split_ifs at h
  · refine (mem_toString_int h).imp_right fun h => ?_
    rw [h]; decide
  · exact Binary64.mem_text h

end ScratchExport
