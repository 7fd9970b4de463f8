import ScratchExport.Proofs.Numerals
import ScratchExport.Text.Quoted

/-!
# How characters are escaped

A character between quotes either stands for itself, or it is written with a backslash, a letter or
mark, and perhaps hexadecimal digits. `escapeChar_cases` and `showChar_cases` say which characters
do which, so a scan through a quoted text has two cases to look at.
-/

namespace ScratchExport.Text
variable {c e mark : Char} {width n : Nat}

theorem mem_hexDigits (h : c ∈ hexDigits width n) : ∃ d, c = Nat.digitChar d := by
  rcases List.mem_append.1 h with h | h
  · exact ⟨0, (List.mem_replicate.1 h).2⟩
  · exact exists_digitChar_of_mem_toDigits (by decide) h

/-- What may stand behind a backslash: a mark or letter of `marks`, and hexadecimal digits. -/
def IsEscape (marks : List Char) (cs : List Char) : Prop :=
  ∃ d rest, cs = '\\' :: d :: rest ∧ d ∈ marks ∧ ∀ e ∈ rest, ∃ k, e = Nat.digitChar k

theorem isEscape_pair {marks : List Char} {d : Char} (h : d ∈ marks) : IsEscape marks ['\\', d] :=
  ⟨d, [], rfl, h, fun _ h => nomatch h⟩

theorem isEscape_hex {marks : List Char} {d : Char} (h : d ∈ marks) (width n : Nat) :
    IsEscape marks ('\\' :: d :: hexDigits width n) :=
  ⟨d, _, rfl, h, fun _ => mem_hexDigits⟩

theorem escapeChar_cases (c : Char) :
    (escapeChar c = [c] ∧ c ≠ '"' ∧ c ≠ '\\' ∧ 0x20 ≤ c.toNat) ∨
      (IsEscape "\"\\nrtbfu".toList (escapeChar c) ∧ (c = '"' ∨ c = '\\' ∨ c.toNat < 0x20)) := by
  unfold escapeChar
  split_ifs with h1 h2 h3 h4 h5 h6 h7 h8
  · exact .inr ⟨isEscape_pair (by decide), .inl (eq_of_beq h1)⟩
  · exact .inr ⟨isEscape_pair (by decide), .inr (.inl (eq_of_beq h2))⟩
  · exact .inr ⟨isEscape_pair (by decide), .inr (.inr (by rw [eq_of_beq h3]; decide))⟩
  · exact .inr ⟨isEscape_pair (by decide), .inr (.inr (by rw [eq_of_beq h4]; decide))⟩
  · exact .inr ⟨isEscape_pair (by decide), .inr (.inr (by rw [eq_of_beq h5]; decide))⟩
  · exact .inr ⟨isEscape_pair (by decide), .inr (.inr (by rw [eq_of_beq h6]; decide))⟩
  · exact .inr ⟨isEscape_pair (by decide), .inr (.inr (by rw [eq_of_beq h7]; decide))⟩
  · exact .inr ⟨isEscape_hex (by decide) .., .inr (.inr h8)⟩
  · exact .inl ⟨rfl, by simpa using h1, by simpa using h2, by omega⟩

theorem showChar_cases (mark c : Char) :
    (showChar mark c = [c] ∧ c ≠ mark ∧ c ≠ '\\') ∨
      (IsEscape (mark :: "\\nrtxuU".toList) (showChar mark c) ∧
        (c = mark ∨ c = '\\' ∨ printable.contains c = false)) := by
  unfold showChar
  split_ifs with h1 h2 h3 h4 h5 h6 h7
  · rcases Bool.or_eq_true_iff.1 h1 with h | h
    · rw [eq_of_beq h]
      exact .inr ⟨isEscape_pair (List.mem_cons_self ..), .inl rfl⟩
    · rw [eq_of_beq h]
      exact .inr ⟨isEscape_pair (List.mem_cons_of_mem _ (by decide)), .inr (.inl rfl)⟩
  · exact .inr ⟨isEscape_pair (List.mem_cons_of_mem _ (by decide)),
      .inr (.inr (by rw [eq_of_beq h2]; decide))⟩
  · exact .inr ⟨isEscape_pair (List.mem_cons_of_mem _ (by decide)),
      .inr (.inr (by rw [eq_of_beq h3]; decide))⟩
  · exact .inr ⟨isEscape_pair (List.mem_cons_of_mem _ (by decide)),
      .inr (.inr (by rw [eq_of_beq h4]; decide))⟩
  · simp only [Bool.or_eq_true, beq_iff_eq, not_or] at h1
    exact .inl ⟨rfl, h1.1, h1.2⟩
  all_goals
    refine .inr ⟨isEscape_hex (List.mem_cons_of_mem _ (by decide)) .., .inr (.inr ?_)⟩
    simpa using h5

theorem quoteMark_eq (cs : List Char) : quoteMark cs = '"' ∨ quoteMark cs = '\'' := by
  unfold quoteMark
  split_ifs
  · exact .inl rfl
  · exact .inr rfl

end ScratchExport.Text
