import Mathlib.Data.List.DropRight
import Mathlib.Data.Finset.Card
import ScratchExport.Name.Space

/-!
# Allocation always finds a free name

The chain of variants of a name never comes back to a name it has passed. `variantRank` shows it:
once a line feed stands inside the name every variant is longer, and otherwise the number at its end
grows, so the rank goes up at every step, for leading zeros, digits of other scripts and line feeds
alike. With `n` names taken, one of the first `n + 1` variants is therefore free, which is as far as
`firstFree` looks.

From this one fact follow the laws of a space: `allocate` hands out a name that was not taken and
takes it, and what `allocateAll` hands out is pairwise distinct and clear of what was taken before
(`Space.allocateAll_fresh`).
-/

namespace ScratchExport.Text

theorem digitValue?_ascii {c : Char} (h : c.isDigit = true) :
    digitValue? c = some (c.toNat - '0'.toNat) := by
  have hlo : 48 ≤ c.toNat := by simpa [Char.isDigit] using (Char.isDigit_iff_toNat.1 h).1
  have hhi : c.toNat < 58 := by have := (Char.isDigit_iff_toNat.1 h).2; simp at this; omega
  simp [digitValue?, zeros, hlo, hhi]

theorem isDigit_ascii {c : Char} (h : c.isDigit = true) : isDigit c = true := by
  simp [isDigit, digitValue?_ascii h]

theorem isDigit_of_mem_decimal {n : Nat} {c : Char} (h : c ∈ decimal n) : c.isDigit = true :=
  Nat.isDigit_of_mem_toDigits (by decide) (by decide) h

theorem decimal_ne_nil (n : Nat) : decimal n ≠ [] :=
  Nat.toDigits_ne_nil

theorem digitsValue_eq_ofDigitChars {cs : List Char} (h : ∀ c ∈ cs, c.isDigit = true) :
    digitsValue cs = Nat.ofDigitChars 10 cs 0 := by
  unfold digitsValue Nat.ofDigitChars
  refine List.foldl_ext _ _ 0 fun n c hc => ?_
  rw [digitValue?_ascii (h c hc)]; rfl

@[simp] theorem digitsValue_decimal (n : Nat) : digitsValue (decimal n) = n := by
  rw [digitsValue_eq_ofDigitChars fun c hc => isDigit_of_mem_decimal hc]
  exact Nat.ofDigitChars_ten_toDigits

end ScratchExport.Text

namespace ScratchExport.Name
open Text (isDigit digitsValue decimal)

/-! ### The chain of variants -/

/-- A name without the line feed at its end. -/
def variantBody (cs : List Char) : List Char :=
  if cs.getLast? == some '\n' then cs.dropLast else cs

theorem nextVariantChars_eq (cs : List Char) : nextVariantChars cs =
    if ((variantBody cs).rtakeWhile isDigit).isEmpty || (variantBody cs).contains '\n' then cs ++
      ['2']
    else (variantBody cs).rdropWhile isDigit ++
        decimal (digitsValue ((variantBody cs).rtakeWhile isDigit) + 1) :=
  rfl

theorem nextVariantChars_of_lineFeed {cs : List Char} (h : '\n' ∈ variantBody cs) :
    nextVariantChars cs = cs ++ ['2'] := by
  simp [nextVariantChars_eq, h]

theorem nextVariantChars_of_no_number {cs : List Char}
    (h : (variantBody cs).rtakeWhile isDigit = []) : nextVariantChars cs = cs ++ ['2'] := by
  simp [nextVariantChars_eq, h]

theorem nextVariantChars_of_number {cs : List Char} (hlf : '\n' ∉ variantBody cs)
    (h : (variantBody cs).rtakeWhile isDigit ≠ []) : nextVariantChars cs =
      (variantBody cs).rdropWhile isDigit ++
        decimal (digitsValue ((variantBody cs).rtakeWhile isDigit) + 1) := by
  simp [nextVariantChars_eq, hlf, h]

/-- How far a name is along its chain: its length when a line feed stands inside it, else its
number. -/
def variantRank (cs : List Char) : Nat :=
  if '\n' ∈ variantBody cs then cs.length else digitsValue ((variantBody cs).rtakeWhile isDigit)

theorem not_isDigit_lineFeed : isDigit '\n' = false := by decide

theorem variantBody_append_digits {cs ds : List Char} (hne : ds ≠ [])
    (hd : ∀ d ∈ ds, isDigit d = true) : variantBody (cs ++ ds) = cs ++ ds := by
  have hlast : (cs ++ ds).getLast? = some (ds.getLast hne) := by
    rw [List.getLast?_append_of_ne_nil _ hne, List.getLast?_eq_getLast_of_ne_nil hne]
  have hlf : ds.getLast hne ≠ '\n' := by
    intro h
    have := hd _ (List.getLast_mem hne)
    rw [h, not_isDigit_lineFeed] at this; cases this
  simp [variantBody, hlast, hlf]

theorem rtakeWhile_append_digits {cs ds : List Char} (hcs : cs.rtakeWhile isDigit = [])
    (hd : ∀ d ∈ ds, isDigit d = true) : (cs ++ ds).rtakeWhile isDigit = ds := by
  simp only [List.rtakeWhile, List.reverse_eq_nil_iff] at hcs ⊢
  rw [List.reverse_append, List.takeWhile_append_of_pos (by simpa using hd), hcs]
  simp

theorem rtakeWhile_rdropWhile (cs : List Char) :
    (cs.rdropWhile isDigit).rtakeWhile isDigit = [] := by
  rw [List.rtakeWhile_eq_nil_iff]
  intro hne
  exact List.rdropWhile_last_not isDigit cs hne

theorem mem_of_mem_variantBody {cs : List Char} {c : Char} (h : c ∈ variantBody cs) : c ∈ cs := by
  unfold variantBody at h; split at h
  exacts [List.mem_of_mem_dropLast h, h]

theorem variantBody_eq_self {cs : List Char} (h : '\n' ∉ cs) : variantBody cs = cs := by
  have : cs.getLast? ≠ some '\n' := fun hl => h (List.mem_of_getLast? hl)
  simp [variantBody, this]

theorem mem_nextVariant {name : String} {c : Char} (h : c ∈ (nextVariant name).toList) :
    c ∈ name.toList ∨ c.isDigit = true := by
  rw [nextVariant, String.toList_ofList, nextVariantChars_eq] at h
  split_ifs at h <;> rcases List.mem_append.1 h with h | h
  · exact .inl h
  · rw [List.mem_singleton.1 h]; exact .inr rfl
  · exact .inl (mem_of_mem_variantBody ((List.rdropWhile_prefix _ _).mem h))
  · exact .inr (Text.isDigit_of_mem_decimal h)

theorem variantRank_lt (cs : List Char) : variantRank cs < variantRank (nextVariantChars cs) := by
  have htwo : ∀ d ∈ ['2'], isDigit d = true := by simp; decide
  have hbody : variantBody (cs ++ ['2']) = cs ++ ['2'] := variantBody_append_digits (by simp) htwo
  by_cases hlf : '\n' ∈ variantBody cs
  · -- A line feed inside stays inside, and the name gets longer.
    have hin : '\n' ∈ cs := mem_of_mem_variantBody hlf
    rw [nextVariantChars_of_lineFeed hlf]
    simp [variantRank, hlf, hbody, hin]
  by_cases hnum : (variantBody cs).rtakeWhile isDigit = []
  · rw [nextVariantChars_of_no_number hnum]
    have hrank : variantRank cs = 0 := by simp [variantRank, hlf, hnum, digitsValue]
    rw [hrank, variantRank, hbody]
    by_cases hin : '\n' ∈ cs
    · simp [hin]
    · -- Without any line feed the number is 2 from here on.
      rw [variantBody_eq_self hin] at hnum
      have hval : digitsValue ['2'] = 2 := by decide
      simp [hin, rtakeWhile_append_digits hnum htwo, hval]
  · rw [nextVariantChars_of_number hlf hnum]
    set n := digitsValue ((variantBody cs).rtakeWhile isDigit) with hn
    set stem := (variantBody cs).rdropWhile isDigit with hstem
    have hdec : ∀ d ∈ decimal (n + 1), isDigit d = true :=
      fun d hd => Text.isDigit_ascii (Text.isDigit_of_mem_decimal hd)
    have hbody' : variantBody (stem ++ decimal (n + 1)) = stem ++ decimal (n + 1) :=
      variantBody_append_digits (Text.decimal_ne_nil (n + 1)) hdec
    have hlf' : '\n' ∉ stem ++ decimal (n + 1) := by
      rw [List.mem_append]
      rintro (h | h)
      · exact hlf ((List.rdropWhile_prefix isDigit _).subset h)
      · have := hdec _ h
        rw [not_isDigit_lineFeed] at this; cases this
    have hrank : variantRank cs = n := by simp [variantRank, hlf, ← hn]
    rw [hrank, variantRank, hbody', if_neg hlf',
      rtakeWhile_append_digits (rtakeWhile_rdropWhile (variantBody cs)) hdec,
      Text.digitsValue_decimal]
    omega

/-- The names of a chain never repeat. -/
theorem iterate_nextVariant_injective (name : String) :
    Function.Injective fun k => nextVariant^[k] name := by
  have hmono : StrictMono fun k => variantRank (nextVariant^[k] name).toList := by
    refine strictMono_nat_of_lt_succ fun k => ?_
    rw [Function.iterate_succ_apply']
    simpa [nextVariant] using variantRank_lt (nextVariant^[k] name).toList
  intro i j h
  exact hmono.injective (congrArg (fun s => variantRank s.toList) h)

/-! ### The first free name -/

theorem exists_variant_free (taken : List String) (name : String) :
    ∃ k ≤ taken.length, nextVariant^[k] name ∉ taken := by
  by_contra hall
  push Not at hall
  -- Otherwise the first `n + 1` variants, which are distinct, are among `n` names.
  have hnodup : ((List.range (taken.length + 1)).map fun k => nextVariant^[k] name).Nodup :=
    List.nodup_range.map (iterate_nextVariant_injective name)
  have hsub : ((List.range (taken.length + 1)).map fun k => nextVariant^[k] name) ⊆ taken := by
    intro x hx
    obtain ⟨k, hk, rfl⟩ := List.mem_map.1 hx
    exact hall k (Nat.le_of_lt_succ (List.mem_range.1 hk))
  have hlen := (hnodup.subperm hsub).length_le
  rw [List.length_map, List.length_range] at hlen
  omega

/-- `firstFree` stops at the first free name of the chain, if its fuel reaches one. -/
theorem firstFree_spec {taken : List String} {fuel : Nat} {name : String}
    (h : ∃ k ≤ fuel, nextVariant^[k] name ∉ taken) :
    ∃ k, firstFree taken fuel name = nextVariant^[k] name ∧ nextVariant^[k] name ∉ taken ∧
      ∀ j < k, nextVariant^[j] name ∈ taken := by
  induction fuel generalizing name with
  | zero =>
    obtain ⟨k, hk, hfree⟩ := h
    obtain rfl : k = 0 := by omega
    exact ⟨0, rfl, hfree, by simp⟩
  | succ fuel ih =>
    rw [firstFree]
    by_cases hmem : name ∈ taken
    · obtain ⟨k, hk, hfree⟩ := h
      cases k with
      | zero => exact absurd hmem hfree
      | succ k =>
        have hnext : ∃ k ≤ fuel, nextVariant^[k] (nextVariant name) ∉ taken := ⟨k, by omega, hfree⟩
        obtain ⟨i, heq, hi, hbefore⟩ := ih hnext
        refine ⟨i + 1, by simpa [hmem] using heq, hi, fun j hj => ?_⟩
        cases j with
        | zero => exact hmem
        | succ j => exact hbefore j (by omega)
    · exact ⟨0, by simp [hmem], hmem, by simp⟩

namespace Space

/-- An allocated name is the first one of the candidate's chain that was not taken. -/
theorem allocate_spec (s : Space) (candidate : String) :
    ∃ k, (s.allocate candidate).1 = nextVariant^[k] candidate ∧
    nextVariant^[k] candidate ∉ s.taken ∧
      ∀ j < k, nextVariant^[j] candidate ∈ s.taken :=
  firstFree_spec (exists_variant_free s.taken candidate)

theorem allocate_not_mem (s : Space) (candidate : String) : (s.allocate candidate).1 ∉ s.taken := by
  obtain ⟨k, heq, hfree, -⟩ := s.allocate_spec candidate
  rw [heq]; exact hfree

@[simp] theorem allocate_taken (s : Space) (candidate : String) :
    (s.allocate candidate).2.taken = (s.allocate candidate).1 :: s.taken := rfl

/-- What holds of the candidate and passes to variants holds of the allocated name. -/
theorem allocate_induction {P : String → Prop} (hstep : ∀ name, P name → P (nextVariant name))
    (s : Space) {candidate : String} (h : P candidate) : P (s.allocate candidate).1 := by
  obtain ⟨k, heq, -, -⟩ := s.allocate_spec candidate
  rw [heq]
  clear heq
  induction k with
  | zero => exact h
  | succ k ih => rw [Function.iterate_succ_apply']; exact hstep _ ih

@[simp] theorem allocateAll_nil (s : Space) : s.allocateAll [] = ([], s) := rfl

theorem allocateAll_cons (s : Space) (candidate : String) (rest : List String) :
    s.allocateAll (candidate :: rest) =
      ((s.allocate candidate).1 :: ((s.allocate candidate).2.allocateAll rest).1,
      ((s.allocate candidate).2.allocateAll rest).2) := rfl

theorem length_allocateAll (s : Space) (candidates : List String) :
    (s.allocateAll candidates).1.length = candidates.length := by
  induction candidates generalizing s with
  | nil => rfl
  | cons c rest ih => simp [allocateAll_cons, ih]

theorem mem_allocateAll_taken (s : Space) (candidates : List String) (name : String) :
    name ∈ (s.allocateAll candidates).2.taken ↔ name ∈ (s.allocateAll candidates).1 ∨
      name ∈ s.taken := by
  induction candidates generalizing s with
  | nil => simp
  | cons c rest ih => simp [allocateAll_cons, ih]; tauto

/-- What a space hands out is pairwise distinct and was not taken. -/
theorem allocateAll_fresh (s : Space) (candidates : List String) :
    (s.allocateAll candidates).1.Nodup ∧ ∀ name ∈ (s.allocateAll candidates).1, name ∉ s.taken := by
  induction candidates generalizing s with
  | nil => simp
  | cons c rest ih =>
    obtain ⟨hnodup, hfresh⟩ := ih (s.allocate c).2
    rw [allocateAll_cons]
    refine ⟨List.nodup_cons.2 ⟨fun hmem => ?_, hnodup⟩, fun name hmem => ?_⟩
    · exact hfresh _ hmem (by simp)
    · rcases List.mem_cons.1 hmem with rfl | hmem
      · exact s.allocate_not_mem c
      · exact fun h => hfresh name hmem (by simp [h])

theorem allocateAll_induction {P : String → Prop} (hstep : ∀ name, P name → P (nextVariant name))
    (s : Space) {candidates : List String} (h : ∀ c ∈ candidates, P c) :
    ∀ name ∈ (s.allocateAll candidates).1, P name := by
  induction candidates generalizing s with
  | nil => simp
  | cons c rest ih =>
    intro name hmem
    rcases List.mem_cons.1 hmem with rfl | hmem
    · exact s.allocate_induction hstep (h c (by simp))
    · exact ih _ (fun c hc => h c (by simp [hc])) name hmem

end Space

end ScratchExport.Name
