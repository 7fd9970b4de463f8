import Mathlib.Data.List.Basic
import ScratchExport.Proofs.NameSpace

/-!
# Name spaces in use

Several name spaces are in use side by side, each under its number. `Operation` is what can be done
with them: ask one for a name, or make a copy of one, which gets the next number. An `Account` is a
space with its past, the names it started from and what it has returned since, the latest first. The
past is written down only to be talked about: what a space returns depends on its taken names alone.

One step of an account keeps `Account.Kept`: what is taken are the names it started from and those
it returned, and each of these was the first free variant of its candidate when it was asked for.
`kept_run` is the same for every sequence of operations.
-/

namespace ScratchExport.Name

/-- The search along the variants of a candidate ends at this name: it is free, and all before it
are taken. -/
def IsFirstFree (taken : List String) (candidate name : String) : Prop :=
  ∃ k, name = nextVariant^[k] candidate ∧ name ∉ taken ∧ ∀ j < k, nextVariant^[j] candidate ∈ taken

theorem Space.allocate_isFirstFree (s : Space) (candidate : String) :
    IsFirstFree s.taken candidate (s.allocate candidate).1 := by
  obtain ⟨k, heq, hfree, hbefore⟩ := s.allocate_spec candidate
  exact ⟨k, heq, by rw [heq]; exact hfree, hbefore⟩

theorem Space.mem_sorted (s : Space) (name : String) : name ∈ s.sorted ↔ name ∈ s.taken := by
  rw [sorted, List.mem_mergeSort, List.mem_eraseDups]

/-! ### One space -/

/-- A space with its past. -/
structure Account where
  space : Space
  /-- The names that were taken at the start. -/
  start : List String
  /-- Each candidate with the name returned for it, the latest first. -/
  returned : List (String × String)

namespace Account

/-- An account of a space from now on. -/
def opening (space : Space) : Account :=
  ⟨space, space.taken, []⟩

/-- Ask the space for a name and write down what it returns. -/
def allocate (a : Account) (candidate : String) : Account :=
  ⟨(a.space.allocate candidate).2, a.start,
    (candidate, (a.space.allocate candidate).1) :: a.returned⟩

/-- The names that the space has returned. -/
def names (a : Account) : List String :=
  a.returned.map (·.2)

/-- What one step of an account keeps. -/
structure Kept (a : Account) : Prop where
  taken : a.space.taken = a.names ++ a.start
  first : ∀ candidate name earlier, (candidate, name) :: earlier <:+ a.returned →
    IsFirstFree (earlier.map (·.2) ++ a.start) candidate name

theorem kept_opening (space : Space) : (opening space).Kept where
  taken := rfl
  first candidate name earlier h := by
    have := List.suffix_nil.1 h
    simp at this

theorem Kept.allocate {a : Account} (h : a.Kept) (candidate : String) :
    (a.allocate candidate).Kept where
  taken := by
    show (a.space.allocate candidate).1 :: a.space.taken = _
    rw [h.taken]
    rfl
  first c name earlier hsuffix := by
    rcases List.suffix_cons_iff.1 hsuffix with heq | hsuffix
    · cases heq
      have hfirst := a.space.allocate_isFirstFree candidate
      rw [h.taken] at hfirst
      exact hfirst
    · exact h.first c name earlier hsuffix

/-- A returned name was not taken at the start, nor returned before. -/
theorem Kept.not_mem {a : Account} (h : a.Kept) {candidate name : String}
    {earlier : List (String × String)} (hsuffix : (candidate, name) :: earlier <:+ a.returned) :
    name ∉ earlier.map (·.2) ++ a.start := by
  obtain ⟨-, -, hfree, -⟩ := h.first candidate name earlier hsuffix
  exact hfree

theorem Kept.nodup {a : Account} (h : a.Kept) : a.names.Nodup := by
  have hall : ∀ later, later <:+ a.returned → (later.map (·.2)).Nodup := by
    intro later
    induction later with
    | nil => simp
    | cons entry earlier ih =>
      intro hsuffix
      have hnot := h.not_mem hsuffix
      rw [List.mem_append, not_or] at hnot
      rw [List.map_cons, List.nodup_cons]
      exact ⟨hnot.1, ih ((List.suffix_cons _ _).trans hsuffix)⟩
  exact hall a.returned List.suffix_rfl

theorem Kept.not_mem_start {a : Account} (h : a.Kept) {name : String} (hname : name ∈ a.names) :
    name ∉ a.start := by
  obtain ⟨entry, hentry, rfl⟩ := List.mem_map.1 hname
  obtain ⟨later, earlier, heq⟩ := List.append_of_mem hentry
  have hnot := h.not_mem ⟨later, heq.symm⟩
  rw [List.mem_append, not_or] at hnot
  exact hnot.2

/-- All that an account says about its space. -/
structure Sound (a : Account) : Prop where
  /-- Each name was the first free variant of its candidate, after what was returned before it. -/
  first : ∀ candidate name earlier, (candidate, name) :: earlier <:+ a.returned →
    IsFirstFree (earlier.map (·.2) ++ a.start) candidate name
  distinct : a.names.Nodup
  fresh : ∀ name ∈ a.names, name ∉ a.start
  /-- What is reserved are the names at the start and those returned. -/
  reserved : ∀ name, name ∈ a.space.sorted ↔ name ∈ a.start ∨ name ∈ a.names

theorem Kept.sound {a : Account} (h : a.Kept) : a.Sound where
  first := h.first
  distinct := h.nodup
  fresh _ hname := h.not_mem_start hname
  reserved name := by
    rw [Space.mem_sorted, h.taken, List.mem_append, or_comm]

end Account

/-! ### Spaces side by side -/

/-- What is done with one of several spaces. -/
inductive Operation where
  | allocate (space : Nat) (candidate : String)
  | clone (space : Nat)

/-- The accounts after an operation. A copy gets the next number, and its account starts with it. -/
def Operation.apply (accounts : List Account) : Operation → List Account
  | .allocate i candidate => accounts.modify i (·.allocate candidate)
  | .clone i => accounts ++ (accounts[i]?.map fun a => .opening a.space).toList

/-- The accounts after a sequence of operations. -/
def run (accounts : List Account) (operations : List Operation) : List Account :=
  operations.foldl Operation.apply accounts

theorem run_append (accounts : List Account) (operations later : List Operation) :
    run accounts (operations ++ later) = run (run accounts operations) later :=
  List.foldl_append

section
variable {accounts : List Account} {j : Nat}

theorem Operation.kept_apply (h : ∀ a ∈ accounts, a.Kept) (op : Operation) :
    ∀ a ∈ op.apply accounts, a.Kept := by
  intro a ha
  cases op with
  | allocate i candidate =>
    obtain ⟨j, hj⟩ := List.mem_iff_getElem?.1 ha
    rw [apply, List.getElem?_modify] at hj
    obtain ⟨b, hb, rfl⟩ := Option.map_eq_some_iff.1 hj
    have hkept := h b (List.mem_of_getElem? hb)
    split_ifs
    · exact hkept.allocate candidate
    · exact hkept
  | clone i =>
    rcases List.mem_append.1 ha with ha | ha
    · exact h a ha
    · obtain ⟨b, -, rfl⟩ := Option.map_eq_some_iff.1 (Option.mem_toList.1 ha)
      exact Account.kept_opening b.space

theorem kept_run (h : ∀ a ∈ accounts, a.Kept) (operations : List Operation) :
    ∀ a ∈ run accounts operations, a.Kept := by
  induction operations generalizing accounts with
  | nil => exact h
  | cons op rest ih => exact ih (op.kept_apply h)

/-- An operation leaves every space alone but the one that it asks for a name. -/
theorem Operation.apply_of_ne (hj : j < accounts.length) {op : Operation}
    (hne : ∀ candidate, op ≠ .allocate j candidate) : (op.apply accounts)[j]? = accounts[j]? := by
  cases op with
  | allocate i candidate =>
    rw [apply, List.getElem?_modify_ne]
    rintro rfl
    exact hne candidate rfl
  | clone i => rw [apply, List.getElem?_append_left hj]

theorem Operation.start_apply (hj : j < accounts.length) (op : Operation) :
    (op.apply accounts)[j]?.map (·.start) = accounts[j]?.map (·.start) := by
  by_cases hne : ∀ candidate, op ≠ .allocate j candidate
  · rw [op.apply_of_ne hj hne]
  · push Not at hne
    obtain ⟨candidate, rfl⟩ := hne
    rw [apply, List.getElem?_modify_eq, Option.map_eq_map, Option.map_map]
    rfl

theorem Operation.length_le_apply (accounts : List Account) (op : Operation) :
    accounts.length ≤ (op.apply accounts).length := by
  cases op <;> simp [apply]

theorem start_run (hj : j < accounts.length) (operations : List Operation) :
    (run accounts operations)[j]?.map (·.start) = accounts[j]?.map (·.start) := by
  induction operations generalizing accounts with
  | nil => rfl
  | cons op rest ih =>
    rw [← op.start_apply hj]
    exact ih (Nat.lt_of_lt_of_le hj (op.length_le_apply accounts))

end

/-- The accounts of spaces that start from given names, after a sequence of operations. -/
def accountsAfter (reserved : List (List String)) (operations : List Operation) : List Account :=
  run (reserved.map fun names => .opening ⟨names⟩) operations

/-- Whatever is done with spaces that start from given names: each name that a space returns is the
first free one in the chain of its candidate, so that the search for it ends. The names of one space
are pairwise distinct and differ from those it started from, and together they are what it reserves.
No operation on a space changes another one, and a copy starts from what is taken in its original.
-/
theorem accountsAfter_sound (reserved : List (List String)) (operations : List Operation) :
    (∀ a ∈ accountsAfter reserved operations, a.Sound) ∧
    (∀ i < reserved.length, (accountsAfter reserved operations)[i]?.map (·.start) = reserved[i]?) ∧
    (∀ op, ∀ j < (accountsAfter reserved operations).length,
      (∀ candidate, op ≠ .allocate j candidate) →
      (accountsAfter reserved (operations ++ [op]))[j]? = (accountsAfter reserved operations)[j]?) ∧
    ∀ i a, (accountsAfter reserved operations)[i]? = some a →
      (∀ candidate, (accountsAfter reserved (operations ++ [.allocate i candidate]))[i]? =
        some ⟨(a.space.allocate candidate).2, a.start,
          (candidate, (a.space.allocate candidate).1) :: a.returned⟩) ∧
      (accountsAfter reserved
        (operations ++ [.clone i]))[(accountsAfter reserved operations).length]? =
        some ⟨a.space, a.space.taken, []⟩ ∧
      ∀ later, (accountsAfter reserved (operations ++ later))[i]?.map (·.start) = some a.start := by
  have hopening : ∀ a ∈ reserved.map fun names => Account.opening ⟨names⟩, a.Kept := by
    intro a ha
    obtain ⟨names, -, rfl⟩ := List.mem_map.1 ha
    exact Account.kept_opening ⟨names⟩
  have hlater :
      ∀ later, accountsAfter reserved (operations ++ later) =
      run (accountsAfter reserved operations) later :=
    fun later => run_append _ _ later
  have hstep : ∀ op : Operation, accountsAfter reserved (operations ++ [op]) =
      op.apply (accountsAfter reserved operations) := fun op => hlater [op]
  refine ⟨fun a ha => (kept_run hopening operations a ha).sound, fun i hi => ?_,
    fun op j hj hne => ?_, fun i a ha => ?_⟩
  · rw [accountsAfter, start_run (by simpa using hi)]
    simp [Account.opening, Function.comp_def]
  · rw [hstep]
    exact Operation.apply_of_ne hj hne
  · refine ⟨fun candidate => ?_, ?_, fun later => ?_⟩
    · rw [hstep, Operation.apply, List.getElem?_modify_eq, ha]
      rfl
    · rw [hstep, Operation.apply, ha]
      simp [Account.opening]
    · rw [hlater, start_run (List.getElem?_eq_some_iff.1 ha).1, ha]
      rfl

/-- Two spaces and a copy of the first: the copy goes its own way, a number loses its zeros and its
script when it is raised, and a line feed inside a name keeps it from being raised. -/
def busyOperations : List Operation :=
  [.allocate 0 "i", .clone 0, .allocate 0 "i", .allocate 2 "i", .allocate 0 "i", .allocate 1 "x007",
    .allocate 1 "x007",
    .allocate 1 "a٣\n", .allocate 1 "a٣\n", .allocate 1 "p\nq9", .allocate 1 "p\nq9"]

theorem busyOperations_sound : ∃ a b c, accountsAfter [["i2", "i"], []] busyOperations = [a, b, c] ∧
    a.names = ["i5", "i4", "i3"] ∧ b.names = ["p\nq92", "p\nq9", "a4", "a٣\n", "x8", "x007"] ∧
    c.names = ["i4"] ∧
    c.start = ["i3", "i2", "i"] ∧ a.Sound ∧ b.Sound ∧ c.Sound := by
  have h := (accountsAfter_sound [["i2", "i"], []] busyOperations).1
  obtain ⟨a, b, c, habc⟩ : ∃ a b c, accountsAfter [["i2", "i"], []] busyOperations = [a, b, c] :=
    ⟨_, _, _, rfl⟩
  rw [habc] at h
  refine ⟨a, b, c, habc, ?_, ?_, ?_, ?_, h a (by simp), h b (by simp), h c (by simp)⟩ <;> cases habc
  all_goals decide +kernel

end ScratchExport.Name
