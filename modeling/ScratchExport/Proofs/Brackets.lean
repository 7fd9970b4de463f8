import Mathlib.Data.Bool.AllAny
import Mathlib.Data.List.Infix
import ScratchExport.Shape

/-!
# Brackets and quotes in source

The scan that tells atomic source from the rest counts brackets and knows quotes. `Scan.read` is the
same scan without its stop at an operator; it gives up when a bracket is closed that was not opened.
`Leads d e s` says that it gets from depth `d` to depth `e` through `s`, with no quote open at
either end. Source is closed when it leads from 0 to 0, and then it does so at any depth: nothing in
it reaches the brackets around it.

Closed source in parentheses is atomic, and in a chain of operands with operators between them the
operators are the ones that a reader finds outside brackets and quotes (`isTopOperator_iff`).
-/

namespace ScratchExport.Source

def isQuote (c : Char) : Bool :=
  c == '"' || c == '\'' || c == '\x60'

def isOpening (c : Char) : Bool :=
  c == '(' || c == '[' || c == '\x7b'

def isClosing (c : Char) : Bool :=
  c == ')' || c == ']' || c == '\x7d'

/-- A character that moves the scan outside quotes. -/
def isMark (c : Char) : Bool :=
  isQuote c || isOpening c || isClosing c

namespace Scan

/-- Read one character, an operator like a letter. -/
def next (scan : Scan) (c : Char) : Scan :=
  match scan.quote with
  | some q =>
    if scan.escaped then { scan with escaped := false }
    else if c == '\\' then { scan with escaped := true }
    else if c == q then { scan with quote := none }
    else scan
  | none =>
    if isQuote c then { scan with quote := some c }
    else if isOpening c then { scan with depth := scan.depth + 1 }
    else if isClosing c then { scan with depth := scan.depth - 1 }
    else scan

/-- The scan stands outside brackets and quotes. -/
def IsTop (scan : Scan) : Prop :=
  scan.depth = 0 ∧ scan.quote = none

/-- Read characters, unless a bracket is closed that was not opened. -/
def read : Scan → List Char → Option Scan
  | scan, [] => some scan
  | scan, c :: rest => if (scan.next c).depth < 0 then none else (scan.next c).read rest

/-- Outside quotes at a depth. -/
def level (d : Nat) : Scan :=
  ⟨d, none, false⟩

/-- Inside a quote at a depth. -/
def inside (d : Nat) (q : Char) : Scan :=
  ⟨d, some q, false⟩

/-- The same place with more brackets around it. -/
def raise (scan : Scan) (k : Nat) : Scan :=
  { scan with depth := scan.depth + k }

variable {scan scan' : Scan} {cs ds : List Char} {c q : Char} {d k : Nat}

theorem isMark_of_isOperator (h : isOperator c = true) : isMark c = false := by
  have hall : ∀ c ∈ " +-*/%<>=!&|?:,".toList, isMark c = false :=
    List.all_iff_forall_prop.1 (by decide)
  exact hall c (List.contains_iff_mem.1 h)

theorem next_of_not_isMark (hquote : scan.quote = none) (h : isMark c = false) :
    scan.next c = scan := by
  simp only [isMark, Bool.or_eq_false_iff] at h
  rw [next, hquote]
  simp [h]

theorem step_eq_some (h : ¬ (scan.IsTop ∧ isOperator c = true)) :
    scan.step c = some (scan.next c) := by
  obtain ⟨depth, quote, escaped⟩ := scan
  cases quote with
  | some q =>
    unfold step next
    dsimp only
    split_ifs <;> rfl
  | none =>
    have h : ¬ ((depth == 0 && isOperator c) = true) := by simpa [IsTop] using h
    unfold step next isQuote isOpening isClosing
    dsimp only
    rw [if_neg h]
    split_ifs <;> rfl

theorem step_eq_none (htop : scan.IsTop) (h : isOperator c = true) : scan.step c = none := by
  obtain ⟨depth, quote, escaped⟩ := scan
  obtain ⟨rfl, rfl⟩ := htop
  have hmark := isMark_of_isOperator h
  simp only [isMark, Bool.or_eq_false_iff, isQuote, isOpening, isClosing] at hmark
  simp [step, h, hmark]

@[simp] theorem read_nil : scan.read [] = some scan := rfl

theorem read_append : scan.read (cs ++ ds) = (scan.read cs).bind (·.read ds) := by
  induction cs generalizing scan with
  | nil => rfl
  | cons c rest ih =>
    rw [List.cons_append, read, read]
    split_ifs
    · rfl
    · exact ih

/-! ### Deeper inside -/

theorem next_raise : (scan.raise k).next c = (scan.next c).raise k := by
  obtain ⟨depth, quote, escaped⟩ := scan
  cases quote with
  | some q =>
    unfold next raise
    dsimp only
    split_ifs <;> rfl
  | none =>
    unfold next raise
    dsimp only
    split_ifs
    · rfl
    · simp only [Scan.mk.injEq, and_self, and_true]; omega
    · simp only [Scan.mk.injEq, and_self, and_true]; omega
    · rfl

theorem read_raise (h : scan.read cs = some scan') :
    (scan.raise k).read cs = some (scan'.raise k) := by
  induction cs generalizing scan with
  | nil => cases h; rfl
  | cons c rest ih =>
    rw [read] at h ⊢
    split_ifs at h with hdepth
    have hraised : ¬ ((scan.raise k).next c).depth < 0 := by
      rw [next_raise]
      show ¬ (scan.next c).depth + k < 0
      omega
    rw [if_neg hraised, next_raise]
    exact ih h

/-- Inside brackets no operator ends the scan. -/
theorem run_raise (hk : 0 < k) (hscan : 0 ≤ scan.depth) (h : scan.read cs = some scan') :
    (scan.raise k).run cs = some (scan'.raise k) := by
  induction cs generalizing scan with
  | nil => cases h; rfl
  | cons c rest ih =>
    rw [read] at h
    split_ifs at h with hdepth
    have hinside : ¬ ((scan.raise k).IsTop ∧ isOperator c = true) := by
      rintro ⟨⟨hzero, -⟩, -⟩
      have : scan.depth + k = 0 := hzero
      omega
    rw [run, step_eq_some hinside]
    dsimp only
    rw [next_raise]
    exact ih (by omega) h

theorem run_eq_of_read {a b : Scan} (ha : scan.run cs = some a) (hb : scan.read cs = some b) :
    a = b := by
  induction cs generalizing scan with
  | nil => cases ha; cases hb; rfl
  | cons c rest ih =>
    by_cases hstop : scan.IsTop ∧ isOperator c = true
    · rw [run, step_eq_none hstop.1 hstop.2] at ha
      cases ha
    · rw [run, step_eq_some hstop] at ha
      rw [read] at hb
      split_ifs at hb
      exact ih ha hb

/-! ### Inside quotes -/

theorem read_inside_cons (hq : c ≠ q) (hescape : c ≠ '\\') :
    (inside d q).read (c :: cs) = (inside d q).read cs := by
  have hnext : (inside d q).next c = inside d q := by simp [next, inside, hq, hescape]
  have hdepth : ¬ (inside d q).depth < 0 := by simp [inside]
  rw [read, hnext, if_neg hdepth]

theorem read_inside_escape : (inside d q).read ('\\' :: c :: cs) = (inside d q).read cs := by
  have hdepth : ¬ ((d : Int) < 0) := by omega
  simp [read, next, inside, hdepth]

theorem read_inside (h : ∀ c ∈ cs, c ≠ q ∧ c ≠ '\\') :
    (inside d q).read cs = some (inside d q) := by
  induction cs with
  | nil => rfl
  | cons c rest ih =>
    rw [List.forall_mem_cons] at h
    rw [read_inside_cons h.1.1 h.1.2]
    exact ih h.2

theorem read_flatMap {f : Char → List Char} (h : ∀ c, scan.read (f c) = some scan) :
    scan.read (cs.flatMap f) = some scan := by
  induction cs with
  | nil => rfl
  | cons c rest ih => rw [List.flatMap_cons, read_append, h c, Option.bind_some, ih]

theorem read_quoted (hq : isQuote q = true) (h : (inside d q).read cs = some (inside d q))
    (hescape : q ≠ '\\') : (level d).read (q :: cs ++ [q]) = some (level d) := by
  have hinside : ¬ (inside d q).depth < 0 := by simp [inside]
  have hlevel : ¬ (level d).depth < 0 := by simp [level]
  have hopen : (level d).next q = inside d q := by simp [next, level, inside, hq]
  have hclose : (inside d q).next q = level d := by simp [next, level, inside, hescape]
  rw [List.cons_append, read, hopen, if_neg hinside, read_append, h, Option.bind_some, read, hclose,
    if_neg hlevel, read_nil]

end Scan

/-! ### Texts that lead from depth to depth -/

/-- The scan gets from one depth to another through the text, with no quote open at either end. -/
def Leads (d e : Nat) (s : String) : Prop :=
  (Scan.level d).read s.toList = some (Scan.level e)

instance (d e : Nat) (s : String) : Decidable (Leads d e s) :=
  inferInstanceAs (Decidable (_ = _))

/-- A text without quotes and brackets. -/
def IsBare (s : String) : Prop :=
  ∀ c ∈ s.toList, isMark c = false

namespace Leads
variable {d e f k : Nat} {s t : String}

theorem ofList {cs : List Char} (h : (Scan.level d).read cs = some (Scan.level e)) :
    Leads d e (String.ofList cs) := by
  rw [Leads, String.toList_ofList]
  exact h

theorem append (hs : Leads d e s) (ht : Leads e f t) : Leads d f (s ++ t) := by
  rw [Leads, String.toList_append, Scan.read_append, hs, Option.bind_some]
  exact ht

theorem raise (h : Leads d e s) (k : Nat) : Leads (d + k) (e + k) s := by
  have := Scan.read_raise (k := k) h
  simpa [Scan.raise, Scan.level, Leads] using this

theorem deeper (h : Leads 0 0 s) (d : Nat) : Leads d d s := by
  have := h.raise d
  rwa [Nat.zero_add] at this

theorem empty (d : Nat) : Leads d d "" := rfl

theorem between {first last : String} (hfirst : Leads 0 d first) (hs : Leads 0 0 s)
    (hlast : Leads d 0 last) : Leads 0 0 (first ++ s ++ last) :=
  (hfirst.append (hs.deeper d)).append hlast

end Leads

theorem IsBare.leads {s : String} (h : IsBare s) (d : Nat) : Leads d d s := by
  unfold IsBare at h
  rw [Leads]
  generalize s.toList = cs at h
  induction cs with
  | nil => rfl
  | cons c rest ih =>
    rw [List.forall_mem_cons] at h
    have hdepth : ¬ (Scan.level d).depth < 0 := by simp [Scan.level]
    rw [Scan.read, Scan.next_of_not_isMark rfl h.1, if_neg hdepth]
    exact ih h.2

theorem IsBare.ofList {cs : List Char} (h : (cs.all fun c => !isMark c) = true) :
    IsBare (String.ofList cs) := by
  simpa [IsBare] using h

/-! ### Operands -/

theorem Scan.run_append (scan : Scan) (cs ds : List Char) :
    scan.run (cs ++ ds) = (scan.run cs).bind fun next => next.run ds := by
  induction cs generalizing scan with
  | nil => rfl
  | cons c cs ih =>
    rw [List.cons_append, run, run]
    cases scan.step c with
    | none => rfl
    | some next => exact ih next

/-- Atomic source that leaves the scan where it began. -/
structure IsOperand (s : String) : Prop where
  atomic : isAtomic s = true
  run : Scan.start.run s.toList = some Scan.start

theorem isOperand_paren {s : String} (h : Leads 0 0 s) : IsOperand (paren s) := by
  unfold paren
  split_ifs with hatomic
  · refine ⟨hatomic, ?_⟩
    unfold isAtomic at hatomic
    split at hatomic
    · cases hatomic
    · next c rest hs =>
      obtain ⟨-, hrun⟩ := Bool.and_eq_true_iff.1 hatomic
      obtain ⟨scan, hscan⟩ := Option.isSome_iff_exists.1 hrun
      rw [← hs] at hscan
      rw [hscan, Scan.run_eq_of_read hscan h]
      rfl
  · have hinside : (Scan.level 1).run s.toList = some (Scan.level 1) :=
      Scan.run_raise (k := 1) Nat.one_pos (Int.le_refl 0) h
    have hrun : Scan.start.run ('(' :: (s.toList ++ [')'])) = some Scan.start := by
      show (Scan.level 1).run (s.toList ++ [')']) = some Scan.start
      rw [Scan.run_append, hinside]
      rfl
    have hlist : ("(" ++ s ++ ")").toList = '(' :: (s.toList ++ [')']) := by simp
    refine ⟨?_, by rw [hlist, hrun]⟩
    unfold isAtomic
    rw [hlist]
    dsimp only
    rw [hrun]
    rfl

/-- From where the scan stands, the character at a position is an operator outside brackets and
quotes. -/
def IsTopOperatorFrom (scan : Scan) (cs : List Char) (i : Nat) : Prop :=
  ∃ c, cs[i]? = some c ∧ isOperator c = true ∧ ((cs.take i).foldl Scan.next scan).IsTop

/-- The character at a position of source is an operator outside brackets and quotes. -/
def IsTopOperator (s : String) (i : Nat) : Prop :=
  IsTopOperatorFrom Scan.start s.toList i

variable {scan scan' : Scan} {cs ds : List Char} {i : Nat}

theorem isTopOperatorFrom_append :
    IsTopOperatorFrom scan (cs ++ ds) i ↔ if i < cs.length then IsTopOperatorFrom scan cs i
    else IsTopOperatorFrom (cs.foldl Scan.next scan) ds (i - cs.length) := by
  unfold IsTopOperatorFrom
  split_ifs with hi
  · rw [List.getElem?_append_left hi, List.take_append_of_le_length hi.le]
  · rw [List.getElem?_append_right (Nat.not_lt.1 hi), List.take_append,
      List.take_of_length_le (Nat.not_lt.1 hi), List.foldl_append]

theorem foldl_next_of_run (h : scan.run cs = some scan') : cs.foldl Scan.next scan = scan' := by
  induction cs generalizing scan with
  | nil => cases h; rfl
  | cons c rest ih =>
    by_cases hstop : scan.IsTop ∧ isOperator c = true
    · rw [Scan.run, Scan.step_eq_none hstop.1 hstop.2] at h
      cases h
    · rw [Scan.run, Scan.step_eq_some hstop] at h
      exact ih h

/-- What the scan gets through holds no operator outside brackets and quotes. -/
theorem not_isTopOperatorFrom_of_run (h : scan.run cs = some scan') (i : Nat) :
    ¬ IsTopOperatorFrom scan cs i := by
  rintro ⟨c, hc, hoperator, htop⟩
  obtain ⟨hi, hget⟩ := List.getElem?_eq_some_iff.1 hc
  have hsplit : cs = cs.take i ++ c :: cs.drop (i + 1) := by
    rw [← hget, List.cons_getElem_drop_succ, List.take_append_drop]
  rw [hsplit, Scan.run_append] at h
  obtain ⟨middle, hmiddle, hrest⟩ := Option.bind_eq_some_iff.1 h
  rw [foldl_next_of_run hmiddle] at htop
  rw [Scan.run, Scan.step_eq_none htop hoperator] at hrest
  cases hrest

/-- Operators leave the scan where it is, and each of them counts. -/
theorem isTopOperatorFrom_of_operators (hcs : ∀ c ∈ cs, isOperator c = true) :
    cs.foldl Scan.next Scan.start = Scan.start ∧ (IsTopOperatorFrom Scan.start cs i ↔
      i < cs.length) := by
  have hfold : ∀ ds : List Char, (∀ c ∈ ds, isOperator c = true) →
      ds.foldl Scan.next Scan.start = Scan.start := by
    intro ds hds
    induction ds with
    | nil => rfl
    | cons c rest ih =>
      rw [List.forall_mem_cons] at hds
      rw [List.foldl_cons, Scan.next_of_not_isMark rfl (Scan.isMark_of_isOperator hds.1)]
      exact ih hds.2
  refine ⟨hfold cs hcs, fun ⟨c, hc, _⟩ => (List.getElem?_eq_some_iff.1 hc).1, fun hi => ?_⟩
  refine ⟨cs[i], List.getElem?_eq_getElem hi, hcs _ (List.getElem_mem hi), ?_⟩
  rw [hfold _ fun c hc => hcs c (List.mem_of_mem_take hc)]
  exact ⟨rfl, rfl⟩

/-- Between two operands, the operators outside brackets and quotes are those of the separator. -/
theorem isTopOperator_iff {a b sep : String} (ha : IsOperand a) (hb : IsOperand b)
    (hsep : ∀ c ∈ sep.toList, isOperator c = true) (i : Nat) :
    IsTopOperator (a ++ sep ++ b) i ↔ a.length ≤ i ∧ i < a.length + sep.length := by
  obtain ⟨hstay, hbetween⟩ := isTopOperatorFrom_of_operators (i := i - a.length) hsep
  unfold IsTopOperator
  rw [String.toList_append, String.toList_append, List.append_assoc, isTopOperatorFrom_append,
    isTopOperatorFrom_append, foldl_next_of_run ha.run, hstay, String.length_toList, hbetween,
    String.length_toList]
  have hleft := not_isTopOperatorFrom_of_run ha.run i
  have hright := not_isTopOperatorFrom_of_run hb.run (i - a.length - sep.length)
  split_ifs with h1 h2
  · simp only [hleft, false_iff]; omega
  · simp only [h2, true_iff]; omega
  · simp only [hright, false_iff]; omega

end ScratchExport.Source
