import Mathlib.Data.List.Infix
import ScratchExport.Literal.Source
import ScratchExport.Proofs.Escapes
import ScratchExport.Proofs.ShownValues
import ScratchExport.Proofs.YieldScan

/-!
# Texts that open no comment

A text is calm if it has no `/*` in it. `run` looks for one: its state is whether a slash was read
last, and it gives up behind `/*`. `Calm a b s` says that it gets through `s`, where a slash may
stand right before the text if `a`, and at its end if `b`. Escapes, numbers and lower case bring no
`/*` about, so a value whose texts are calm is calm wherever it is shown (`textLaw`).
-/

namespace ScratchExport.Marks

/-- The characters that open a comment. -/
def opening : List Char := ['/', '*']

/-- Read a character behind a slash or not. -/
def next (slash : Bool) (c : Char) : Option Bool :=
  if slash && c == '*' then none else some (c == '/')

/-- Read characters, up to the first `/*`. -/
def run : Bool → List Char → Option Bool
  | slash, [] => some slash
  | slash, c :: rest => (next slash c).bind (run · rest)

/-- The text opens no comment, and neither does it together with a slash in front of it if `a`. It
ends in a slash at most if `b`. -/
def Calm (a b : Bool) (s : String) : Prop :=
  ∀ p ≤ a, ∃ q ≤ b, run p s.toList = some q

variable {a b d p q : Bool} {c : Char} {cs ds : List Char} {s t : String}

@[simp] theorem run_nil : run p [] = some p := rfl

theorem run_cons : run p (c :: cs) = (next p c).bind (run · cs) := rfl

theorem run_append : run p (cs ++ ds) = (run p cs).bind (run · ds) := by
  induction cs generalizing p with
  | nil => rfl
  | cons c rest ih =>
    rw [List.cons_append, run_cons, run_cons]
    cases next p c with
    | none => rfl
    | some q => exact ih

theorem run_cons_eq (p : Bool) (c : Char) (cs : List Char) :
    run p (c :: cs) = (run p [c]).bind (run · cs) := by
  rw [← run_append]
  rfl

theorem next_of_ne (h : c ≠ '*') : next p c = some (c == '/') := by
  unfold next
  rw [if_neg]
  simp [h]

theorem next_false : next false c = some (c == '/') := rfl

theorem run_eq_none :
    run p cs = none ↔ (p = true ∧ ∃ rest, cs = '*' :: rest) ∨ opening <:+: cs := by
  induction cs generalizing p with
  | nil => simp [opening]
  | cons c rest ih =>
    rw [run_cons, List.infix_cons_iff]
    by_cases hopen : p = true ∧ c = '*'
    · obtain ⟨rfl, rfl⟩ := hopen
      simp [next]
    · have hnext : next p c = some (c == '/') := by
        unfold next
        rw [if_neg]
        simpa using hopen
      have hfirst : ¬ (p = true ∧ ∃ more, c :: rest = '*' :: more) := by
        rintro ⟨hp, more, hmore⟩
        exact hopen ⟨hp, (List.cons.inj hmore).1⟩
      have hprefix : opening <+: c :: rest ↔ (c == '/') = true ∧ ∃ more, rest = '*' :: more := by
        simp only [opening, List.cons_prefix_cons, beq_iff_eq, eq_comm (a := '/')]
        refine and_congr_right fun _ => ⟨?_, ?_⟩
        · rintro ⟨more, rfl⟩
          exact ⟨more, rfl⟩
        · rintro ⟨more, rfl⟩
          exact ⟨more, rfl⟩
      rw [hnext, Option.bind_some, ih, hprefix]
      exact (or_iff_right hfirst).symm

theorem calm_iff : Calm false true s ↔ ¬ opening <:+: s.toList := by
  have hnone : run false s.toList = none ↔ _ := run_eq_none
  simp only [Bool.false_eq_true, false_and, false_or] at hnone
  rw [← hnone]
  constructor
  · intro h hrun
    obtain ⟨q, -, hq⟩ := h false le_rfl
    rw [hrun] at hq
    cases hq
  · intro h p hp
    obtain ⟨q, hq⟩ := Option.ne_none_iff_exists'.1 h
    rw [le_bot_iff.1 hp]
    exact ⟨q, Bool.le_true q, hq⟩

/-- A slash in front makes no difference to a text that has a character. -/
theorem run_of_run_true (h : run true cs = some q) : ∃ q' ≤ q, run false cs = some q' := by
  cases cs with
  | nil => exact ⟨false, Bool.false_le q, rfl⟩
  | cons c rest =>
    refine ⟨q, le_rfl, ?_⟩
    rw [run_cons, Option.bind_eq_some_iff] at h
    obtain ⟨slash, hslash, hrest⟩ := h
    unfold next at hslash
    split_ifs at hslash
    cases hslash
    exact hrest

/-! ### Putting texts together -/

namespace Calm

theorem append (hs : Calm a b s) (ht : Calm b d t) : Calm a d (s ++ t) := by
  intro p hp
  obtain ⟨q, hq, hrun⟩ := hs p hp
  rw [String.toList_append, run_append, hrun]
  exact ht q hq

theorem ofList (h : ∀ p ≤ a, ∃ q ≤ b, run p cs = some q) : Calm a b (String.ofList cs) := by
  rw [Calm, String.toList_ofList]
  exact h

/-- A text that is read behind a slash can be read without it. -/
theorem of_run (h : run a s.toList = some q) : Calm a q s := by
  intro p hp
  cases a with
  | false =>
    rw [le_bot_iff.1 hp]
    exact ⟨q, le_rfl, h⟩
  | true =>
    cases p with
    | true => exact ⟨q, le_rfl, h⟩
    | false => exact run_of_run_true h

theorem fixed (h : run true cs = some q) : Calm true q (String.ofList cs) :=
  of_run (by rw [String.toList_ofList]; exact h)

theorem weaken (h : Calm a false s) : Calm a true s :=
  fun p hp => (h p hp).imp fun _ hq => ⟨Bool.le_true _, hq.2⟩

theorem narrow (h : Calm true b s) : Calm false b s :=
  fun p _ => h p (Bool.le_true p)

theorem empty (a : Bool) : Calm a a "" :=
  fun p hp => ⟨p, hp, rfl⟩

end Calm

/-! ### Escapes -/

theorem run_of_not_mem (h : '/' ∉ cs) : run false cs = some false := by
  induction cs with
  | nil => rfl
  | cons c rest ih =>
    rw [List.mem_cons, not_or] at h
    have hc : (c == '/') = false := by simpa using Ne.symm h.1
    rw [run_cons, next_false, hc]
    exact ih h.2

/-- A character that is neither a slash nor an asterisk, and then no slash. -/
theorem run_apart (hslash : c ≠ '/') (hstar : c ≠ '*') (h : '/' ∉ cs) :
    run p (c :: cs) = some false := by
  rw [run_cons, next_of_ne hstar, beq_false_of_ne hslash]
  exact run_of_not_mem h

theorem run_flatMap {f : Char → List Char} (h : ∀ p c, run p (f c) = run p [c]) :
    run p (cs.flatMap f) = run p cs := by
  induction cs generalizing p with
  | nil => rfl
  | cons c rest ih =>
    rw [List.flatMap_cons, run_append, h, run_cons_eq p c rest]
    congr 1
    funext q
    exact ih

theorem run_isEscape {marks : List Char} (hmarks : '/' ∉ marks) (h : Text.IsEscape marks cs) :
    run p cs = some false := by
  obtain ⟨d, rest, rfl, hd, hrest⟩ := h
  refine run_apart (by decide) (by decide) ?_
  rw [List.mem_cons, not_or]
  refine ⟨fun heq => hmarks (heq ▸ hd), fun hin => ?_⟩
  obtain ⟨k, hk⟩ := hrest '/' hin
  exact Nat.digitChar_ne '/' rfl hk.symm

theorem run_escapeChar (p : Bool) (c : Char) : run p (Text.escapeChar c) = run p [c] := by
  rcases Text.escapeChar_cases c with ⟨hplain, -⟩ | ⟨hescape, hc⟩
  · rw [hplain]
  · rw [run_isEscape (by decide) hescape, run_apart]
    · rintro rfl
      exact absurd hc (by decide)
    · rintro rfl
      exact absurd hc (by decide)
    · exact List.not_mem_nil

theorem run_showChar {mark : Char} (hmark : mark = '"' ∨ mark = '\'') (p : Bool) (c : Char) :
    run p (Text.showChar mark c) = run p [c] := by
  have hne (d : Char) (hd : d = '/' ∨ d = '*') :
      ¬ (d = mark ∨ d = '\\' ∨ Text.printable.contains d = false) := by
    rcases hmark with rfl | rfl <;> rcases hd with rfl | rfl <;> decide
  rcases Text.showChar_cases mark c with ⟨hplain, -⟩ | ⟨hescape, hc⟩
  · rw [hplain]
  · rw [run_isEscape (by rcases hmark with rfl | rfl <;> decide) hescape, run_apart]
    · exact fun h => hne c (.inl h) hc
    · exact fun h => hne c (.inr h) hc
    · exact List.not_mem_nil

/-- Between quotes a text is apart from what stands around it. -/
theorem run_between {mark : Char} (hmark : mark = '"' ∨ mark = '\'') (h : run false cs = some q) :
    run p (mark :: cs ++ [mark]) = some false := by
  have hnext (p : Bool) : next p mark = some false := by
    rcases hmark with rfl | rfl <;> cases p <;> rfl
  rw [List.cons_append, run_cons, hnext, Option.bind_some, run_append, h, Option.bind_some,
    run_cons, hnext]
  rfl

theorem calm_literal (h : Calm false true s) : Calm true false (Text.literal s) := by
  obtain ⟨q, -, hq⟩ := h false le_rfl
  refine .ofList fun p _ => ⟨false, le_rfl, ?_⟩
  exact run_between (.inl rfl) (by rw [run_flatMap run_escapeChar]; exact hq)

theorem calm_quoted (h : Calm false true s) : Calm true false (Text.quoted s) := by
  have hmark := Text.quoteMark_eq s.toList
  obtain ⟨q, -, hq⟩ := h false le_rfl
  refine .ofList fun p _ => ⟨false, le_rfl, ?_⟩
  exact run_between hmark (by rw [run_flatMap (run_showChar hmark)]; exact hq)

theorem run_commentChars : run p (Literal.commentChars cs) = run p cs := by
  fun_induction Literal.commentChars cs generalizing p with
  | case1 => rfl
  | case2 rest ih =>
    show run p (['*', ' ', '/'] ++ Literal.commentChars rest) = run p (['*', '/'] ++ rest)
    rw [run_append, run_append]
    cases p with
    | true => rfl
    | false => exact ih
  | case3 c rest _ ih =>
    rw [run_cons, run_cons]
    congr 1
    funext q
    exact ih

theorem Calm.commentText (h : Calm a b s) : Calm a b (Literal.commentText s) := by
  refine .ofList fun p hp => ?_
  rw [run_commentChars]
  exact h p hp

/-! ### Lower case -/

/-- A code point that the table of lower case keeps away from comes about from itself only. -/
theorem ne_of_mem_mapCase {n : Nat} (hpos : 0 < n)
    (hlong : ∀ r ∈ Text.CaseTable.lowerLong, n ∉ r.2.map fun k => (Char.ofNat k).toNat)
    (hruns : ∀ r ∈ Text.CaseTable.lowerRuns, n < r.2.2.2 ∨ r.2.2.2 + (r.2.1 - r.1) < n) {d : Char}
    (hc : c.toNat ≠ n) (hd : d ∈ Text.mapCase Text.CaseTable.lowerRuns Text.CaseTable.lowerLong c) :
    d.toNat ≠ n := by
  unfold Text.mapCase at hd
  simp only at hd
  split at hd
  · next image hfind =>
    obtain ⟨k, hk, rfl⟩ := List.mem_map.1 hd
    have haway := hlong _ (List.mem_of_find?_eq_some hfind)
    exact fun heq => haway (List.mem_map.2 ⟨k, hk, heq⟩)
  split at hd
  · next first last stride image hfind =>
    have hrange := List.find?_some hfind
    have haway := hruns _ (List.mem_of_find?_eq_some hfind)
    simp only [Bool.and_eq_true, decide_eq_true_eq] at hrange haway
    rw [List.mem_singleton] at hd
    rcases Yield.toNat_ofNat (image + (c.toNat - first)) with h | h <;> rw [← hd] at h <;> omega
  · rw [List.mem_singleton.1 hd]
    exact hc

theorem mapCase_ne_nil (c : Char) :
    Text.mapCase Text.CaseTable.lowerRuns Text.CaseTable.lowerLong c ≠ [] := by
  unfold Text.mapCase
  simp only
  split
  · next image hfind =>
    have hall : ∀ r ∈ Text.CaseTable.lowerLong, r.2.map Char.ofNat ≠ [] := by decide
    exact hall _ (List.mem_of_find?_eq_some hfind)
  split
  · exact List.cons_ne_nil _ _
  · exact List.cons_ne_nil _ _

theorem run_mapCase (p : Bool) (c : Char) :
    run p (Text.mapCase Text.CaseTable.lowerRuns Text.CaseTable.lowerLong c) = run p [c] := by
  by_cases hslash : c = '/'
  · have himage : Text.mapCase Text.CaseTable.lowerRuns Text.CaseTable.lowerLong '/' = ['/'] := by
      decide +kernel
    rw [hslash, himage]
  by_cases hstar : c = '*'
  · have himage : Text.mapCase Text.CaseTable.lowerRuns Text.CaseTable.lowerLong '*' = ['*'] := by
      decide +kernel
    rw [hstar, himage]
  have haway (m : Char) (hm : m = '/' ∨ m = '*') (hc : c ≠ m) :
      m ∉ Text.mapCase Text.CaseTable.lowerRuns Text.CaseTable.lowerLong c := by
    have hruns : ∀ r ∈ Text.CaseTable.lowerRuns, ∀ n ∈ ['/'.toNat, '*'.toNat],
        n < r.2.2.2 ∨ r.2.2.2 + (r.2.1 - r.1) < n := by decide +kernel
    have hmem : m.toNat ∈ ['/'.toNat, '*'.toNat] := by rcases hm with rfl | rfl <;> decide
    have hlong : ∀ r ∈ Text.CaseTable.lowerLong, m.toNat ∉ r.2.map fun k =>
        (Char.ofNat k).toNat := by
      rcases hm with rfl | rfl <;> decide
    have hpos : 0 < m.toNat := by rcases hm with rfl | rfl <;> decide
    exact fun hin =>
      ne_of_mem_mapCase hpos hlong (fun r hr => hruns r hr _ hmem) (mt Char.toNat_inj.1 hc) hin rfl
  obtain ⟨first, rest, himage⟩ := List.exists_cons_of_ne_nil (mapCase_ne_nil c)
  have hfirst (m : Char) (hm : m = '/' ∨ m = '*') (hc : c ≠ m) : first ≠ m := by
    rintro rfl
    exact haway first hm hc (by rw [himage]; exact List.mem_cons_self ..)
  have hrest := haway '/' (.inl rfl) hslash
  rw [himage, List.mem_cons, not_or] at hrest
  rw [himage, run_apart (hfirst _ (.inl rfl) hslash) (hfirst _ (.inr rfl) hstar) hrest.2,
    run_apart hslash hstar List.not_mem_nil]

theorem run_lowerAfter {before : List Char} : run p (Text.lowerAfter before cs) = run p cs := by
  fun_induction Text.lowerAfter before cs generalizing p with
  | case1 => rfl
  | case2 before rest ih =>
    have hsigma (c : Char) (hc : c = 'ς' ∨ c = 'σ') : next p c = next p 'Σ' := by
      rcases hc with rfl | rfl <;> rw [next_of_ne (by decide), next_of_ne (by decide)] <;> rfl
    rw [run_cons, run_cons, hsigma _ (by split_ifs <;> simp)]
    congr 1
    funext q
    exact ih
  | case3 before c rest _ ih =>
    rw [run_append, run_mapCase, run_cons_eq p c rest]
    congr 1
    funext q
    exact ih

theorem Calm.lower (h : Calm a b s) : Calm a b (Text.lower s) := by
  refine .ofList fun p hp => ?_
  rw [run_lowerAfter]
  exact h p hp

/-! ### Numbers, names and values -/

theorem calm_of_not_mem (h : '/' ∉ s.toList) : Calm false false s := by
  intro p hp
  rw [le_bot_iff.1 hp]
  exact ⟨false, le_rfl, run_of_not_mem h⟩

theorem slash_not_mem_of_numeral (h : ∀ c ∈ cs, c.isDigit = true ∨ c ∈ numeralMarks) :
    '/' ∉ cs := by
  intro hin
  exact absurd (h '/' hin) (by decide)

theorem calm_numberLiteral (x : Binary64) : Calm false false (Literal.numberLiteral x) := by
  cases x with
  | nan => exact .ofList (by decide)
  | infinite negative => cases negative <;> exact .ofList (by decide)
  | finite negative units =>
    exact calm_of_not_mem (slash_not_mem_of_numeral fun _ => Literal.mem_numberLiteral)

theorem calm_toString_int (i : Int) : Calm false false (toString i) := by
  refine calm_of_not_mem (slash_not_mem_of_numeral fun c hc => (mem_toString_int hc).imp_right ?_)
  rintro rfl
  decide

theorem calm_text (x : Binary64) : Calm false false x.text := by
  cases x with
  | nan => exact .ofList (by decide)
  | infinite negative => cases negative <;> exact .ofList (by decide)
  | finite negative units =>
    exact calm_of_not_mem (slash_not_mem_of_numeral fun _ => Binary64.mem_text)

theorem calm_identifier (h : Name.IsIdentifier s) : Calm false false s :=
  calm_of_not_mem fun hin => absurd (Name.isIdentifierTail_of_mem h '/' hin) (by decide)

theorem calm_fixed : ∀ s ∈ fixedTexts, Calm true false s := by
  simp only [fixedTexts, List.forall_mem_cons]
  and_intros
  all_goals first | exact .fixed rfl | exact List.forall_mem_nil _

theorem textLaw : TextLaw Calm where
  append := .append
  weaken := .weaken
  narrow := .narrow
  empty := .empty
  literal := calm_literal
  quoted := calm_quoted
  integer := calm_toString_int
  double := calm_text
  number x := (calm_numberLiteral x).weaken
  fixed := calm_fixed
  reference := .ofList (by decide)
  label op := (calm_identifier (Yield.isIdentifier_label op)).weaken

end ScratchExport.Marks
