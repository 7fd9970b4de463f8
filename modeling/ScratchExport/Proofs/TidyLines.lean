import Mathlib.Data.List.Chain
import Mathlib.Data.List.DropRight
import ScratchExport.Proofs.LiteralLines

/-!
# The lines of a finished file

`finish` leaves out superfluous blank lines. `Tidy` says what lines are like when none of them is
superfluous: they start and end with a line that is not blank, no two blank lines follow each other,
no line has blanks at its end, and in a script no blank line stands behind an opening bracket or in
front of a closing one. The lines that are kept are tidy (`tidy_keptLines`), and tidy lines are all
kept (`keptLines_of_tidy`). Leaving out blank lines keeps the solid ones, in order
(`solid_keptLines`), although a closing bracket takes back a blank line that has already been taken.
-/

namespace ScratchExport

namespace Text
variable {cs blanks : List Char}

theorem trimEnd_eq_nil_iff : trimEnd cs = [] ↔ ∀ c ∈ cs, isBlank c = true :=
  List.rdropWhile_eq_nil_iff

theorem trimEnd_trimEnd (cs : List Char) : trimEnd (trimEnd cs) = trimEnd cs :=
  List.rdropWhile_idempotent isBlank cs

theorem trimEnd_append_blanks (cs : List Char) (h : ∀ c ∈ blanks, isBlank c = true) :
    trimEnd (cs ++ blanks) = trimEnd cs := by
  rw [trimEnd, List.reverse_append, List.dropWhile_append_of_pos fun c hc =>
    h c (List.mem_reverse.1 hc)]
  rfl

theorem exists_trimEnd_append (cs : List Char) :
    ∃ blanks, cs = trimEnd cs ++ blanks ∧ ∀ c ∈ blanks, isBlank c = true :=
  ⟨cs.rtakeWhile isBlank, List.rdropWhile_append_rtakeWhile.symm,
    fun _ hc => List.mem_rtakeWhile_imp hc⟩

theorem trim_blanks_append (h : ∀ c ∈ blanks, isBlank c = true) (cs : List Char) :
    trim (blanks ++ cs) = trim cs := by
  rw [trim, trimStart, List.dropWhile_append_of_pos h]
  rfl

theorem trim_append_blanks (cs : List Char) (h : ∀ c ∈ blanks, isBlank c = true) :
    trim (cs ++ blanks) = trim cs := by
  unfold trim trimStart
  rw [List.dropWhile_append]
  split_ifs with hcs
  · rw [List.isEmpty_iff.1 hcs, List.dropWhile_eq_nil_iff.2 h]
  · exact trimEnd_append_blanks _ h

theorem trim_trimEnd (cs : List Char) : trim (trimEnd cs) = trim cs := by
  obtain ⟨blanks, heq, hblanks⟩ := exists_trimEnd_append cs
  conv_rhs => rw [heq, trim_append_blanks _ hblanks]

theorem trim_trim (cs : List Char) : trim (trim cs) = trim cs := by
  have hstart : trim (trimStart cs) = trim cs := by
    conv_rhs => rw [← List.takeWhile_append_dropWhile (p := isBlank) (l := cs)]
    exact (trim_blanks_append (fun _ hc => List.mem_takeWhile_imp hc) _).symm
  calc trim (trim cs) = trim (trimStart cs) := trim_trimEnd _
    _ = trim cs := hstart

theorem trim_eq_nil_iff : trim cs = [] ↔ trimEnd cs = [] := by
  constructor
  · intro h
    have hstart : ∀ c ∈ trimStart cs, isBlank c = true := trimEnd_eq_nil_iff.1 h
    have hsplit := List.takeWhile_append_dropWhile (p := isBlank) (l := cs)
    rw [trimEnd_eq_nil_iff, ← hsplit]
    intro c hc
    rcases List.mem_append.1 hc with hc | hc
    exacts [List.mem_takeWhile_imp hc, hstart c hc]
  · intro h
    rw [← trim_trimEnd, h]
    rfl

/-- Something in front of a trimmed text does not bring blanks to its end. -/
theorem trimEnd_append_trim (front : List Char) (h : trim cs ≠ []) :
    trimEnd (front ++ trim cs) = front ++ trim cs := by
  have hlast : isBlank ((trim cs).getLast h) = false :=
    Bool.eq_false_of_not_eq_true (List.rdropWhile_last_not isBlank (trimStart cs) h)
  rw [← List.dropLast_append_getLast h, ← List.append_assoc]
  exact trimEnd_concat _ hlast

/-- Lines without line ends, each closed by a line feed, are the lines of the whole. -/
theorem lines_cons_lineFeed {line : List Char} (h : ∀ c ∈ line, isLineEnd c = false)
    (rest : List Char) : lines (line ++ '\n' :: rest) = line :: lines rest := by
  induction line with
  | nil => rfl
  | cons c line ih =>
    rw [List.forall_mem_cons] at h
    rw [List.cons_append, lines_cons h.1, ih h.2]
    rfl

theorem lines_joinWith {ls : List (List Char)} (hne : ls ≠ [])
    (h : ∀ line ∈ ls, ∀ c ∈ line, isLineEnd c = false) :
    lines (joinWith ['\n'] ls ++ ['\n']) = ls := by
  induction ls using joinWith.induct with
  | case1 => exact absurd rfl hne
  | case2 line => exact lines_cons_lineFeed (h line (List.mem_singleton_self line)) []
  | case3 line rest hrest ih =>
    rw [List.forall_mem_cons] at h
    rw [joinWith_cons _ _ hrest, List.append_assoc, List.append_assoc, List.singleton_append,
      lines_cons_lineFeed h.1, ih hrest h.2]

end Text

namespace Layout
open Text
variable {aware : Bool} {ls taken : List (List Char)} {line : List Char}

/-- The lines that are not blank, without the blanks at their ends. -/
def solid (ls : List (List Char)) : List (List Char) :=
  (ls.map trimEnd).filter (!·.isEmpty)

@[simp] theorem solid_append (ls more : List (List Char)) :
    solid (ls ++ more) = solid ls ++ solid more := by
  simp [solid]

theorem solid_cons_of_blank (h : trimEnd line = []) (ls : List (List Char)) :
    solid (line :: ls) = solid ls := by
  simp [solid, h]

@[simp] theorem solid_nil_cons (ls : List (List Char)) : solid ([] :: ls) = solid ls :=
  solid_cons_of_blank rfl ls

theorem solid_cons_of_ne (h : trimEnd line ≠ []) (ls : List (List Char)) :
    solid (line :: ls) = trimEnd line :: solid ls := by
  simp [solid, h]

/-! ### Taking one more line -/

/-- What taking a line can do: a blank line is skipped or taken, and another line is taken, perhaps
in place of the blank line before it. -/
theorem takeLine_cases (aware : Bool) (taken : List (List Char)) (line : List Char) :
    (trimEnd line = [] ∧ takeLine aware taken line = taken) ∨
    (trimEnd line = [] ∧ takeLine aware taken line = [] :: taken ∧
      ∃ last earlier, taken = last :: earlier ∧ last ≠ [] ∧
      (aware = true → endsInOpener last = false)) ∨
    (trimEnd line ≠ [] ∧ ∃ earlier, taken = [] :: earlier ∧
        takeLine aware taken line = trimEnd line :: earlier) ∨
    (trimEnd line ≠ [] ∧ takeLine aware taken line = trimEnd line :: taken ∧
      (taken.head? = some [] → aware = true → startsWithCloser (trimEnd line) = false)) := by
  unfold takeLine
  by_cases hline : trimEnd line = []
  · rw [hline]
    cases taken with
    | nil => exact .inl ⟨rfl, rfl⟩
    | cons last earlier =>
      dsimp only
      rw [if_pos List.isEmpty_nil]
      split_ifs with hskip
      · exact .inl ⟨rfl, rfl⟩
      · rw [Bool.or_eq_true, not_or, Bool.and_eq_true, not_and] at hskip
        refine .inr (.inl ⟨rfl, rfl, last, earlier, rfl, ?_, fun haware => ?_⟩)
        · simpa using hskip.1
        · simpa using hskip.2 haware
  · rw [if_neg (by simpa using hline)]
    rcases taken with _ | ⟨_ | ⟨c, last⟩, earlier⟩
    · exact .inr (.inr (.inr ⟨hline, rfl, fun hhead => by cases hhead⟩))
    · dsimp only
      split_ifs with hcloser
      · exact .inr (.inr (.inl ⟨hline, earlier, rfl, rfl⟩))
      · refine .inr (.inr (.inr ⟨hline, rfl, fun _ haware => ?_⟩))
        simpa [haware] using hcloser
    · exact .inr (.inr (.inr ⟨hline, rfl, fun hhead => by cases hhead⟩))

theorem solid_takeLine (aware : Bool) (taken : List (List Char)) (line : List Char) :
    solid (takeLine aware taken line).reverse = solid taken.reverse ++ solid [line] := by
  rcases takeLine_cases aware taken line with
    ⟨hblank, htake⟩ | ⟨hblank, htake, -⟩ | ⟨hline, earlier, htaken, htake⟩ | ⟨hline, htake, -⟩
  · rw [htake, solid_cons_of_blank hblank]
    simp [solid]
  · rw [htake, List.reverse_cons, solid_append, solid_cons_of_blank hblank, solid_nil_cons]
  · rw [htake, htaken, List.reverse_cons, List.reverse_cons, solid_append, solid_append,
      solid_nil_cons,
      solid_cons_of_ne hline, solid_cons_of_ne (by rwa [trimEnd_trimEnd]), trimEnd_trimEnd]
    simp [solid]
  · rw [htake, List.reverse_cons, solid_append, solid_cons_of_ne hline,
      solid_cons_of_ne (by rwa [trimEnd_trimEnd]), trimEnd_trimEnd]

theorem solid_foldl_takeLine (ls taken : List (List Char)) :
    solid (ls.foldl (takeLine aware) taken).reverse = solid taken.reverse ++ solid ls := by
  induction ls generalizing taken with
  | nil => simp [solid]
  | cons line rest ih =>
    rw [List.foldl_cons, ih, solid_takeLine, List.append_assoc, ← solid_append]
    rfl

/-! ### Tidy lines -/

/-- One line may come right after another. -/
structure Fits (aware : Bool) (earlier later : List Char) : Prop where
  blank : later = [] → earlier ≠ []
  opener : aware = true → later = [] → endsInOpener earlier = false
  closer : aware = true → earlier = [] → startsWithCloser later = false

/-- No line is superfluous. -/
structure Tidy (aware : Bool) (ls : List (List Char)) : Prop where
  trimmed : ∀ line ∈ ls, trimEnd line = line
  starts : ls.head? ≠ some []
  ends : ls.getLast? ≠ some []
  fits : ls.IsChain (Fits aware)

/-- The lines taken so far, the last one first: tidy, except that the last one may be blank. -/
structure Stacked (aware : Bool) (taken : List (List Char)) : Prop where
  trimmed : ∀ line ∈ taken, trimEnd line = line
  starts : taken.getLast? ≠ some []
  fits : taken.IsChain fun later earlier => Fits aware earlier later

namespace Stacked

theorem nil (aware : Bool) : Stacked aware [] :=
  ⟨List.forall_mem_nil _, by simp, .nil⟩

theorem cons (h : Stacked aware taken) (htrim : trimEnd line = line)
    (hstart : taken = [] → line ≠ []) (hfits : ∀ last ∈ taken.head?, Fits aware last line) :
    Stacked aware (line :: taken) where
  trimmed := List.forall_mem_cons.2 ⟨htrim, h.trimmed⟩
  starts := by
    cases taken with
    | nil => simpa using hstart rfl
    | cons last earlier => exact h.starts
  fits := List.isChain_cons.2 ⟨hfits, h.fits⟩

theorem tail (h : Stacked aware (line :: taken)) : Stacked aware taken where
  trimmed := fun later hlater => h.trimmed later (List.mem_cons_of_mem _ hlater)
  starts := by
    cases taken with
    | nil => simp
    | cons last earlier => exact h.starts
  fits := (List.isChain_cons.1 h.fits).2

theorem takeLine (h : Stacked aware taken) (line : List Char) :
    Stacked aware (takeLine aware taken line) := by
  have hsolid {earlier : List (List Char)} (hearlier : Stacked aware earlier)
      (hline : trimEnd line ≠ [])
      (hcloser : earlier.head? = some [] → aware = true → startsWithCloser (trimEnd line) = false) :
      Stacked aware (trimEnd line :: earlier) :=
    hearlier.cons (trimEnd_trimEnd line) (fun _ => hline) fun last hlast =>
      ⟨fun hnil => absurd hnil hline, fun _ hnil => absurd hnil hline,
        fun haware hnil => hcloser (by rw [hlast, hnil]) haware⟩
  rcases takeLine_cases aware taken line with
    ⟨-, htake⟩ | ⟨-, htake, last, earlier, rfl, hlast, hopener⟩ | ⟨hline, earlier, rfl,
      htake⟩ | ⟨hline, htake, hcloser⟩
  · rwa [htake]
  · rw [htake]
    refine h.cons rfl (fun hnil => absurd hnil (List.cons_ne_nil _ _)) fun above habove => ?_
    cases habove
    exact ⟨fun _ => hlast, fun haware _ => hopener haware, fun _ hnil => absurd hnil hlast⟩
  · rw [htake]
    refine hsolid h.tail hline fun hhead => ?_
    -- Below the blank line that is taken back there is no other one.
    exact absurd rfl (((List.isChain_cons.1 h.fits).1 [] hhead).blank rfl)
  · rw [htake]
    exact hsolid h hline hcloser

theorem foldl (h : Stacked aware taken) (ls : List (List Char)) :
    Stacked aware (ls.foldl (Layout.takeLine aware) taken) := by
  induction ls generalizing taken with
  | nil => exact h
  | cons line rest ih => exact ih (h.takeLine line)

/-- Without the blank lines on top, the stack holds tidy lines. -/
theorem tidy (h : Stacked aware taken) : Tidy aware (taken.dropWhile (·.isEmpty)).reverse := by
  induction taken with
  | nil => exact ⟨List.forall_mem_nil _, by simp, by simp, .nil⟩
  | cons last earlier ih =>
    by_cases hlast : last = []
    · subst hlast
      exact ih h.tail
    · rw [List.dropWhile_cons_of_neg (by simpa using hlast)]
      refine ⟨fun line hline => h.trimmed line (List.mem_reverse.1 hline), ?_, ?_,
        List.isChain_reverse.2 h.fits⟩
      · rw [List.head?_reverse]
        exact h.starts
      · rw [List.getLast?_reverse]
        simpa using hlast

end Stacked

theorem takeLine_of_fits (htrim : trimEnd line = line) (hstart : taken = [] → line ≠ [])
    (hfits : ∀ last ∈ taken.head?, Fits aware last line) :
    takeLine aware taken line = line :: taken := by
  unfold takeLine
  rw [htrim]
  rcases taken with _ | ⟨last, earlier⟩
  · rw [if_neg (by simpa using hstart rfl)]
  · obtain ⟨hblank, hopener, hcloser⟩ := hfits last rfl
    by_cases hline : line = []
    · have hskip : (last.isEmpty || (aware && endsInOpener last)) = false := by
        cases aware with
        | false => simpa using hblank hline
        | true => simpa [hopener rfl hline] using hblank hline
      simp [hline, hskip]
    · rw [if_neg (by simpa using hline)]
      cases last with
      | nil =>
        cases aware with
        | false => rfl
        | true => simp [hcloser rfl rfl]
      | cons c last => rfl

theorem foldl_takeLine_of_fits (htrim : ∀ line ∈ ls, trimEnd line = line)
    (hstart : taken = [] → ls.head? ≠ some []) (hchain : ls.IsChain (Fits aware))
    (hfits : ∀ last ∈ taken.head?, ∀ first ∈ ls.head?, Fits aware last first) :
    ls.foldl (takeLine aware) taken = ls.reverse ++ taken := by
  induction ls generalizing taken with
  | nil => rfl
  | cons line rest ih =>
    rw [List.forall_mem_cons] at htrim
    rw [List.isChain_cons] at hchain
    have htake : takeLine aware taken line = line :: taken :=
      takeLine_of_fits htrim.1 (fun hnil => by simpa using hstart hnil) fun last hlast =>
        hfits last hlast line rfl
    rw [List.foldl_cons, htake,
      ih htrim.2 (fun hnil => absurd hnil (List.cons_ne_nil _ _)) hchain.2, List.reverse_cons,
      List.append_assoc, List.singleton_append]
    intro last hlast first hfirst
    cases hlast
    exact hchain.1 first hfirst

/-! ### The lines that are kept -/

/-- The lines of a finished file. -/
def keptLines (aware : Bool) (ls : List (List Char)) : List (List Char) :=
  ((ls.foldl (takeLine aware) []).dropWhile (·.isEmpty)).reverse

theorem finish_eq (aware : Bool) (ls : List (List Char)) :
    finish aware ls = joinWith ['\n'] (keptLines aware ls) ++ ['\n'] := rfl

theorem tidy_keptLines (aware : Bool) (ls : List (List Char)) : Tidy aware (keptLines aware ls) :=
  ((Stacked.nil aware).foldl ls).tidy

theorem keptLines_of_tidy (h : Tidy aware ls) : keptLines aware ls = ls := by
  have hfold : ls.foldl (takeLine aware) [] = ls.reverse ++ [] :=
    foldl_takeLine_of_fits h.trimmed (fun _ => h.starts) h.fits (by simp)
  have hends := h.ends
  rw [List.getLast?_eq_head?_reverse] at hends
  rw [keptLines, hfold, List.append_nil]
  cases hrev : ls.reverse with
  | nil => simpa using hrev.symm
  | cons last earlier =>
    rw [hrev] at hends
    have hlast : last ≠ [] := by simpa using hends
    rw [List.dropWhile_cons_of_neg (by simpa using hlast), ← hrev, List.reverse_reverse]

/-- Leaving out blank lines loses no other line. -/
theorem solid_keptLines (aware : Bool) (ls : List (List Char)) :
    solid (keptLines aware ls) = solid ls := by
  have hdrop (taken : List (List Char)) :
      solid (taken.dropWhile (·.isEmpty)).reverse = solid taken.reverse := by
    induction taken with
    | nil => rfl
    | cons last earlier ih =>
      by_cases hlast : last = []
      · subst hlast
        rw [List.reverse_cons, solid_append, solid_nil_cons, List.dropWhile_cons_of_pos rfl, ih]
        simp [solid]
      · rw [List.dropWhile_cons_of_neg (by simpa using hlast)]
  rw [keptLines, hdrop, solid_foldl_takeLine]
  rfl

theorem not_isLineEnd_of_mem_keptLines (h : ∀ line ∈ ls, ∀ c ∈ line, isLineEnd c = false)
    (hline : line ∈ keptLines aware ls) : ∀ c ∈ line, isLineEnd c = false := by
  intro c hc
  have hline := (List.dropWhile_sublist _).subset (List.mem_reverse.1 hline)
  rcases mem_foldl_takeLine hline hc with ⟨raw, hraw, hc⟩ | ⟨earlier, hearlier, -⟩
  · exact h raw hraw c hc
  · cases hearlier

theorem lines_finish (h : ∀ line ∈ ls, ∀ c ∈ line, isLineEnd c = false)
    (hne : keptLines aware ls ≠ []) : lines (finish aware ls) = keptLines aware ls :=
  lines_joinWith hne fun _ => not_isLineEnd_of_mem_keptLines h

theorem finish_of_keptLines_nil (h : keptLines aware ls = []) : finish aware ls = ['\n'] := by
  rw [finish_eq, h]
  rfl

end Layout

end ScratchExport
