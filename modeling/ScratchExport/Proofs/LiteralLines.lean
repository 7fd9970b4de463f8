import ScratchExport.Layout.Format
import ScratchExport.Proofs.Escapes
import ScratchExport.Proofs.Identifier
import ScratchExport.Proofs.Pieces

/-!
# String literals in a formatted script

A line of a script that sets a property to a string literal is kept by formatting as it is, unless
the text holds a next-line character, a line separator or a paragraph separator. These three end a
line and yet stand for themselves in a literal, so the literal is broken in two there: a formatted
file has no line end but the line feed (`eq_lineFeed_of_mem_formatChars`). All other line ends are
controls, which a literal escapes.
-/

namespace ScratchExport

namespace Text
variable {cs line : List Char} {c : Char}

theorem lines_cons (hc : isLineEnd c = false) : lines (c :: cs) = consLine c (lines cs) := by
  rw [lines, if_neg (by simp [hc])]
  rintro rest rfl rfl
  cases hc

theorem lines_of_not_isLineEnd (hne : cs ≠ []) (h : ∀ c ∈ cs, isLineEnd c = false) :
    lines cs = [cs] := by
  induction cs with
  | nil => exact absurd rfl hne
  | cons c rest ih =>
    rw [List.forall_mem_cons] at h
    rw [lines_cons h.1]
    cases rest with
    | nil => rfl
    | cons d more => rw [ih (by simp) h.2]; rfl

theorem not_isLineEnd_of_mem_lines (h : line ∈ lines cs) : ∀ c ∈ line, isLineEnd c = false := by
  induction cs using lines.induct generalizing line with
  | case1 => simp [lines] at h
  | case2 rest ih =>
    rw [lines, List.mem_cons] at h
    rcases h with rfl | h
    · simp
    · exact ih h
  | case3 c rest hpair hend ih =>
    rw [lines, if_pos hend, List.mem_cons] at h
    · rcases h with rfl | h
      · simp
      · exact ih h
    · exact hpair
  | case4 c rest hpair hend ih =>
    rw [lines, if_neg hend] at h
    · have hc : isLineEnd c = false := by simpa using hend
      cases hlines : lines rest with
      | nil =>
        rw [hlines, consLine, List.mem_singleton] at h
        simp [h, hc]
      | cons first more =>
        rw [hlines] at ih h
        rcases List.mem_cons.1 h with rfl | h
        · exact List.forall_mem_cons.2 ⟨hc, ih List.mem_cons_self⟩
        · exact ih (List.mem_cons_of_mem _ h)
    · exact hpair

theorem mem_of_mem_trimEnd (h : c ∈ trimEnd cs) : c ∈ cs := by
  rw [trimEnd, List.mem_reverse] at h
  exact List.mem_reverse.1 ((List.dropWhile_sublist _).subset h)

theorem mem_of_mem_trim (h : c ∈ trim cs) : c ∈ cs :=
  (List.dropWhile_sublist _).subset (mem_of_mem_trimEnd h)

theorem trimEnd_concat (cs : List Char) (hc : isBlank c = false) :
    trimEnd (cs ++ [c]) = cs ++ [c] := by
  rw [trimEnd, List.reverse_append, List.reverse_singleton, List.singleton_append,
    List.dropWhile_cons_of_neg (by simp [hc]), List.reverse_cons, List.reverse_reverse]

theorem trim_between {first last : Char} (cs : List Char) (hfirst : isBlank first = false)
    (hlast : isBlank last = false) : trim (first :: cs ++ [last]) = first :: cs ++ [last] := by
  rw [trim, trimStart, List.cons_append, List.dropWhile_cons_of_neg (by simp [hfirst])]
  exact trimEnd_concat (first :: cs) hlast

theorem not_isLineEnd_digitChar (k : Nat) : isLineEnd (Nat.digitChar k) = false := by
  rcases Nat.lt_or_ge k 16 with h | h
  · have hall : ∀ k < 16, isLineEnd (Nat.digitChar k) = false := by decide
    exact hall k h
  · rw [Nat.digitChar_eq_star.2 h]; rfl

/-- The line ends that stand for themselves in a literal: next line, line separator, paragraph
separator. -/
def IsRawLineEnd (c : Char) : Prop :=
  c.toNat = 0x85 ∨ c.toNat = 0x2028 ∨ c.toNat = 0x2029

instance : DecidablePred IsRawLineEnd :=
  fun _ => inferInstanceAs (Decidable (_ ∨ _))

theorem isRawLineEnd_iff : IsRawLineEnd c ↔ isLineEnd c = true ∧ 0x20 ≤ c.toNat := by
  simp only [IsRawLineEnd, isLineEnd, Bool.or_eq_true, Bool.and_eq_true, decide_eq_true_eq,
    beq_iff_eq]
  omega

/-- An escape is made of marks, letters and digits, so the line ends of a literal are characters of
its text. -/
theorem isLineEnd_mem_escapeChar {d : Char} (h : c ∈ escapeChar d) (hc : isLineEnd c = true) :
    c = d ∧ IsRawLineEnd c := by
  rcases escapeChar_cases d with ⟨heq, -, -, hlow⟩ | ⟨⟨mark, digits, heq, hmark, hdigits⟩, -⟩
  · rw [heq, List.mem_singleton] at h
    subst h
    exact ⟨rfl, isRawLineEnd_iff.2 ⟨hc, hlow⟩⟩
  · have hmarks : ∀ e ∈ '\\' :: "\"\\nrtbfu".toList, isLineEnd e = false :=
      List.all_iff_forall_prop.1 (by decide)
    have hclear : isLineEnd c = false := by
      rw [heq, List.mem_cons, List.mem_cons] at h
      rcases h with rfl | rfl | h
      · exact hmarks _ List.mem_cons_self
      · exact hmarks _ (List.mem_cons_of_mem _ hmark)
      · obtain ⟨k, rfl⟩ := hdigits c h
        exact not_isLineEnd_digitChar k
    rw [hclear] at hc
    cases hc

theorem isLineEnd_mem_literalChars (hc : isLineEnd c = true) :
    c ∈ literalChars cs ↔ c ∈ cs ∧ IsRawLineEnd c := by
  have hquote : c ≠ '"' := by rintro rfl; cases hc
  simp only [literalChars, List.mem_append, List.mem_cons, List.mem_flatMap, hquote, false_or,
    List.not_mem_nil, or_false]
  constructor
  · rintro ⟨d, hd, h⟩
    obtain ⟨rfl, hraw⟩ := isLineEnd_mem_escapeChar h hc
    exact ⟨hd, hraw⟩
  · rintro ⟨h, hraw⟩
    refine ⟨c, h, ?_⟩
    rcases escapeChar_cases c with ⟨heq, -⟩ | ⟨-, hesc⟩
    · rw [heq]; exact List.mem_singleton_self c
    · have hlow := (isRawLineEnd_iff.1 hraw).2
      rcases hesc with hesc | hesc | hesc
      · exact absurd hesc hquote
      · rw [hesc] at hc; cases hc
      · omega

end Text

namespace Layout
open Text
variable {o : Options} {s : State} {ls : List (List Char)} {cs raw line : List Char} {c : Char}
  {aware : Bool}

theorem mem_indentLine (h : c ∈ (indentLine o s raw).1) : c ∈ o.unit ∨ c ∈ raw := by
  unfold indentLine at h
  dsimp only at h
  split_ifs at h
  · cases h
  · exact .inr (mem_of_mem_trimEnd h)
  · rcases List.mem_append.1 h with h | h
    · obtain ⟨unit, hunit, h⟩ := List.mem_flatten.1 h
      rw [(List.mem_replicate.1 hunit).2] at h
      exact .inl h
    · exact .inr (mem_of_mem_trim h)

theorem not_isLineEnd_of_mem_unit (h : c ∈ o.unit) : isLineEnd c = false := by
  unfold Options.unit at h
  split_ifs at h
  · rw [List.mem_singleton] at h; rw [h]; rfl
  · rw [(List.mem_replicate.1 h).2]; rfl

theorem indentLines_cons : indentLines o s (raw :: ls) =
    (indentLine o s raw).1 :: indentLines o (indentLine o s raw).2 ls := rfl

theorem not_isLineEnd_of_mem_indentLines (hls : ∀ raw ∈ ls, ∀ c ∈ raw, isLineEnd c = false)
    (h : line ∈ indentLines o s ls) : ∀ c ∈ line, isLineEnd c = false := by
  induction ls generalizing s with
  | nil => cases h
  | cons raw rest ih =>
    rw [List.forall_mem_cons] at hls
    rw [indentLines_cons, List.mem_cons] at h
    rcases h with rfl | h
    · intro c hc
      rcases mem_indentLine hc with hc | hc
      exacts [not_isLineEnd_of_mem_unit hc, hls.1 c hc]
    · exact ih hls.2 h

theorem mem_takeLine {taken : List (List Char)} {raw : List Char}
    (h : line ∈ takeLine aware taken raw) : line = [] ∨ line = trimEnd raw ∨ line ∈ taken := by
  unfold takeLine at h
  dsimp only at h
  by_cases hblank : (trimEnd raw).isEmpty = true
  · rw [if_pos hblank] at h
    cases taken with
    | nil => cases h
    | cons last earlier =>
      dsimp only at h
      split_ifs at h
      · exact .inr (.inr h)
      · exact (List.mem_cons.1 h).imp_right .inr
  · rw [if_neg hblank] at h
    rcases taken with _ | ⟨_ | ⟨c, more⟩, earlier⟩
    · exact .inr (List.mem_cons.1 h)
    · dsimp only at h
      split_ifs at h
      · exact .inr ((List.mem_cons.1 h).imp_right (List.mem_cons_of_mem _))
      · exact .inr (List.mem_cons.1 h)
    · exact .inr (List.mem_cons.1 h)

theorem mem_foldl_takeLine {taken : List (List Char)} (h : line ∈ ls.foldl (takeLine aware) taken)
    (hc : c ∈ line) : (∃ raw ∈ ls, c ∈ raw) ∨ ∃ earlier ∈ taken, c ∈ earlier := by
  induction ls generalizing taken with
  | nil => exact .inr ⟨line, h, hc⟩
  | cons raw rest ih =>
    rcases ih h with ⟨later, hlater, hc⟩ | ⟨earlier, hearlier, hc⟩
    · exact .inl ⟨later, List.mem_cons_of_mem _ hlater, hc⟩
    · rcases mem_takeLine hearlier with rfl | rfl | hearlier
      · cases hc
      · exact .inl ⟨raw, List.mem_cons_self, mem_of_mem_trimEnd hc⟩
      · exact .inr ⟨earlier, hearlier, hc⟩

theorem mem_finish (h : c ∈ finish aware ls) : c = '\n' ∨ ∃ line ∈ ls, c ∈ line := by
  rcases List.mem_append.1 h with h | h
  · rcases mem_joinWith h with h | ⟨line, hline, hc⟩
    · exact .inl (List.mem_singleton.1 h)
    · have hline := (List.dropWhile_sublist _).subset (List.mem_reverse.1 hline)
      rcases mem_foldl_takeLine hline hc with h | ⟨earlier, hearlier, -⟩
      · exact .inr h
      · cases hearlier
  · exact .inl (List.mem_singleton.1 h)

theorem eq_lineFeed_of_mem_formatChars {filename : String} (h : c ∈ formatChars o filename cs)
    (hc : isLineEnd c = true) : c = '\n' := by
  have hfinish {aware : Bool} {ls : List (List Char)} (hls : ∀ line ∈ ls, ∀ c ∈ line,
      isLineEnd c = false) (h : c ∈ finish aware ls) : c = '\n' := by
    rcases mem_finish h with h | ⟨line, hline, hin⟩
    · exact h
    · rw [hls line hline c hin] at hc; cases hc
  unfold formatChars at h
  split_ifs at h
  · exact hfinish (fun _ => not_isLineEnd_of_mem_lines) h
  · exact hfinish (fun _ => not_isLineEnd_of_mem_indentLines fun _ => not_isLineEnd_of_mem_lines) h
  · exact hfinish (fun _ => not_isLineEnd_of_mem_lines) h

theorem not_html_of_js {filename : String} (h : hasExtension filename ".js" = true) :
    hasExtension filename ".html" = false := by
  rw [hasExtension, List.isSuffixOf_iff_suffix] at h
  rw [hasExtension, ← Bool.not_eq_true, List.isSuffixOf_iff_suffix]
  intro hhtml
  rw [← List.reverse_prefix] at h hhtml
  rcases List.prefix_or_prefix_of_prefix h hhtml with h | h <;> revert h <;> decide

theorem formatChars_line {first last : Char} {filename : String}
    (hjs : hasExtension filename ".js" = true) (hfirst : isBlank first = false)
    (hlast : isBlank last = false) (h : ∀ c ∈ first :: cs ++ [last], isLineEnd c = false) :
    formatChars o filename (first :: cs ++ [last]) = first :: cs ++ [last] ++ ['\n'] := by
  have htrim := trim_between cs hfirst hlast
  have hend : trimEnd (first :: cs ++ [last]) = first :: cs ++ [last] :=
    trimEnd_concat (first :: cs) hlast
  have hindent : (indentLine o .start (first :: cs ++ [last])).1 = first :: cs ++ [last] := by
    have hclose (n : Nat) : closeMany n [] = [] := by
      induction n with
      | zero => rfl
      | succ n ih => exact ih
    unfold indentLine
    dsimp only
    rw [htrim, if_neg (by simp), if_neg (by decide)]
    simp [State.start, hclose]
  rw [formatChars, not_html_of_js hjs, if_neg Bool.false_ne_true, if_pos hjs,
    lines_of_not_isLineEnd (by simp) h,
    indentLines_cons, hindent, indentLines, finish, List.foldl_cons, List.foldl_nil, takeLine, hend]
  simp [joinWith]

/-- The statement that gives a property a text, as a line. -/
def textLine (s : String) : String :=
  "this.vars.x = " ++ Text.literal s ++ ";"

theorem toList_textLine (s : String) :
    (textLine s).toList = 't' :: ("his.vars.x = ".toList ++ literalChars s.toList) ++ [';'] := by
  simp [textLine, literal, String.toList_append]

theorem isLineEnd_mem_textLine {s : String} (hc : isLineEnd c = true) :
    c ∈ (textLine s).toList ↔ c ∈ s.toList ∧ IsRawLineEnd c := by
  have hfixed : ∀ d ∈ 't' :: "his.vars.x = ".toList ++ [';'], isLineEnd d = false :=
    List.all_iff_forall_prop.1 (by decide)
  have hclear : c ∉ 't' :: "his.vars.x = ".toList ++ [';'] := by
    intro hin
    rw [hfixed c hin] at hc
    cases hc
  rw [List.mem_append, List.mem_cons, not_or, not_or] at hclear
  rw [toList_textLine, List.mem_append, List.mem_cons, List.mem_append,
    isLineEnd_mem_literalChars hc]
  simp only [hclear, false_or, or_false]

/-- A line with a string literal is formatted to itself and a line feed, exactly if no character of
the text is a line end that stands for itself in a literal. -/
theorem format_textLine_iff (o : Options) (filename : String)
    (hjs : hasExtension filename ".js" = true) (s : String) :
    format o filename (textLine s) = textLine s ++ "\n" ↔ ∀ c ∈ s.toList, ¬ IsRawLineEnd c := by
  constructor
  · intro hkept c hc hraw
    obtain ⟨hend, hlow⟩ := isRawLineEnd_iff.1 hraw
    -- The character is in the line, hence in the formatted text, where it cannot be.
    have hformat : c ∈ formatChars o filename (textLine s).toList := by
      have hlist := congrArg String.toList hkept
      rw [format, String.toList_ofList, String.toList_append] at hlist
      rw [hlist]
      exact List.mem_append_left _ ((isLineEnd_mem_textLine hend).2 ⟨hc, hraw⟩)
    rw [eq_lineFeed_of_mem_formatChars hformat hend] at hlow
    revert hlow
    decide
  · intro hclear
    have hline : ∀ c ∈ (textLine s).toList, isLineEnd c = false := by
      intro c hc
      rw [← Bool.not_eq_true]
      intro hend
      obtain ⟨hin, hraw⟩ := (isLineEnd_mem_textLine hend).1 hc
      exact hclear c hin hraw
    rw [toList_textLine] at hline
    rw [format, toList_textLine,
      formatChars_line hjs (by decide) (by decide) hline, ← toList_textLine,
      String.ofList_append, String.ofList_toList]

/-- A text with quotes, a backslash, line ends that are controls, brackets and marks of comments. -/
theorem format_textLine_hostile : hasExtension "Cat.js" ".js" = true ∧
    (∀ c ∈ "\"\\\n\x1d\x7b /* // \x60".toList, ¬ IsRawLineEnd c) ∧
      format {} "Cat.js" (textLine "\"\\\n\x1d\x7b /* // \x60") =
        textLine "\"\\\n\x1d\x7b /* // \x60" ++ "\n" := by
  have hclear : ∀ c ∈ "\"\\\n\x1d\x7b /* // \x60".toList, ¬ IsRawLineEnd c :=
    List.all_iff_forall_prop.1 (by decide)
  exact ⟨by decide, hclear, (format_textLine_iff {} "Cat.js" (by decide) _).2 hclear⟩

/-- A line separator becomes a line feed, and the literal is open at the end of its line. -/
theorem format_textLine_separator : hasExtension "Cat.js" ".js" = true ∧
    format {} "Cat.js" (textLine "a\u2028b") = "this.vars.x = \"a\nb\";\n" ∧
      format {} "Cat.js" (textLine "a\u2028b") ≠ textLine "a\u2028b" ++ "\n" := by
  have hchars :
      formatChars {} "Cat.js" (textLine "a\u2028b").toList =
      "this.vars.x = \"a\nb\";\n".toList := by
    decide +kernel
  have hformat : format {} "Cat.js" (textLine "a\u2028b") = "this.vars.x = \"a\nb\";\n" := by
    rw [format, hchars, String.ofList_toList]
  refine ⟨by decide, hformat, fun hkept => ?_⟩
  have hlist := congrArg String.toList (hformat.symm.trans hkept)
  revert hlist
  decide +kernel

end Layout

end ScratchExport
