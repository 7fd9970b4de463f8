import ScratchExport.Proofs.TidyLines

/-!
# Formatting changes the layout only

`content` lists the lines of a file that are not blank, without the blanks around them. Each of the
ways in which lines are rewritten keeps it: indenting anew (`content_indentLines`), removing the
indentation that all lines of a page share (`content_lines_dedent`) and leaving out blank lines
(`solid_keptLines`). So a formatted file has the content that it had before, and what is left is
`Neat` (`format_keeps_content`).

Formatting a file again changes nothing, unless it is a page (`format_format`). The state between
lines depends on the content only, so an indented line is indented alike the second time
(`indentLine_indentLine`), and blank lines that have been left out do not matter
(`indentLines_eq_self`).
-/

namespace ScratchExport.Layout
open Text
variable {o : Options} {s : State} {ls : List (List Char)} {raw line cs : List Char}

/-- The lines that are not blank, without the blanks around them. -/
def content (ls : List (List Char)) : List (List Char) :=
  (ls.filter fun line => !(trim line).isEmpty).map trim

@[simp] theorem content_append (ls more : List (List Char)) :
    content (ls ++ more) = content ls ++ content more := by
  simp [content]

@[simp] theorem content_nil_cons (ls : List (List Char)) : content ([] :: ls) = content ls := rfl

theorem content_cons_congr {first second : List Char} {ls others : List (List Char)}
    (hline : trim first = trim second) (hrest : content ls = content others) :
    content (first :: ls) = content (second :: others) := by
  unfold content at hrest ⊢
  rw [List.filter_cons, List.filter_cons, hline]
  split
  · rw [List.map_cons, List.map_cons, hline, hrest]
  · exact hrest

theorem content_eq_map_solid (ls : List (List Char)) : content ls = (solid ls).map trim := by
  induction ls with
  | nil => rfl
  | cons line rest ih =>
    unfold content at ih ⊢
    by_cases hline : trimEnd line = []
    · rw [solid_cons_of_blank hline,
        List.filter_cons_of_neg (by simpa using trim_eq_nil_iff.2 hline), ih]
    · rw [solid_cons_of_ne hline, List.filter_cons_of_pos (by simpa [trim_eq_nil_iff] using hline),
        List.map_cons, List.map_cons, ih, trim_trimEnd]

/-! ### Indented lines -/

/-- The next line stands inside a block comment or a template string. -/
def State.isVerbatim (s : State) : Bool :=
  s.carry.inComment || s.carry.quote == some '\x60'

/-- What is put in front of a line. -/
def indentation (o : Options) (s : State) (line : List Char) : List Char :=
  (List.replicate (closeMany (leadingClosers line) s.stack).length o.unit).flatten

/-- The state behind a line inside a comment or a template string. -/
def State.behindVerbatim (s : State) (line : List Char) : State :=
  ⟨applyBrackets s.stack (scan s.carry line).2, (scan s.carry line).1⟩

/-- The state behind any other line. -/
def State.behindCode (s : State) (line : List Char) : State :=
  let found := scan s.carry (line.drop (leadingClosers line))
  ⟨applyBrackets (closeMany (leadingClosers line) s.stack) found.2, found.1⟩

theorem indentLine_of_blank (h : trim raw = []) : indentLine o s raw = ([], s) := by
  rw [indentLine, h]
  rfl

theorem indentLine_of_verbatim (hne : trim raw ≠ []) (h : s.isVerbatim = true) :
    indentLine o s raw = (trimEnd raw, s.behindVerbatim (trim raw)) := by
  unfold indentLine
  dsimp only
  rw [if_neg (by simpa using hne)]
  exact if_pos h

theorem indentLine_of_code (hne : trim raw ≠ []) (h : s.isVerbatim = false) :
    indentLine o s raw = (indentation o s (trim raw) ++ trim raw, s.behindCode (trim raw)) := by
  unfold indentLine
  dsimp only
  rw [if_neg (by simpa using hne)]
  exact if_neg (by simpa [State.isVerbatim] using h)

theorem isBlank_of_mem_indentation {c : Char} (h : c ∈ indentation o s line) :
    isBlank c = true := by
  obtain ⟨unit, hunit, hc⟩ := List.mem_flatten.1 h
  rw [(List.mem_replicate.1 hunit).2, Options.unit] at hc
  split_ifs at hc
  · rw [List.mem_singleton.1 hc]
    rfl
  · rw [(List.mem_replicate.1 hc).2]
    rfl

theorem trim_indentLine (o : Options) (s : State) (raw : List Char) :
    trim (indentLine o s raw).1 = trim raw := by
  by_cases hne : trim raw = []
  · rw [indentLine_of_blank hne, hne]
    rfl
  · cases h : s.isVerbatim with
    | true => rw [indentLine_of_verbatim hne h, trim_trimEnd]
    | false =>
      rw [indentLine_of_code hne h, trim_blanks_append fun _ => isBlank_of_mem_indentation,
        trim_trim]

theorem trimEnd_indentLine (o : Options) (s : State) (raw : List Char) :
    trimEnd (indentLine o s raw).1 = (indentLine o s raw).1 := by
  by_cases hne : trim raw = []
  · rw [indentLine_of_blank hne]
    rfl
  · cases h : s.isVerbatim with
    | true => rw [indentLine_of_verbatim hne h, trimEnd_trimEnd]
    | false => rw [indentLine_of_code hne h, trimEnd_append_trim _ hne]

/-- An indented line is indented alike the second time, and leaves the same state. -/
theorem indentLine_indentLine (o : Options) (s : State) (raw : List Char) :
    indentLine o s (indentLine o s raw).1 = indentLine o s raw := by
  have htrim := trim_indentLine o s raw
  by_cases hne : trim raw = []
  · rw [indentLine_of_blank (htrim.trans hne), indentLine_of_blank hne]
  · cases h : s.isVerbatim with
    | true =>
      have hend := trimEnd_indentLine o s raw
      rw [indentLine_of_verbatim (by rwa [htrim]) h, htrim, hend, indentLine_of_verbatim hne h]
    | false => rw [indentLine_of_code (by rwa [htrim]) h, htrim, indentLine_of_code hne h]

theorem content_indentLines (o : Options) (s : State) (ls : List (List Char)) :
    content (indentLines o s ls) = content ls := by
  induction ls generalizing s with
  | nil => rfl
  | cons raw rest ih => exact content_cons_congr (trim_indentLine o s raw) (ih _)

/-- The first solid line of indented lines is one of them, and what follows it is indented from the
state behind it. -/
theorem exists_of_solid_indentLines {more : List (List Char)}
    (h : solid (indentLines o s ls) = line :: more) :
    ∃ raw rest, (indentLine o s raw).1 = line ∧ solid (indentLines o (indentLine o s raw).2 rest) =
      more := by
  induction ls with
  | nil => cases h
  | cons raw rest ih =>
    rw [indentLines_cons] at h
    by_cases hne : trim raw = []
    · -- A blank line changes nothing.
      rw [indentLine_of_blank hne, solid_nil_cons] at h
      exact ih h
    · have hsolid : trimEnd (indentLine o s raw).1 ≠ [] := by
        rwa [ne_eq, ← trim_eq_nil_iff, trim_indentLine]
      rw [solid_cons_of_ne hsolid, trimEnd_indentLine] at h
      exact ⟨raw, rest, (List.cons.inj h).1, (List.cons.inj h).2⟩

/-- Lines whose solid ones have been indented before are indented as they should be. -/
theorem indentLines_eq_self {kept : List (List Char)} (htrim : ∀ line ∈ kept, trimEnd line = line)
    (h : solid kept = solid (indentLines o s ls)) : indentLines o s kept = kept := by
  induction kept generalizing s ls with
  | nil => rfl
  | cons line rest ih =>
    rw [List.forall_mem_cons] at htrim
    rw [indentLines_cons]
    by_cases hline : line = []
    · subst hline
      rw [solid_nil_cons] at h
      rw [indentLine_of_blank rfl, ih htrim.2 h]
    · rw [solid_cons_of_ne (by rwa [htrim.1]), htrim.1] at h
      obtain ⟨raw, others, hraw, hothers⟩ := exists_of_solid_indentLines h.symm
      have hsame := indentLine_indentLine o s raw
      rw [hraw] at hsame
      rw [hsame, hraw, ih htrim.2 hothers.symm]

/-! ### Pages -/

/-- The content of the pieces of a text between line ends. -/
def innerContent (cs : List Char) : List (List Char) :=
  content (splitWhere isLineEnd cs)

/-- Lines against the pieces of the same text. That the content is the same is not enough for a
character in front, which goes to the first line. -/
inductive Aligned : List (List Char) → List (List Char) → Prop
  | none {more : List (List Char)} (h : content more = []) : Aligned [] ([] :: more)
  | first (line : List Char) {others more : List (List Char)} (h : content others = content more) :
      Aligned (line :: others) (line :: more)

namespace Aligned
variable {pieces : List (List Char)}

theorem content_eq (h : Aligned ls pieces) : content ls = content pieces := by
  cases h with
  | none h => rw [content_nil_cons, h]; rfl
  | first line h => exact content_cons_congr rfl h

theorem consLine (c : Char) (h : Aligned ls pieces) :
    Aligned (consLine c ls) (consLine c pieces) := by
  cases h with
  | none h => exact .first [c] h.symm
  | first line h => exact .first (c :: line) h

end Aligned

theorem aligned_lines (cs : List Char) : Aligned (lines cs) (splitWhere isLineEnd cs) := by
  induction cs using lines.induct with
  | case1 => exact .none rfl
  | case2 rest ih =>
    -- The line end of two characters has an empty piece inside.
    rw [lines, splitWhere, if_pos (by decide), splitWhere, if_pos (by decide)]
    exact .first [] ih.content_eq
  | case3 c rest hpair hend ih =>
    rw [lines, if_pos hend, splitWhere, if_pos hend]
    · exact .first [] ih.content_eq
    · exact hpair
  | case4 c rest hpair hend ih =>
    rw [lines_cons (by simpa using hend), splitWhere, if_neg hend]
    exact ih.consLine c

/-- Lines are the pieces between line ends, less some empty ones. -/
theorem content_lines (cs : List Char) : content (lines cs) = innerContent cs :=
  (aligned_lines cs).content_eq

theorem innerContent_joinWith (ls : List (List Char)) :
    innerContent (joinWith ['\n'] ls) = ls.flatMap innerContent := by
  induction ls using joinWith.induct with
  | case1 => rfl
  | case2 line => simp [joinWith]
  | case3 line rest hrest ih =>
    rw [joinWith_cons _ _ hrest, List.append_assoc, List.singleton_append, List.flatMap_cons, ← ih]
    unfold innerContent
    rw [splitWhere_append (by decide), content_append]

theorem isBlank_of_isIndent {c : Char} (h : isIndent c = true) :
    isBlank c = true ∧ isLineEnd c = false := by
  rw [isIndent, Bool.or_eq_true, beq_iff_eq, beq_iff_eq] at h
  rcases h with rfl | rfl <;> decide

theorem innerContent_indent_append {lead : List Char} (h : ∀ c ∈ lead, isIndent c = true)
    (cs : List Char) : innerContent (lead ++ cs) = innerContent cs := by
  induction lead with
  | nil => rfl
  | cons c lead ih =>
    rw [List.forall_mem_cons] at h
    obtain ⟨hblank, hend⟩ := isBlank_of_isIndent h.1
    obtain ⟨first, more, hsplit⟩ :=
      List.exists_cons_of_ne_nil (splitWhere_ne_nil isLineEnd (lead ++ cs))
    rw [← ih h.2]
    unfold innerContent
    rw [List.cons_append, splitWhere, if_neg (by simp [hend]), hsplit]
    have hfront : ∀ d ∈ [c], isBlank d = true := by simpa using hblank
    exact content_cons_congr (trim_blanks_append hfront first) rfl

theorem innerContent_dropLead {lead : List Char} (h : ∀ c ∈ lead, isIndent c = true)
    (cs : List Char) : innerContent (dropLead lead cs) = innerContent cs := by
  unfold dropLead
  split_ifs with hlead
  · obtain ⟨rest, rfl⟩ := List.isPrefixOf_iff_prefix.1 hlead
    rw [List.drop_left, innerContent_indent_append h]
  · rfl

theorem mem_of_mem_commonPrefix {c : Char} {as bs : List Char} (h : c ∈ commonPrefix as bs) :
    c ∈ as := by
  induction as, bs using commonPrefix.induct with
  | case1 a as b bs hab ih =>
    rw [commonPrefix, if_pos hab] at h
    exact List.mem_cons.2 ((List.mem_cons.1 h).imp_right ih)
  | case2 a as b bs hab =>
    rw [commonPrefix, if_neg hab] at h
    cases h
  | case3 as bs hcons =>
    rw [commonPrefix] at h
    · cases h
    · exact hcons

theorem mem_of_mem_foldl_commonPrefix {c : Char} {first : List Char} {rest : List (List Char)}
    (h : c ∈ rest.foldl commonPrefix first) : c ∈ first := by
  induction rest generalizing first with
  | nil => exact h
  | cons next rest ih => exact mem_of_mem_commonPrefix (ih h)

theorem content_lines_dedent (cs : List Char) :
    content (lines (dedent cs)) = content (lines cs) := by
  -- A line of spaces and tabs has no content.
  have hclear (line : List Char) :
      innerContent (if line.all isIndent then [] else line) = innerContent line := by
    split_ifs with hindent
    · have hnone := innerContent_indent_append (List.all_eq_true.1 hindent) []
      rw [List.append_nil] at hnone
      exact hnone.symm
    · rfl
  rw [content_lines, content_lines]
  conv_rhs => rw [← joinWith_splitWhere '\n' cs, innerContent_joinWith]
  unfold dedent
  dsimp only
  split
  · rw [innerContent_joinWith, List.flatMap_map]
    simp only [hclear]
  · rename_i first rest hindents
    have hlead : ∀ c ∈ rest.foldl commonPrefix first, isIndent c = true := by
      intro c hc
      have hfirst : c ∈ first := mem_of_mem_foldl_commonPrefix hc
      obtain ⟨line, -, heq⟩ := List.mem_map.1 (hindents ▸ List.mem_cons_self : first ∈ _)
      rw [← heq] at hfirst
      exact List.mem_takeWhile_imp hfirst
    rw [innerContent_joinWith, List.flatMap_map, List.flatMap_map]
    simp only [innerContent_dropLead hlead, hclear]

/-! ### Files -/

/-- Blank lines next to brackets are superfluous in this file. -/
def isBracketAware (filename : String) : Bool :=
  !hasExtension filename ".html" && hasExtension filename ".js"

/-- The lines of a file before superfluous blank lines are left out. -/
def draftLines (o : Options) (filename : String) (cs : List Char) : List (List Char) :=
  if hasExtension filename ".html" then lines (dedent cs)
  else if hasExtension filename ".js" then indentLines o .start (lines cs)
  else lines cs

theorem formatChars_eq (o : Options) (filename : String) (cs : List Char) :
    formatChars o filename cs = finish (isBracketAware filename) (draftLines o filename cs) := by
  unfold formatChars draftLines isBracketAware
  cases hasExtension filename ".html" with
  | true => rfl
  | false => cases hasExtension filename ".js" <;> rfl

theorem not_isLineEnd_of_mem_draftLines {filename : String} (h : line ∈ draftLines o filename cs) :
    ∀ c ∈ line, isLineEnd c = false := by
  unfold draftLines at h
  split_ifs at h
  · exact not_isLineEnd_of_mem_lines h
  · exact not_isLineEnd_of_mem_indentLines (fun _ => not_isLineEnd_of_mem_lines) h
  · exact not_isLineEnd_of_mem_lines h

theorem content_draftLines (o : Options) (filename : String) (cs : List Char) :
    content (draftLines o filename cs) = content (lines cs) := by
  unfold draftLines
  split_ifs
  · exact content_lines_dedent cs
  · exact content_indentLines o .start (lines cs)
  · rfl

/-- The lines of a formatted file. -/
def formattedLines (o : Options) (filename : String) (cs : List Char) : List (List Char) :=
  keptLines (isBracketAware filename) (draftLines o filename cs)

theorem content_formattedLines (o : Options) (filename : String) (cs : List Char) :
    content (formattedLines o filename cs) = content (lines cs) := by
  rw [formattedLines, content_eq_map_solid, solid_keptLines, ← content_eq_map_solid,
    content_draftLines]

theorem lines_formatChars {filename : String} (hne : formattedLines o filename cs ≠ []) :
    lines (formatChars o filename cs) = formattedLines o filename cs := by
  rw [formatChars_eq]
  exact lines_finish (fun _ => not_isLineEnd_of_mem_draftLines) hne

theorem content_lines_formatChars (o : Options) (filename : String) (cs : List Char) :
    content (lines (formatChars o filename cs)) = content (lines cs) := by
  have hcontent := content_formattedLines o filename cs
  by_cases hne : formattedLines o filename cs = []
  · rw [formatChars_eq, finish_of_keptLines_nil hne, ← hcontent, hne]
    rfl
  · rw [lines_formatChars hne, hcontent]

/-- A file starts and ends with a line that is not blank, has no two blank lines in a row, no blanks
at the end of a line and one line feed at its end. -/
structure Neat (cs : List Char) : Prop where
  starts : ∃ line ∈ (lines cs).head?, trim line ≠ []
  ends : ∃ line ∈ (lines cs).getLast?, trim line ≠ []
  spaced : (lines cs).IsChain fun earlier later => ¬ (trim earlier = [] ∧ trim later = [])
  trimmed : ∀ line ∈ lines cs, trimEnd line = line
  closed : ∃ front c, cs = front ++ [c, '\n'] ∧ isLineEnd c = false

theorem trim_ne_nil_of_trimmed (htrim : trimEnd line = line) (hne : line ≠ []) :
    trim line ≠ [] := by
  rwa [ne_eq, trim_eq_nil_iff, htrim]

theorem exists_joinWith_concat (sep : List Char) {ls : List (List Char)} {last : List Char}
    (h : ls.getLast? = some last) : ∃ front, joinWith sep ls = front ++ last := by
  induction ls using joinWith.induct with
  | case1 => cases h
  | case2 line =>
    cases h
    exact ⟨[], rfl⟩
  | case3 line rest hrest ih =>
    rw [List.getLast?_cons_of_ne_nil hrest] at h
    obtain ⟨front, hfront⟩ := ih h
    exact ⟨line ++ sep ++ front, by rw [joinWith_cons _ _ hrest, hfront, List.append_assoc _ front]⟩

theorem Tidy.neat {aware : Bool} (h : Tidy aware ls) (hne : ls ≠ [])
    (hclear : ∀ line ∈ ls, ∀ c ∈ line, isLineEnd c = false) :
    Neat (joinWith ['\n'] ls ++ ['\n']) := by
  have hlines := lines_joinWith hne hclear
  have hsolid {line : List Char} (hline : line ∈ ls) (hnil : line ≠ []) : trim line ≠ [] :=
    trim_ne_nil_of_trimmed (h.trimmed line hline) hnil
  obtain ⟨first, hfirst⟩ := Option.ne_none_iff_exists'.1 (mt List.head?_eq_none_iff.1 hne)
  obtain ⟨last, hlast⟩ := Option.ne_none_iff_exists'.1 (mt List.getLast?_eq_none_iff.1 hne)
  have hlastne : last ≠ [] := fun hnil => h.ends (by rw [hlast, hnil])
  have hlastmem : last ∈ ls := List.mem_of_getLast? hlast
  refine ⟨?_, ?_, ?_, ?_, ?_⟩
  · rw [hlines]
    exact ⟨first, hfirst, hsolid (List.mem_of_mem_head? hfirst) fun hnil =>
      h.starts (by rw [hfirst, hnil])⟩
  · rw [hlines]
    exact ⟨last, hlast, hsolid hlastmem hlastne⟩
  · rw [hlines]
    refine h.fits.imp_of_mem_imp fun earlier later hearlier hlater hfits => ?_
    rintro ⟨hblank, hblank'⟩
    have hnil : later = [] := by
      by_contra hne
      exact hsolid hlater hne hblank'
    exact hsolid hearlier (hfits.blank hnil) hblank
  · rw [hlines]
    exact h.trimmed
  · obtain ⟨front, hfront⟩ := exists_joinWith_concat ['\n'] hlast
    refine ⟨front ++ last.dropLast, last.getLast hlastne, ?_,
      hclear last hlastmem _ (List.getLast_mem hlastne)⟩
    conv_lhs => rw [hfront, ← List.dropLast_append_getLast hlastne]
    simp

/-- Formatting keeps the lines that are not blank, in order and up to the blanks around them, and a
file that has such a line becomes neat. -/
theorem format_keeps_content (o : Options) (filename text : String) :
    content (lines (format o filename text).toList) = content (lines text.toList) ∧
      ((∃ line ∈ lines text.toList, trim line ≠ []) → Neat (format o filename text).toList) := by
  rw [format, String.toList_ofList]
  refine ⟨content_lines_formatChars o filename text.toList, ?_⟩
  rintro ⟨line, hline, hsolid⟩
  have hkept : formattedLines o filename text.toList ≠ [] := by
    intro hnil
    have hcontent := content_formattedLines o filename text.toList
    have hmem : trim line ∈ content (lines text.toList) :=
      List.mem_map.2 ⟨line, List.mem_filter.2 ⟨hline, by simpa using hsolid⟩, rfl⟩
    rw [← hcontent, hnil] at hmem
    cases hmem
  rw [formatChars_eq, finish_eq]
  exact (tidy_keptLines _ _).neat hkept fun _ =>
    not_isLineEnd_of_mem_keptLines fun _ => not_isLineEnd_of_mem_draftLines

/-- A script with blank lines next to brackets, a comment and a template string over several lines,
and line ends of different kinds. -/
def scrappySource : String :=
  "\n\nclass Cat \x7b\r\n\n\n/* a (\n\n     note */ go() \x7b\x0b\t\tsay(\x60one  \n\n  two\x60)\n\n\x7d  \n\x7d\n \n"

theorem scrappySource_neat : (∃ line ∈ lines scrappySource.toList, trim line ≠ []) ∧
    content (lines (format {} "Cat.js" scrappySource).toList) =
      content (lines scrappySource.toList) ∧
    Neat (format {} "Cat.js" scrappySource).toList := by
  have hsolid : ∃ line ∈ lines scrappySource.toList, trim line ≠ [] :=
    ⟨"  two\x60)".toList, by decide +kernel, by decide +kernel⟩
  obtain ⟨hcontent, hneat⟩ := format_keeps_content {} "Cat.js" scrappySource
  exact ⟨hsolid, hcontent, hneat hsolid⟩

/-! ### Formatting again -/

theorem draftLines_eq_self {filename : String} {ds : List Char} (cs : List Char)
    (hpage : hasExtension filename ".html" = false) (htrim : ∀ line ∈ lines ds, trimEnd line = line)
    (h : solid (lines ds) = solid (draftLines o filename cs)) :
    draftLines o filename ds = lines ds := by
  unfold draftLines at h ⊢
  rw [hpage, if_neg Bool.false_ne_true] at h ⊢
  split_ifs with hscript
  · rw [if_pos hscript] at h
    exact indentLines_eq_self htrim h
  · rfl

theorem formattedLines_formatChars {filename : String}
    (hpage : hasExtension filename ".html" = false) (cs : List Char) :
    formattedLines o filename (formatChars o filename cs) = formattedLines o filename cs := by
  have hsolid : solid (formattedLines o filename cs) = solid (draftLines o filename cs) :=
    solid_keptLines _ _
  by_cases hne : formattedLines o filename cs = []
  · have hchars : formatChars o filename cs = ['\n'] := by
      rw [formatChars_eq, finish_of_keptLines_nil hne]
    have hlines : lines ['\n'] = [[]] := rfl
    have hdraft : draftLines o filename ['\n'] = lines ['\n'] := by
      refine draftLines_eq_self cs hpage (by simp [hlines, trimEnd]) ?_
      rw [← hsolid, hne]
      rfl
    rw [hne, hchars, formattedLines, hdraft]
    rfl
  · have htidy : Tidy (isBracketAware filename) (formattedLines o filename cs) := tidy_keptLines _ _
    have hlines := lines_formatChars hne
    have hdraft :
        draftLines o filename (formatChars o filename cs) = lines (formatChars o filename cs) :=
      draftLines_eq_self cs hpage (by rw [hlines]; exact htidy.trimmed) (by rw [hlines, hsolid])
    rw [formattedLines, hdraft, hlines, keptLines_of_tidy htidy]

/-- A file that is not a page is formatted once and for all. -/
theorem format_format (o : Options) (filename : String)
    (hpage : hasExtension filename ".html" = false) (text : String) :
    format o filename (format o filename text) = format o filename text := by
  have hjoin (cs : List Char) :
      formatChars o filename cs = joinWith ['\n'] (formattedLines o filename cs) ++ ['\n'] := by
    rw [formatChars_eq, finish_eq]
    rfl
  rw [format, format, String.toList_ofList, hjoin (formatChars o filename text.toList),
    formattedLines_formatChars hpage, ← hjoin]

theorem scrappySource_formatted_once : hasExtension "Cat.js" ".html" = false ∧
    format ⟨4, false⟩ "Cat.js" (format ⟨4, false⟩ "Cat.js" scrappySource) = format
      ⟨4, false⟩ "Cat.js" scrappySource :=
  ⟨by decide, format_format ⟨4, false⟩ "Cat.js" (by decide) scrappySource⟩

/-- A page whose first line is blank up to a carriage return is indented less and less. -/
example : formatChars {} "index.html" "\r a".toList = " a\n".toList ∧
    formatChars {} "index.html" " a\n".toList = "a\n".toList := by
  decide +kernel

end ScratchExport.Layout
