import Mathlib.Data.List.Infix
import ScratchExport.Proofs.FormattedLines

/-!
# Indentation follows the brackets

A bracket that is open belongs to the line that opened it, so the open brackets of a text are a
stack of line numbers: an opening bracket puts its line on top, a closing one takes the top away
(`trackChar`). The `level` of a line is the number of earlier lines that are left in the stack
behind the closing brackets at its own front.

The formatter keeps one count per line in place of the stack. `Tallies` says that the counts are the
lengths of the runs of equal line numbers; each step of the formatter keeps this
(`Tallies.closeMany`, `Tallies.applyBrackets`), so a line is indented by the number of runs, which
is its level (`solid_indentLines`).

Blanks between the closing brackets at the front of a line break this. They are skipped when the
brackets are counted but not when the counted ones are dropped, and the brackets at the end of the
front are matched a second time. `rescanned` is the line as it is matched in this way; without such
blanks it comes to the line itself.
-/

namespace ScratchExport

namespace Text
variable {cs line : List Char}

theorem lines_isInfix (cs : List Char) :
    (∀ line ∈ (lines cs).head?, line <+: cs) ∧ ∀ line ∈ lines cs, line <:+: cs := by
  have hend (ends : List Char) {cs : List Char} (h : ∀ line ∈ lines cs, line <:+: cs) :
      ∀ line ∈ [] :: lines cs, line <:+: ends ++ cs :=
    List.forall_mem_cons.2 ⟨List.nil_infix, fun line hline =>
      (h line hline).trans (List.suffix_append ends cs).isInfix⟩
  induction cs using lines.induct with
  | case1 => simp [lines]
  | case2 rest ih =>
    rw [lines]
    exact ⟨by simp, hend ['\r', '\n'] ih.2⟩
  | case3 c rest hpair hc ih =>
    rw [lines, if_pos hc]
    · exact ⟨by simp, hend [c] ih.2⟩
    · exact hpair
  | case4 c rest hpair hc ih =>
    rw [lines_cons (by simpa using hc)]
    cases hlines : lines rest with
    | nil => simp [consLine, List.IsPrefix.isInfix]
    | cons first others =>
      rw [hlines] at ih
      have hfirst : c :: first <+: c :: rest := List.cons_prefix_cons.2 ⟨rfl, ih.1 first rfl⟩
      refine ⟨by simpa [consLine] using hfirst,
        List.forall_mem_cons.2 ⟨hfirst.isInfix, fun line hline => ?_⟩⟩
      exact (ih.2 line (List.mem_cons_of_mem _ hline)).trans (List.suffix_cons c rest).isInfix

theorem trim_isInfix (cs : List Char) : trim cs <:+: cs :=
  (List.rdropWhile_prefix isBlank (trimStart cs)).isInfix.trans
    (List.dropWhile_suffix isBlank).isInfix

end Text

namespace Layout
open Text
variable {o : Options} {s : State} {i : Nat} {unclosed : List Nat} {stack : OpenLines}
  {cs line : List Char}

/-! ### Open brackets and their lines -/

/-- The lines of the open brackets, the latest first, behind one more character of a line. A closing
bracket closes the latest, and is ignored if there is none. -/
def trackChar (i : Nat) (unclosed : List Nat) (c : Char) : List Nat :=
  if isOpener c then i :: unclosed else if isCloser c then unclosed.tail else unclosed

/-- The lines of the open brackets behind more characters of a line. -/
def track (i : Nat) (unclosed : List Nat) (cs : List Char) : List Nat :=
  cs.foldl (trackChar i) unclosed

/-- The lines of the brackets that are open behind some lines, where `view` is what counts of a
line. -/
def unclosedLines (view : List Char → List Char) (ls : List (List Char)) : List Nat :=
  ls.zipIdx.foldl (fun unclosed entry => track entry.2 unclosed (view entry.1)) []

/-- The closing brackets at the front of a line, with the spaces and tabs between them. -/
def closingFront (line : List Char) : List Char :=
  line.takeWhile fun c => isCloser c || isIndent c

/-- How many of the earlier lines have an open bracket behind the closing brackets at the front of a
line. -/
def level (view : List Char → List Char) (earlier : List (List Char)) (line : List Char) : Nat :=
  (List.range earlier.length).countP fun j =>
    (track earlier.length (unclosedLines view earlier) (closingFront line)).contains j

/-- A line as its brackets are matched: those at its front, and then all but as many characters as
those are brackets. -/
def rescanned (line : List Char) : List Char :=
  closingFront line ++ line.drop ((closingFront line).countP isCloser)

/-- No blank stands between the closing brackets at the front of a line. -/
def Gapless (line : List Char) : Prop :=
  ∀ c ∈ (closingFront line).dropWhile isCloser, isCloser c = false

/-- A text without quotes and comments. -/
structure QuoteFree (cs : List Char) : Prop where
  quote : ∀ c ∈ cs, isQuote c = false
  lineComment : ¬ ['/', '/'] <:+: cs
  blockComment : ¬ ['/', '*'] <:+: cs

example :
    level id ["(".toList, "[a, (".toList] ") ] ) +".toList = 0 ∧
    level id ["(".toList, "[a, (".toList] "])".toList = 1 := by
  decide +kernel

theorem isCloser_of_isOpener {c : Char} (h : isOpener c = true) : isCloser c = false := by
  simp only [isOpener, Bool.or_eq_true, beq_iff_eq] at h
  rcases h with (rfl | rfl) | rfl <;> decide

theorem track_append (i : Nat) (unclosed : List Nat) (cs ds : List Char) :
    track i unclosed (cs ++ ds) = track i (track i unclosed cs) ds :=
  List.foldl_append

theorem track_of_not_isOpener (i : Nat) (unclosed : List Nat) (h : ∀ c ∈ cs, isOpener c = false) :
    track i unclosed cs = unclosed.drop (cs.countP isCloser) := by
  induction cs generalizing unclosed with
  | nil => rfl
  | cons c rest ih =>
    rw [List.forall_mem_cons] at h
    show track i (trackChar i unclosed c) rest = _
    rw [ih _ h.2, trackChar, h.1, List.countP_cons]
    cases isCloser c <;> simp [List.drop_tail]

theorem not_isOpener_of_mem_closingFront {c : Char} (h : c ∈ closingFront line) :
    isOpener c = false := by
  have hc := List.mem_takeWhile_imp h
  by_contra hopener
  rw [Bool.not_eq_false] at hopener
  rw [isCloser_of_isOpener hopener, Bool.false_or, isIndent, Bool.or_eq_true, beq_iff_eq,
    beq_iff_eq] at hc
  rcases hc with rfl | rfl <;> cases hopener

theorem leadingClosers_eq (line : List Char) :
    leadingClosers line = (closingFront line).countP isCloser := by
  unfold closingFront
  induction line with
  | nil => rfl
  | cons c rest ih =>
    rw [leadingClosers, ih]
    cases hcloser : isCloser c with
    | true => simp [hcloser]
    | false =>
      have hindent : isIndent c = (c == ' ' || c == '\t') := rfl
      cases hblank : isIndent c with
      | true => simp [hcloser, hblank, ← hindent]
      | false => simp [hcloser, hblank, ← hindent]

theorem track_closingFront (i : Nat) (unclosed : List Nat) (line : List Char) :
    track i unclosed (closingFront line) = unclosed.drop (leadingClosers line) := by
  rw [leadingClosers_eq]
  exact track_of_not_isOpener i unclosed fun _ => not_isOpener_of_mem_closingFront

theorem unclosedLines_concat (view : List Char → List Char) (ls : List (List Char))
    (line : List Char) :
    unclosedLines view (ls ++ [line]) = track ls.length (unclosedLines view ls) (view line) := by
  simp [unclosedLines, List.zipIdx_append]

/-! ### Lines without gaps -/

theorem Gapless.exists_append (h : Gapless line) :
    ∃ closers blanks behind, closingFront line = closers ++ blanks ∧
    line = closers ++ blanks ++ behind ∧ (∀ c ∈ closers, isCloser c = true) ∧
    ∀ c ∈ blanks, isCloser c = false ∧ isOpener c = false := by
  have hfront : closingFront line = (closingFront line).takeWhile isCloser ++
      (closingFront line).dropWhile isCloser :=
    List.takeWhile_append_dropWhile.symm
  refine ⟨_, _, line.dropWhile fun c => isCloser c || isIndent c, hfront, ?_,
    fun c hc => List.mem_takeWhile_imp hc,
    fun c hc => ⟨h c hc, not_isOpener_of_mem_closingFront ((List.dropWhile_sublist _).subset hc)⟩⟩
  rw [← hfront]
  exact List.takeWhile_append_dropWhile.symm

/-- Without blanks between the closing brackets at its front, a line is matched once. -/
theorem track_rescanned (i : Nat) (unclosed : List Nat) (h : Gapless line) :
    track i unclosed (rescanned line) = track i unclosed line := by
  obtain ⟨closers, blanks, behind, hfront, hline, hclosers, hblanks⟩ := h.exists_append
  have hcount : (closingFront line).countP isCloser = closers.length := by
    rw [hfront, List.countP_append, List.countP_eq_length.2 hclosers,
      List.countP_eq_zero.2 fun c hc => by simp [(hblanks c hc).1]]
    rfl
  have hskip (unclosed : List Nat) : track i unclosed blanks = unclosed := by
    rw [track_of_not_isOpener i unclosed fun c hc => (hblanks c hc).2,
      List.countP_eq_zero.2 fun c hc => by simp [(hblanks c hc).1], List.drop_zero]
  have hdrop : line.drop closers.length = blanks ++ behind := by
    rw [hline, List.append_assoc]
    exact List.drop_left
  rw [rescanned, hcount, hdrop, hfront, hline]
  simp only [track_append, hskip]

theorem unclosedLines_rescanned {ls : List (List Char)} (h : ∀ line ∈ ls, Gapless line) :
    unclosedLines rescanned ls = unclosedLines id ls := by
  induction ls using List.reverseRecOn with
  | nil => rfl
  | append_singleton ls line ih =>
    rw [List.forall_mem_append, List.forall_mem_singleton] at h
    rw [unclosedLines_concat, unclosedLines_concat, ih h.1, track_rescanned _ _ h.2]
    rfl

/-! ### One count per line -/

/-- The counts of the formatter are the numbers of open brackets of each line, the latest line
first. -/
inductive Tallies : OpenLines → List Nat → Prop
  | nil : Tallies [] []
  | cons {n i : Nat} {stack : OpenLines} {unclosed : List Nat} (hn : 0 < n)
      (hi : ∀ j ∈ unclosed, j < i)
      (h : Tallies stack unclosed) : Tallies (n :: stack) (List.replicate n i ++ unclosed)

namespace Tallies

theorem closeOne (h : Tallies stack unclosed) : Tallies (closeOne stack) unclosed.tail := by
  cases h with
  | nil => exact .nil
  | @cons n i stack unclosed hn hi h =>
    obtain ⟨n, rfl⟩ := Nat.exists_eq_succ_of_ne_zero hn.ne'
    rw [Layout.closeOne]
    split_ifs with hlast
    · rw [Nat.le_zero.1 (Nat.le_of_succ_le_succ hlast)]
      exact h
    · exact .cons (by omega) hi h

theorem closeMany (k : Nat) (h : Tallies stack unclosed) :
    Tallies (closeMany k stack) (unclosed.drop k) := by
  induction k generalizing stack unclosed with
  | zero => exact h
  | succ k ih =>
    rw [Layout.closeMany, Nat.add_comm, ← List.drop_drop, List.drop_one]
    exact ih h.closeOne

theorem applyBrackets (h : Tallies stack unclosed) (hi : ∀ j ∈ unclosed, j < i) (b : Brackets) :
    Tallies (applyBrackets stack b) (List.replicate b.opened i ++ unclosed.drop b.closed) := by
  have hclosed := h.closeMany b.closed
  unfold Layout.applyBrackets
  dsimp only
  split_ifs with hopened
  · rw [beq_iff_eq] at hopened
    rw [hopened]
    exact hclosed
  · exact .cons (Nat.pos_of_ne_zero (by simpa using hopened)) (fun j hj =>
      hi j (List.mem_of_mem_drop hj)) hclosed

theorem length_eq {n : Nat} (h : Tallies stack unclosed) (hn : ∀ j ∈ unclosed, j < n) :
    stack.length = (List.range n).countP fun j => unclosed.contains j := by
  induction h generalizing n with
  | nil => simp
  | @cons k i stack unclosed hk hi h ih =>
    obtain ⟨m, rfl⟩ := Nat.exists_eq_add_of_lt (hn i (by simp [hk.ne']))
    have hbelow : (List.range i).countP (fun j => (List.replicate k i ++ unclosed).contains j) =
        stack.length := by
      rw [ih hi]
      refine List.countP_congr fun j hj => ?_
      have hne : j ≠ i := (List.mem_range.1 hj).ne
      simp [hne]
    have hself : (List.replicate k i ++ unclosed).contains i = true := by simp [hk.ne']
    have habove :
        ((List.range m).map (i + 1 + ·)).countP (fun j =>
        (List.replicate k i ++ unclosed).contains j) = 0 := by
      refine List.countP_eq_zero.2 fun j hj hmem => ?_
      obtain ⟨d, -, rfl⟩ := List.mem_map.1 hj
      rcases List.mem_append.1 (List.contains_iff_mem.1 hmem) with hmem | hmem
      · have := (List.mem_replicate.1 hmem).2
        omega
      · have := hi _ hmem
        omega
    rw [Nat.add_right_comm, List.range_add, List.range_succ, List.countP_append, List.countP_append,
      hbelow, habove, List.countP_singleton, if_pos hself]
    rfl

end Tallies

/-! ### Lines of code -/

theorem QuoteFree.of_isInfix {ds : List Char} (h : QuoteFree cs) (hds : ds <:+: cs) :
    QuoteFree ds where
  quote c hc := h.quote c (hds.subset hc)
  lineComment hcomment := h.lineComment (hcomment.trans hds)
  blockComment hcomment := h.blockComment (hcomment.trans hds)

theorem scanFrom_cons_of_quoteFree {c : Char} {rest : List Char} (h : QuoteFree (c :: rest))
    (b : Brackets) :
    scanFrom .clean b (c :: rest) =
      if isOpener c then scanFrom .clean { b with opened := b.opened + 1 } rest
      else if isCloser c then scanFrom .clean b.close rest else scanFrom .clean b rest := by
  have hquote : isQuote c = false := h.quote c List.mem_cons_self
  have hslash : ∀ more, ¬ (c = '/' ∧ rest = '/' :: more) := by
    rintro more ⟨rfl, rfl⟩
    exact h.lineComment ⟨[], more, rfl⟩
  have hstar : ∀ more, ¬ (c = '/' ∧ rest = '*' :: more) := by
    rintro more ⟨rfl, rfl⟩
    exact h.blockComment ⟨[], more, rfl⟩
  rw [scanFrom.eq_def]
  dsimp only [Carry.clean]
  rw [if_neg Bool.false_ne_true]
  split
  · exact absurd ⟨rfl, rfl⟩ (hslash _)
  · exact absurd ⟨rfl, rfl⟩ (hstar _)
  · rw [hquote, if_neg Bool.false_ne_true]

/-- A bracket of the same line is closed before one of an earlier line. -/
theorem unclosed_close (b : Brackets) (i : Nat) (unclosed : List Nat) :
    List.replicate b.close.opened i ++ unclosed.drop b.close.closed =
      (List.replicate b.opened i ++ unclosed.drop b.closed).tail := by
  rw [Brackets.close]
  cases hopened : b.opened with
  | zero => simp
  | succ n => simp [List.replicate_succ]

/-- Outside quotes and comments a scan counts the brackets that a line closes and those that it
leaves open. -/
theorem scanFrom_of_quoteFree (h : QuoteFree cs) (b : Brackets) :
    ∃ b', scanFrom .clean b cs = (.clean, b') ∧
    ∀ (i : Nat) (unclosed : List Nat), List.replicate b'.opened i ++ unclosed.drop b'.closed =
      track i (List.replicate b.opened i ++ unclosed.drop b.closed) cs := by
  induction cs generalizing b with
  | nil => exact ⟨b, rfl, fun _ _ => rfl⟩
  | cons c rest ih =>
    have hrest : QuoteFree rest := h.of_isInfix (List.suffix_cons c rest).isInfix
    have htrackChar (i : Nat) (unclosed : List Nat) :
        track i unclosed (c :: rest) = track i (trackChar i unclosed c) rest :=
      rfl
    rw [scanFrom_cons_of_quoteFree h]
    simp only [htrackChar]
    cases hopener : isOpener c with
    | true =>
      obtain ⟨b', hb', htrack⟩ := ih hrest { b with opened := b.opened + 1 }
      refine ⟨b', hb', fun i unclosed => ?_⟩
      rw [htrack, trackChar, if_pos hopener]
      rfl
    | false =>
      cases hcloser : isCloser c with
      | true =>
        obtain ⟨b', hb', htrack⟩ := ih hrest b.close
        refine ⟨b', hb', fun i unclosed => ?_⟩
        rw [htrack, unclosed_close, trackChar, hopener, if_neg Bool.false_ne_true, if_pos hcloser]
      | false =>
        obtain ⟨b', hb', htrack⟩ := ih hrest b
        refine ⟨b', hb', fun i unclosed => ?_⟩
        rw [htrack, trackChar, hopener, hcloser]
        rfl

/-- What the formatter knows behind some lines of code. -/
structure State.Follows (s : State) (ls : List (List Char)) : Prop where
  carry : s.carry = .clean
  tallies : Tallies s.stack (unclosedLines rescanned ls)
  lines : ∀ j ∈ unclosedLines rescanned ls, j < ls.length

theorem State.Follows.start : State.start.Follows [] :=
  ⟨rfl, .nil, List.forall_mem_nil _⟩

theorem State.Follows.indentation_eq {earlier : List (List Char)} (h : s.Follows earlier)
    (line : List Char) :
    indentation o s line = (List.replicate (level rescanned earlier line) o.unit).flatten := by
  rw [indentation, level, track_closingFront,
    (h.tallies.closeMany (leadingClosers line)).length_eq fun j hj =>
      h.lines j (List.mem_of_mem_drop hj)]

theorem State.Follows.behindCode {earlier : List (List Char)} (h : s.Follows earlier)
    (hline : QuoteFree line) : (s.behindCode line).Follows (earlier ++ [line]) := by
  obtain ⟨b, hb, htrack⟩ :=
    scanFrom_of_quoteFree (hline.of_isInfix (line.drop_suffix (leadingClosers line)).isInfix) ⟨0, 0⟩
  have hscan : scan s.carry (line.drop (leadingClosers line)) = (.clean, b) := by
    rw [scan, h.carry, hb]
    rfl
  have hfront : ∀ j ∈ (unclosedLines rescanned earlier).drop (leadingClosers line),
      j < earlier.length :=
    fun j hj => h.lines j (List.mem_of_mem_drop hj)
  have hunclosed :
      unclosedLines rescanned (earlier ++ [line]) = List.replicate b.opened earlier.length ++
      ((unclosedLines rescanned earlier).drop (leadingClosers line)).drop b.closed := by
    rw [unclosedLines_concat, rescanned, track_append, track_closingFront, ← leadingClosers_eq,
      htrack]
    rfl
  unfold State.behindCode
  rw [hscan]
  refine ⟨rfl, ?_, ?_⟩
  · rw [hunclosed]
    exact (h.tallies.closeMany _).applyBrackets hfront b
  · rw [hunclosed, List.length_append]
    intro j hj
    rcases List.mem_append.1 hj with hj | hj
    · rw [(List.mem_replicate.1 hj).2]
      exact Nat.lt_succ_self _
    · exact (hfront j (List.mem_of_mem_drop hj)).trans (Nat.lt_succ_self _)

/-- A line with a number of levels in front of it. -/
def indented (o : Options) (n : Nat) (line : List Char) : List Char :=
  (List.replicate n o.unit).flatten ++ line

theorem solid_indentLines {earlier ls : List (List Char)} (h : s.Follows earlier)
    (hls : ∀ raw ∈ ls, QuoteFree raw) :
    solid (indentLines o s ls) = (content ls).mapIdx fun i line =>
      indented o (level rescanned (earlier ++ (content ls).take i) line) line := by
  induction ls generalizing s earlier with
  | nil => rfl
  | cons raw rest ih =>
    rw [List.forall_mem_cons] at hls
    rw [indentLines_cons]
    by_cases hne : trim raw = []
    · have hcontent : content (raw :: rest) = content ([] :: rest) := content_cons_congr hne rfl
      rw [indentLine_of_blank hne, solid_nil_cons, hcontent, content_nil_cons]
      exact ih h hls.2
    · have hverbatim : s.isVerbatim = false := by rw [State.isVerbatim, h.carry]; rfl
      have hcontent : content (raw :: rest) = trim raw :: content rest := by
        rw [content, List.filter_cons_of_pos (by simpa using hne)]
        rfl
      have hnext := h.behindCode (hls.1.of_isInfix (trim_isInfix raw))
      rw [indentLine_of_code hne hverbatim, hcontent, List.mapIdx_cons,
        solid_cons_of_ne
        (by rw [trimEnd_append_trim _ hne]; exact List.append_ne_nil_of_right_ne_nil _ hne),
        trimEnd_append_trim _ hne, h.indentation_eq, ih hnext hls.2, List.take_zero,
        List.append_nil]
      simp only [List.take_succ_cons, List.append_assoc, List.singleton_append]
      rfl

theorem solid_lines_formatChars {filename : String} (cs : List Char) :
    solid (lines (formatChars o filename cs)) = solid (draftLines o filename cs) := by
  have hsolid : solid (formattedLines o filename cs) = solid (draftLines o filename cs) :=
    solid_keptLines _ _
  by_cases hne : formattedLines o filename cs = []
  · rw [formatChars_eq, finish_of_keptLines_nil hne, ← hsolid, hne]
    rfl
  · rw [lines_formatChars hne, hsolid]

/-- The lines of a script without quotes and comments are indented by the levels of their brackets,
the brackets matched as `rescanned` says. So a line is indented by its own level if no earlier line
has blanks between the closing brackets at its front. -/
theorem format_indents_by_level (o : Options) (filename text : String)
    (hscript : hasExtension filename ".js" = true) (hplain : QuoteFree text.toList) :
    solid (lines (format o filename text).toList) = (content (lines text.toList)).mapIdx
    (fun i line =>
      indented o (level rescanned ((content (lines text.toList)).take i) line) line) ∧
    ∀ i line, (content (lines text.toList))[i]? = some line →
      (∀ earlier ∈ (content (lines text.toList)).take i, Gapless earlier) →
      (solid (lines (format o filename text).toList))[i]? =
        some (indented o (level id ((content (lines text.toList)).take i) line) line) := by
  have hlines : ∀ raw ∈ lines text.toList, QuoteFree raw := fun raw hraw =>
    hplain.of_isInfix ((lines_isInfix text.toList).2 raw hraw)
  have hsolid : solid (lines (format o filename text).toList) = (content (lines text.toList)).mapIdx
      fun i line =>
      indented o (level rescanned ((content (lines text.toList)).take i) line) line := by
    rw [format, String.toList_ofList, solid_lines_formatChars, draftLines, not_html_of_js hscript,
      if_neg Bool.false_ne_true, if_pos hscript, solid_indentLines .start hlines]
    rfl
  refine ⟨hsolid, fun i line hline hgapless => ?_⟩
  rw [hsolid, List.getElem?_mapIdx, hline]
  dsimp only [Option.map_some, level]
  rw [unclosedLines_rescanned hgapless]

theorem quoteFree_of_all (hquote : cs.all (!isQuote ·) = true) (hline : ¬ ['/', '/'] <:+: cs)
    (hblock : ¬ ['/', '*'] <:+: cs) : QuoteFree cs :=
  ⟨fun c hc => by simpa using List.all_eq_true.1 hquote c hc, hline, hblock⟩

/-- A script with brackets of all kinds, closed at the front of a line and inside, and with blanks
between the closing brackets at the front of the last line. -/
def bracketedSource : String :=
  "f(a, [\n\n   1, (2\n)], g(\n\x7b) h[(\n) ] + x\n"

theorem bracketedSource_indented :
    hasExtension "Cat.js" ".js" = true ∧ QuoteFree bracketedSource.toList ∧
    (content (lines bracketedSource.toList))[4]? = some ") ] + x".toList ∧
    (∀ earlier ∈ (content (lines bracketedSource.toList)).take 4, Gapless earlier) ∧
    level id ((content (lines bracketedSource.toList)).take 4) ") ] + x".toList = 2 ∧
    (solid (lines (format {} "Cat.js" bracketedSource).toList))[4]? = some (indented {}
      (level id ((content (lines bracketedSource.toList)).take 4) ") ] + x".toList)
      ") ] + x".toList) := by
  have hplain : QuoteFree bracketedSource.toList :=
    quoteFree_of_all (by decide +kernel) (by decide +kernel) (by decide +kernel)
  have hline : (content (lines bracketedSource.toList))[4]? = some ") ] + x".toList := by
    decide +kernel
  have hgapless : ∀ earlier ∈ (content (lines bracketedSource.toList)).take 4, Gapless earlier := by
    have hall : ((content (lines bracketedSource.toList)).take 4).all
        (fun line => ((closingFront line).dropWhile isCloser).all (!isCloser ·)) = true := by
        decide +kernel
    intro earlier hearlier c hc
    simpa using List.all_eq_true.1 (List.all_eq_true.1 hall earlier hearlier) c hc
  exact ⟨by decide, hplain, hline, hgapless, by decide +kernel,
    (format_indents_by_level {} "Cat.js" bracketedSource (by decide) hplain).2 4 _ hline hgapless⟩

/-- Three brackets, two of which a line closes with a blank between. -/
def spacedClosers : String :=
  "(\n(\n(\n) )\nx\n"

/-- The second closing bracket is matched twice, and the line behind it is not indented though a
bracket is open. -/
theorem spacedClosers_not_indented : QuoteFree spacedClosers.toList ∧
    (content (lines spacedClosers.toList))[4]? = some "x".toList ∧
    level id ((content (lines spacedClosers.toList)).take 4) "x".toList = 1 ∧
    (solid (lines (format {} "Cat.js" spacedClosers).toList))[4]? = some "x".toList ∧
    (solid (lines (format {} "Cat.js" spacedClosers).toList))[4]? ≠ some (indented {}
      (level id ((content (lines spacedClosers.toList)).take 4) "x".toList) "x".toList) :=
  ⟨quoteFree_of_all (by decide +kernel) (by decide +kernel)
    (by decide +kernel), by decide +kernel, by decide +kernel, by decide +kernel, by decide +kernel⟩

end Layout

end ScratchExport
