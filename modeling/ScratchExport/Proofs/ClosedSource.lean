import ScratchExport.Proofs.Brackets
import ScratchExport.Proofs.CallProtocol
import ScratchExport.Proofs.Faults
import ScratchExport.Proofs.SourceLaw
import ScratchExport.Proofs.YieldScan

/-!
# Closed source

Source is closed if the scan for operators is back at depth 0, outside quotes, behind it.
Identifiers and numbers have no quotes and brackets at all, and a string literal escapes its quotes,
so literals are closed whatever they say, and colours with them. Closed source stays closed in
parentheses and casts (`sourceLaw_leads`).
-/

namespace ScratchExport.Source
open Outcome (Ensures)

/-! ### Characters -/

theorem not_isMark_of_alphanum {c : Char} (h : c.isAlphanum = true) : isMark c = false :=
  Name.forall_ascii (P := fun c => c.isAlphanum = true → isMark c = false) (by decide)
    (Name.toNat_lt_of_isAlphanum h) h

theorem not_isMark_of_isDigit {c : Char} (h : c.isDigit = true) : isMark c = false :=
  not_isMark_of_alphanum (by simp [Char.isAlphanum, h])

theorem not_isMark_of_numeral {c : Char} (h : c.isDigit = true ∨ c ∈ numeralMarks) :
    isMark c = false := by
  have hall : ∀ c ∈ numeralMarks, isMark c = false := List.all_iff_forall_prop.1 (by decide)
  exact h.elim not_isMark_of_isDigit (hall c)

theorem isBare_toString_int (i : Int) : IsBare (toString i) :=
  fun _ hc => not_isMark_of_numeral ((mem_toString_int hc).imp_right fun h => by rw [h]; decide)

theorem isBare_numberLiteral (x : Binary64) : IsBare (Literal.numberLiteral x) := by
  cases x with
  | nan => exact .ofList (by decide)
  | infinite negative => cases negative <;> exact .ofList (by decide)
  | finite negative units => exact fun _ hc => not_isMark_of_numeral (Literal.mem_numberLiteral hc)

theorem isBare_identifier {s : String} (h : Name.IsIdentifier s) : IsBare s := by
  intro c hc
  rcases Bool.or_eq_true_iff.1 (Name.isIdentifierTail_of_mem h c hc) with h | h
  · exact not_isMark_of_alphanum h
  · rw [eq_of_beq h]; decide

/-- Lower case brings no mark about: the images in the table keep away from the marks. -/
theorem not_isMark_of_mem_mapCase {c d : Char} (hc : isMark c = false)
    (hd : d ∈ Text.mapCase Text.CaseTable.lowerRuns Text.CaseTable.lowerLong c) :
    isMark d = false := by
  have hcodes (h : isMark d = true) : d.toNat ∈ "\"'\x60()[]\x7b\x7d".toList.map Char.toNat := by
    simp only [isMark, isQuote, isOpening, isClosing, Bool.or_eq_true, beq_iff_eq] at h
    rcases h with (((rfl | rfl) | rfl) | (rfl | rfl) | rfl) | (rfl | rfl) | rfl <;> decide
  unfold Text.mapCase at hd
  simp only at hd
  split at hd
  · next image hfind =>
    have hall : (Text.CaseTable.lowerLong.all fun r => (r.2.map Char.ofNat).all fun d =>
      !isMark d) = true := by decide
    have hlong :=
      List.all_eq_true.1 (List.all_eq_true.1 hall _ (List.mem_of_find?_eq_some hfind)) d hd
    simpa using hlong
  split at hd
  · next first last stride image hfind =>
    have haway : ∀ r ∈ Text.CaseTable.lowerRuns, ∀ n ∈ "\"'\x60()[]\x7b\x7d".toList.map Char.toNat,
        0 < n ∧ (n < r.2.2.2 ∨ r.2.2.2 + (r.2.1 - r.1) < n) := by decide +kernel
    have hrange := List.find?_some hfind
    simp only [Bool.and_eq_true, decide_eq_true_eq] at hrange
    rw [List.mem_singleton] at hd
    by_contra hmark
    have hn := haway _ (List.mem_of_find?_eq_some hfind) _ (hcodes (Bool.not_eq_false _ ▸ hmark))
    simp only at hn
    rcases Yield.toNat_ofNat (image + (c.toNat - first)) with h | h <;> rw [← hd] at h <;>
      rw [h] at hn <;> omega
  · rw [List.mem_singleton.1 hd]
    exact hc

theorem isBare_lower {s : String} (h : IsBare s) : IsBare (Text.lower s) := by
  have hafter (before cs : List Char) (hcs : ∀ c ∈ cs, isMark c = false) :
      ∀ c ∈ Text.lowerAfter before cs, isMark c = false := by
    fun_induction Text.lowerAfter before cs with
    | case1 => exact hcs
    | case2 before rest ih =>
      rw [List.forall_mem_cons] at hcs ⊢
      refine ⟨?_, ih hcs.2⟩
      split_ifs <;> decide
    | case3 before c rest _ ih =>
      rw [List.forall_mem_cons] at hcs
      rw [List.forall_mem_append]
      exact ⟨fun d hd => not_isMark_of_mem_mapCase hcs.1 hd, ih hcs.2⟩
  exact .ofList (by simpa using hafter [] s.toList h)

/-! ### Quoted texts -/

theorem ne_of_mem_hexDigits {width n : Nat} {c q : Char} (hq : isQuote q = true)
    (h : c ∈ Text.hexDigits width n) : c ≠ q ∧ c ≠ '\\' := by
  have hquotes : q = '"' ∨ q = '\'' ∨ q = '\x60' := by simpa [isQuote, or_assoc] using hq
  rcases List.mem_append.1 h with h | h
  · rw [(List.mem_replicate.1 h).2]
    rcases hquotes with rfl | rfl | rfl <;> decide
  · obtain ⟨d, rfl⟩ := exists_digitChar_of_mem_toDigits (by decide) h
    refine ⟨?_, Nat.digitChar_ne '\\' rfl⟩
    rcases hquotes with rfl | rfl | rfl <;> exact Nat.digitChar_ne _ rfl

theorem read_inside_hex {d : Nat} {q : Char} (hq : isQuote q = true) (c : Char) (width n : Nat) :
    (Scan.inside d q).read ('\\' :: c :: Text.hexDigits width n) = some (Scan.inside d q) := by
  rw [Scan.read_inside_escape]
  exact Scan.read_inside fun c hc => ne_of_mem_hexDigits hq hc

theorem read_inside_short {d : Nat} {q : Char} (c : Char) :
    (Scan.inside d q).read ['\\', c] = some (Scan.inside d q) :=
  Scan.read_inside_escape

theorem read_escapeChar (d : Nat) (c : Char) :
    (Scan.inside d '"').read (Text.escapeChar c) = some (Scan.inside d '"') := by
  have hquote : isQuote '"' = true := rfl
  unfold Text.escapeChar
  split_ifs with h1 h2 h3 h4 h5 h6 h7 h8
  · exact read_inside_short _
  · exact read_inside_short _
  · exact read_inside_short _
  · exact read_inside_short _
  · exact read_inside_short _
  · exact read_inside_short _
  · exact read_inside_short _
  · exact read_inside_hex hquote 'u' 4 _
  · refine Scan.read_inside (List.forall_mem_singleton.2 ⟨?_, ?_⟩)
    · simpa using h1
    · simpa using h2

theorem leads_literal (s : String) : Leads 0 0 (Text.literal s) := by
  have hquote : isQuote '"' = true := rfl
  exact .ofList (Scan.read_quoted hquote (Scan.read_flatMap (read_escapeChar 0)) (by decide))

theorem read_showChar {q : Char} (hq : isQuote q = true) (d : Nat) (c : Char) :
    (Scan.inside d q).read (Text.showChar q c) = some (Scan.inside d q) := by
  unfold Text.showChar
  split_ifs with h1 h2 h3 h4 h5 h6 h7
  · exact read_inside_short _
  · exact read_inside_short _
  · exact read_inside_short _
  · exact read_inside_short _
  · refine Scan.read_inside (List.forall_mem_singleton.2 ?_)
    simpa using h1
  · exact read_inside_hex hq 'x' 2 _
  · exact read_inside_hex hq 'u' 4 _
  · exact read_inside_hex hq 'U' 8 _

theorem leads_quoted (s : String) : Leads 0 0 (Text.quoted s) := by
  have hmark : isQuote (Text.quoteMark s.toList) = true ∧ Text.quoteMark s.toList ≠ '\\' := by
    unfold Text.quoteMark
    split_ifs <;> decide
  exact .ofList (Scan.read_quoted hmark.1 (Scan.read_flatMap (read_showChar hmark.1 0)) hmark.2)

theorem quote_next {scan : Scan} (h : ∀ q ∈ scan.quote, isQuote q = true) (c : Char) :
    ∀ q ∈ (scan.next c).quote, isQuote q = true := by
  obtain ⟨depth, quote, escaped⟩ := scan
  cases quote with
  | none =>
    unfold Scan.next
    dsimp only
    split_ifs with hc
    · rintro q ⟨⟩
      exact hc
    all_goals exact h
  | some mark =>
    unfold Scan.next
    dsimp only
    split_ifs
    · exact h
    · exact h
    · exact fun _ hq => nomatch hq
    · exact h

/-- A blank that pulls a comment end apart is not noticed, inside quotes or outside. -/
theorem read_commentChars {scan : Scan} (h : ∀ q ∈ scan.quote, isQuote q = true) (cs : List Char) :
    scan.read (Literal.commentChars cs) = scan.read cs := by
  fun_induction Literal.commentChars cs generalizing scan with
  | case1 => rfl
  | case2 rest ih =>
    have hblank : (scan.next '*').next ' ' = scan.next '*' := by
      obtain ⟨depth, quote, escaped⟩ := scan
      cases quote with
      | none => rfl
      | some q =>
        have hq := h q rfl
        have hstar : ('*' == q) = false := beq_false_of_ne fun heq => by rw [← heq] at hq; cases hq
        have hspace : (' ' == q) = false := beq_false_of_ne fun heq => by rw [← heq] at hq; cases hq
        cases escaped <;> simp [Scan.next, hstar, hspace]
    have hstep (scan : Scan) (c : Char) (cs : List Char) :
        scan.read (c :: cs) = if (scan.next c).depth < 0 then none else (scan.next c).read cs := rfl
    rw [hstep, hstep _ ' ', hblank, hstep _ '/', ih (quote_next (quote_next h _) _), hstep _ '*',
      hstep _ '/']
    split_ifs <;> rfl
  | case3 c rest _ ih => rw [Scan.read, Scan.read, ih (quote_next h c)]

theorem Leads.commentText {d e : Nat} {s : String} (h : Leads d e s) :
    Leads d e (Literal.commentText s) := by
  refine .ofList ?_
  rw [read_commentChars (by simp [Scan.level])]
  exact h

end ScratchExport.Source

namespace ScratchExport.Compile
open Outcome (Ensures)
open Source (Leads IsBare leads_literal)

/-! ### Literals -/

/-- The scan for operators gets through the fragment. -/
def Fragment.Closed (f : Fragment) : Prop :=
  Leads 0 0 f.source

theorem leads_numberLiteral (x : Binary64) : Leads 0 0 (Literal.numberLiteral x) :=
  (Source.isBare_numberLiteral x).leads 0

theorem sourceLaw_leads : SourceLaw (Leads 0 0) := by
  intro w hw s hs
  have hwrap : ∀ w ∈ wrappings, ∃ d < 2, Leads 0 d w.1 ∧ Leads d 0 w.2 := by decide +kernel
  obtain ⟨d, -, hfirst, hlast⟩ := hwrap w hw
  exact .between hfirst hs hlast

theorem literalFragment_closed (v : Value) (desired : Shape) :
    Ensures (literalFragment v desired) Fragment.Closed :=
  literalFragment_ensures (fun s _ => leads_literal s) (fun b => by cases b <;> decide)
    leads_numberLiteral desired

/-- A colour is closed: its components are numbers, and a text is written as a literal. -/
theorem colorSource_closed {v : Value} (h : v.IsColor) :
    Ensures (Literal.Color.source v) (Leads 0 0) := by
  have hnumber (i : Int) : Leads 1 1 (toString i) := (Source.isBare_toString_int i).leads 1
  have hrgb (r g b : Int) :
      Leads 0 0 ("Color.rgb(" ++ toString r ++ ", " ++ toString g ++ ", " ++ toString b ++
        ")") := by
    have hopen : Leads 0 1 "Color.rgb(" := by decide
    have hcomma : Leads 1 1 ", " := by decide
    have hclose : Leads 1 0 ")" := by decide
    exact (((((hopen.append (hnumber r)).append hcomma).append (hnumber g)).append hcomma).append
      (hnumber b)).append hclose
  have hinitial (s : String) : Ensures (Literal.initial (.text s)) (Leads 0 0) := by
    have htext : Ensures (do return Text.literal (← Literal.spoken (.text s))) (Leads 0 0) :=
      .bind fun s _ => .pure (leads_literal s)
    rw [Literal.initial]
    refine .bind fun number _ => ?_
    cases number with
    | none => exact htext
    | some x =>
      dsimp only
      split_ifs
      · exact .pure (leads_numberLiteral x)
      · exact htext
  cases h with
  | text s =>
    rw [Literal.Color.source_text]
    split
    · exact .ok (hrgb ..)
    · exact .bind fun written hwritten =>
        .pure (.between (d := 1) (by decide) (hinitial s written hwritten) (by decide))
  | rgb r g b => exact .ok (hrgb r g b)
  | list r g b => exact .ok (hrgb r g b)

theorem joinStatements_closed {sources : List String} (h : ∀ s ∈ sources, Leads 0 0 s) :
    Leads 0 0 (joinStatements sources) := by
  have hline : Leads 0 0 "\n" := by decide
  exact sourceLaw_leads.joinStatements (.empty 0) (fun hs ht => (hs.append hline).append ht) h

end ScratchExport.Compile
