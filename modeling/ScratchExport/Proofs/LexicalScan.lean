import Mathlib.Data.List.Infix
import ScratchExport.Layout.Scan
import ScratchExport.Text.Lines

/-!
# Lexically closed source

Source is read line by line with the scan for brackets, comments and quotes. It is closed if every
quote is closed on its line, no bracket is closed that is not open, and behind the last line no
comment and no bracket is open (`IsClosed`).

Texts are put together inside their lines, so the scan of whole lines does not compose. The lexer
does: it reads one character after the other, and its mode says what a line read so far leaves to
the scan (`Mode.carry`, and in `Mode.pending` the character that the scan has not taken yet since it
looks one character ahead). It stops where source is not closed, and also at a line comment. What it
gets through is closed (`isClosed_of_run`): `scanFrom_next` is the step and `linesClose_of_run` the
induction over the characters.
-/

namespace ScratchExport.Layout

/-! ### Closed lines -/

/-- Lines that go on where a number of brackets is open: every quote is closed on its line, no
bracket is closed that is not open, and in the end no bracket and no comment is left open. -/
def LinesClose : Carry → Nat → List (List Char) → Prop
  | carry, depth, [] => carry.inComment = false ∧ depth = 0
  | carry, depth, line :: rest =>
    (scanFrom carry ⟨0, 0⟩ line).1.quote = none ∧ (scan carry line).2.closed ≤ depth ∧
      LinesClose (scan carry line).1 (depth - (scan carry line).2.closed +
        (scan carry line).2.opened) rest

instance decidableLinesClose : ∀ carry depth lines, Decidable (LinesClose carry depth lines)
  | _, _, [] => inferInstanceAs (Decidable (_ ∧ _))
  | carry, depth, line :: rest =>
    have := decidableLinesClose (scan carry line).1
      (depth - (scan carry line).2.closed + (scan carry line).2.opened) rest
    inferInstanceAs (Decidable (_ ∧ _ ∧ _))

/-- The lines of a text are closed. -/
def IsClosed (text : String) : Prop :=
  LinesClose .clean 0 (Text.splitWhere (· == '\n') text.toList)

instance (text : String) : Decidable (IsClosed text) :=
  inferInstanceAs (Decidable (LinesClose ..))

/-! ### The lexer -/

/-- Where a character stands. -/
inductive Mode where
  | code
  /-- Behind a slash of the code. -/
  | slash
  | comment
  /-- Behind an asterisk of a comment. -/
  | star
  | inside (quote : Char)
  /-- Behind a backslash in a quote. -/
  | escaped (quote : Char)
  deriving DecidableEq

/-- The number of open brackets, and where the next character stands. -/
structure Lexer where
  depth : Nat
  mode : Mode
  deriving DecidableEq

namespace Lexer

/-- Read a character of the code. -/
def plain (d : Nat) (c : Char) : Option Lexer :=
  if c == '/' then some ⟨d, .slash⟩
  else if isQuote c then some ⟨d, .inside c⟩
  else if isOpener c then some ⟨d + 1, .code⟩
  else if isCloser c then
    match d with
    | 0 => none
    | d + 1 => some ⟨d, .code⟩
  else some ⟨d, .code⟩

/-- Read a character. A quote does not reach over the end of a line. -/
def next : Lexer → Char → Option Lexer
  | ⟨d, .code⟩, c => plain d c
  | ⟨d, .slash⟩, c => if c == '/' then none else if c == '*' then some ⟨d, .comment⟩ else plain d c
  | ⟨d, .comment⟩, c => some ⟨d, if c == '*' then .star else .comment⟩
  | ⟨d, .star⟩, c => some ⟨d, if c == '/' then .code else if c == '*' then .star else .comment⟩
  | ⟨d, .inside q⟩, c =>
    if c == '\n' then none
    else some ⟨d, if c == '\\' then .escaped q else if c == q then .code else .inside q⟩
  | ⟨d, .escaped q⟩, c => if c == '\n' then none else some ⟨d, .inside q⟩

/-- Read characters. -/
def run : Lexer → List Char → Option Lexer
  | l, [] => some l
  | l, c :: rest => (l.next c).bind (·.run rest)

/-- The same place with more brackets around it. -/
def raise (l : Lexer) (k : Nat) : Lexer :=
  { l with depth := l.depth + k }

variable {l l' : Lexer} {cs ds : List Char} {c q : Char} {d k : Nat}

@[simp] theorem run_nil : l.run [] = some l := rfl

theorem run_cons : l.run (c :: cs) = (l.next c).bind (·.run cs) := rfl

theorem run_append : l.run (cs ++ ds) = (l.run cs).bind (·.run ds) := by
  induction cs generalizing l with
  | nil => rfl
  | cons c rest ih =>
    rw [List.cons_append, run_cons, run_cons]
    cases l.next c with
    | none => rfl
    | some next => exact ih

theorem plain_raise (h : plain d c = some l) : plain (d + k) c = some (l.raise k) := by
  unfold plain at h ⊢
  split_ifs at h ⊢
  · cases h; rfl
  · cases h; rfl
  · cases h
    rw [raise, Nat.add_right_comm]
  · cases d with
    | zero => cases h
    | succ d =>
      cases h
      rw [Nat.add_right_comm]
      rfl
  · cases h; rfl

theorem next_raise (h : l.next c = some l') : (l.raise k).next c = some (l'.raise k) := by
  obtain ⟨d, mode⟩ := l
  cases mode with
  | code => exact plain_raise h
  | slash =>
    unfold next at h
    unfold next raise
    dsimp only at h ⊢
    split_ifs at h ⊢
    · cases h; rfl
    · exact plain_raise h
  | comment | star => cases h; rfl
  | inside q | escaped q =>
    unfold next at h
    unfold next raise
    dsimp only at h ⊢
    split_ifs at h ⊢ <;> cases h <;> rfl

theorem run_raise (h : l.run cs = some l') : (l.raise k).run cs = some (l'.raise k) := by
  induction cs generalizing l with
  | nil => cases h; rfl
  | cons c rest ih =>
    rw [run_cons, Option.bind_eq_some_iff] at h
    obtain ⟨next, hnext, hrest⟩ := h
    rw [run_cons, next_raise hnext]
    exact ih hrest

end Lexer

/-! ### What the lexer gets through is closed -/

/-- What a line that ends here leaves unfinished. -/
def Mode.carry : Mode → Carry
  | .code | .slash => .clean
  | .comment | .star => ⟨true, none⟩
  | .inside q | .escaped q => ⟨false, some q⟩

/-- The character that the scan takes together with the next one. -/
def Mode.pending : Mode → List Char
  | .slash => ['/']
  | .star => ['*']
  | .escaped _ => ['\\']
  | .code | .comment | .inside _ => []

/-- The brackets of a line so far lead from the depth at its start to a depth. -/
structure Brackets.Leads (b : Brackets) (start depth : Nat) : Prop where
  closed_le : b.closed ≤ start
  balance : depth + b.closed = start + b.opened

variable {b : Brackets} {c : Char} {rest : List Char} {start d : Nat}

theorem Brackets.Leads.opening (h : b.Leads start d) :
    ({ b with opened := b.opened + 1 } : Brackets).Leads start (d + 1) :=
  ⟨h.closed_le, by have := h.balance; simp only; omega⟩

theorem Brackets.Leads.closing (h : b.Leads start (d + 1)) : b.close.Leads start d := by
  obtain ⟨hle, hbalance⟩ := h
  unfold Brackets.close
  split_ifs with hzero
  · have : b.opened = 0 := by simpa using hzero
    exact ⟨by simp only; omega, by simp only; omega⟩
  · have : b.opened ≠ 0 := by simpa using hzero
    exact ⟨hle, by simp only; omega⟩

theorem scanFrom_code (hc : c ≠ '/') (b : Brackets) (rest : List Char) :
    scanFrom .clean b (c :: rest) =
    if isQuote c then scanFrom ⟨false, some c⟩ b rest
    else if isOpener c then scanFrom .clean { b with opened := b.opened + 1 } rest
    else if isCloser c then scanFrom .clean b.close rest
    else scanFrom .clean b rest := by
  rw [scanFrom.eq_def]
  simp only [Carry.clean, Bool.false_eq_true, if_false]
  split
  · exact absurd rfl hc
  · exact absurd rfl hc
  · rfl

theorem scanFrom_slash (hc : c ≠ '/') (hstar : c ≠ '*') (b : Brackets) (rest : List Char) :
    scanFrom .clean b ('/' :: c :: rest) = scanFrom .clean b (c :: rest) := by
  rw [scanFrom.eq_def]
  simp only [Carry.clean, Bool.false_eq_true, if_false]
  split
  · next heq => cases heq; exact absurd rfl hc
  · next heq => cases heq; exact absurd rfl hstar
  · rfl

theorem scanFrom_comment (hc : c ≠ '*') (b : Brackets) (rest : List Char) :
    scanFrom ⟨true, none⟩ b (c :: rest) = scanFrom ⟨true, none⟩ b rest := by
  rw [scanFrom.eq_def]
  simp only [if_true]
  split
  · exact absurd rfl hc
  · rfl

theorem scanFrom_star (hc : c ≠ '/') (b : Brackets) (rest : List Char) :
    scanFrom ⟨true, none⟩ b ('*' :: c :: rest) = scanFrom ⟨true, none⟩ b (c :: rest) := by
  rw [scanFrom.eq_def]
  simp only [if_true]
  split
  · next heq => cases heq; exact absurd rfl hc
  · rfl

theorem scanFrom_plain {l : Lexer} (h : Lexer.plain d c = some l) (hb : b.Leads start d) :
    ∃ b', b'.Leads start l.depth ∧
      ∀ rest, scanFrom .clean b (c :: rest) = scanFrom l.mode.carry b'
      (l.mode.pending ++ rest) := by
  unfold Lexer.plain at h
  split_ifs at h with hslash hquote hopen hclose
  · cases h
    rw [eq_of_beq hslash]
    exact ⟨b, hb, fun _ => rfl⟩
  all_goals
    have hcode := scanFrom_code (c := c) (by simpa using hslash)
  · cases h
    exact ⟨b, hb, fun rest => by rw [hcode, if_pos hquote]; rfl⟩
  · cases h
    exact ⟨_, hb.opening, fun rest => by rw [hcode, if_neg hquote, if_pos hopen]; rfl⟩
  · cases d with
    | zero => cases h
    | succ d =>
      cases h
      exact ⟨_, hb.closing,
        fun rest => by rw [hcode, if_neg hquote, if_neg hopen, if_pos hclose]; rfl⟩
  · cases h
    exact ⟨b, hb, fun rest => by rw [hcode, if_neg hquote, if_neg hopen, if_neg hclose]; rfl⟩

/-- One character on a line: the scan gets as far as the lexer, up to the character that
is pending. -/
theorem scanFrom_next {l l' : Lexer} (h : l.next c = some l') (hb : b.Leads start l.depth) :
    ∃ b', b'.Leads start l'.depth ∧ ∀ rest,
      scanFrom l.mode.carry b (l.mode.pending ++ c :: rest) = scanFrom l'.mode.carry b'
      (l'.mode.pending ++ rest) := by
  obtain ⟨d, mode⟩ := l
  cases mode with
  | code => exact scanFrom_plain h hb
  | slash =>
    unfold Lexer.next at h
    dsimp only at h
    split_ifs at h with hslash hstar
    · cases h
      rw [eq_of_beq hstar]
      exact ⟨b, hb, fun _ => rfl⟩
    · obtain ⟨b', hb', hscan⟩ := scanFrom_plain h hb
      refine ⟨b', hb', fun rest => ?_⟩
      rw [← hscan]
      exact scanFrom_slash (by simpa using hslash) (by simpa using hstar) b rest
  | comment =>
    cases h
    refine ⟨b, hb, fun rest => ?_⟩
    dsimp only
    split_ifs with hstar
    · rw [eq_of_beq hstar]; rfl
    · exact scanFrom_comment (by simpa using hstar) b rest
  | star =>
    cases h
    refine ⟨b, hb, fun rest => ?_⟩
    dsimp only
    split_ifs with hslash hstar
    · rw [eq_of_beq hslash]; rfl
    · rw [eq_of_beq hstar]; exact scanFrom_star (by decide) b rest
    · exact (scanFrom_star (by simpa using hslash) b rest).trans
        (scanFrom_comment (by simpa using hstar) b rest)
  | inside q =>
    unfold Lexer.next at h
    dsimp only at h
    split_ifs at h with hline hescape hquote
    all_goals
      cases h
      refine ⟨b, hb, fun rest => ?_⟩
    · rw [eq_of_beq hescape]; rfl
    · show scanFrom ⟨false, some q⟩ b (c :: rest) = scanFrom .clean b rest
      rw [scanFrom.eq_def]
      simp [hescape, hquote, Carry.clean]
    · show scanFrom ⟨false, some q⟩ b (c :: rest) = scanFrom ⟨false, some q⟩ b rest
      rw [scanFrom.eq_def]
      simp [hescape, hquote]
  | escaped q =>
    unfold Lexer.next at h
    dsimp only at h
    split_ifs at h
    cases h
    exact ⟨b, hb, fun _ => rfl⟩

theorem scanFrom_pending (mode : Mode) (b : Brackets) :
    scanFrom mode.carry b mode.pending = (mode.carry, b) := by
  cases mode <;> rfl

/-- No quote is open where the lexer reads the end of a line, and the next line goes on in
its mode. -/
theorem next_newline {l l' : Lexer} (h : l.next '\n' = some l') :
    l.mode.carry.quote = none ∧ l'.depth = l.depth ∧ l'.mode.carry = l.mode.carry ∧
    l'.mode.pending = [] := by
  obtain ⟨d, mode⟩ := l
  cases mode <;> cases h <;> exact ⟨rfl, rfl, rfl, rfl⟩

/-- Lines that go on in the middle of a line. -/
def LinesCloseFrom (carry : Carry) (b : Brackets) (start : Nat) (line : List Char)
    (rest : List (List Char)) : Prop :=
  (scanFrom carry b line).1.quote = none ∧ (scanFrom carry b line).2.closed ≤ start ∧
    LinesClose (scanFrom carry b line).1.endLine
      (start - (scanFrom carry b line).2.closed + (scanFrom carry b line).2.opened) rest

theorem linesClose_of_run {cs : List Char} {l l' : Lexer} (h : l.run cs = some l')
    (hdepth : l'.depth = 0) (hmode : l'.mode.carry = .clean) (hb : b.Leads start l.depth) :
    ∃ line lines,
      Text.splitWhere (· == '\n') cs = line :: lines ∧
        LinesCloseFrom l.mode.carry b start (l.mode.pending ++ line) lines := by
  induction cs generalizing l b start with
  | nil =>
    cases h
    refine ⟨[], [], rfl, ?_⟩
    obtain ⟨hle, hbalance⟩ := hb
    rw [List.append_nil, LinesCloseFrom, scanFrom_pending, hmode]
    exact ⟨rfl, hle, rfl, by simp only; omega⟩
  | cons c rest ih =>
    rw [Lexer.run_cons, Option.bind_eq_some_iff] at h
    obtain ⟨next, hnext, hrest⟩ := h
    rw [Text.splitWhere]
    split_ifs with hline
    · -- The line ends here, and the next one starts at this depth with no brackets of its own.
      rw [eq_of_beq hline] at hnext
      obtain ⟨hquote, hdepth', hcarry, hpending⟩ := next_newline hnext
      have hfresh : (⟨0, 0⟩ : Brackets).Leads next.depth next.depth := ⟨Nat.zero_le _, rfl⟩
      obtain ⟨line, lines, hsplit, hlines⟩ := ih hrest hfresh
      refine ⟨[], _, rfl, ?_⟩
      obtain ⟨hle, hbalance⟩ := hb
      have hend : l.mode.carry.endLine = l.mode.carry := by
        unfold Carry.endLine
        rw [hquote]
        cases h : l.mode.carry
        rw [h] at hquote
        cases hquote
        rfl
      rw [List.append_nil, LinesCloseFrom, scanFrom_pending, hsplit]
      refine ⟨hquote, hle, ?_⟩
      rw [hpending, List.nil_append, hcarry] at hlines
      rw [hend, show start - b.closed + b.opened = next.depth by omega]
      exact hlines
    · obtain ⟨b', hb', hscan⟩ := scanFrom_next hnext hb
      obtain ⟨line, lines, hsplit, hlines⟩ := ih hrest hb'
      refine ⟨c :: line, lines, by rw [hsplit]; rfl, ?_⟩
      rw [LinesCloseFrom, hscan]
      exact hlines

/-- What the lexer gets through from the start, back to no open bracket and outside comments and
quotes, is closed. -/
theorem isClosed_of_run {s : String} {l : Lexer} (h : (⟨0, .code⟩ : Lexer).run s.toList = some l)
    (hdepth : l.depth = 0) (hmode : l.mode.carry = .clean) : IsClosed s := by
  have hfresh : (⟨0, 0⟩ : Brackets).Leads 0 0 := ⟨le_rfl, rfl⟩
  obtain ⟨line, lines, hsplit, hlines⟩ := linesClose_of_run h hdepth hmode hfresh
  rw [IsClosed, hsplit]
  exact hlines

end ScratchExport.Layout
