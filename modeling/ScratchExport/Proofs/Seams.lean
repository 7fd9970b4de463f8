import ScratchExport.Proofs.Brackets
import ScratchExport.Proofs.CommentMarks
import ScratchExport.Proofs.Identifier
import ScratchExport.Proofs.LexicalScan

/-!
# Reading fixed texts

The fixed texts of generated source are read by four scans: the lexer, the scan for brackets and
quotes, the one for the opening of a comment and the one for the word `yield`. A cursor follows all
four through a text (`Cursor.run_eq_some`, `Cursor.letters_run`), and refuses what no fixed text has
in it: comments, and a slash in a quote.

A seam is a place between two parts of a phrase, outside quotes and comments. A number of brackets
is open there, a slash may be pending, and there may be a gap: no part of a word has been read, in
particular not of `yield`, and what follows is not what a generator yields to. A fixed text leads
from seam to seam (`Seam.Reads`). A hole keeps the brackets, whatever fills it, and has to stand in
a gap where no slash is pending (`Seam.Hole`).
-/

namespace ScratchExport.Compile
open Layout (Lexer)
open Source (Scan)

/-! ### Cursors -/

/-- A place in a fixed text: the lexer there, and how many letters of `yield` may stand
before it. -/
structure Cursor where
  lexer : Lexer
  letters : Nat

namespace Cursor

/-- How many letters of the word may have been read behind a character: at most three behind an `e`,
four behind an `l` that follows it, and two behind another letter. -/
def lettersBehind (k : Nat) (c : Char) : Nat :=
  if !c.isAlpha then 0 else if c.toLower == 'l' && 3 ≤ k then 4 else if c.toLower ==
    'e' then 3 else 2

/-- Read a character. Comments are refused, a slash in a quote, and the end of the word
if `word`. -/
def next (word : Bool) (a : Cursor) (c : Char) : Option Cursor :=
  if word && c.toLower == 'd' && a.letters == 4 then none
  else match a.lexer.next c with
    | some ⟨d, .slash⟩ => some ⟨⟨d, .slash⟩, lettersBehind a.letters c⟩
    | some ⟨_, .comment⟩ | some ⟨_, .star⟩ | none => none
    | some l => if c == '/' then none else some ⟨l, lettersBehind a.letters c⟩

def run (word : Bool) : Cursor → List Char → Option Cursor
  | a, [] => some a
  | a, c :: rest => (a.next word c).bind (·.run word rest)

def slash (a : Cursor) : Bool :=
  a.lexer.mode == .slash

/-- The scan for brackets at the same place. -/
def scan (a : Cursor) : Scan :=
  match a.lexer.mode with
  | .inside q => .inside a.lexer.depth q
  | .escaped q => ⟨a.lexer.depth, some q, true⟩
  | _ => .level a.lexer.depth

variable {a b : Cursor} {word : Bool} {c : Char} {cs : List Char}

/-- A step of the cursor is one of the lexer, outside comments. -/
theorem next_eq_some (h : a.next word c = some b) :
    a.lexer.next c = some b.lexer ∧ b.letters = lettersBehind a.letters c ∧
      (word = true → c.toLower = 'd' → a.letters ≠ 4) ∧ b.lexer.mode ≠ .comment ∧
      b.lexer.mode ≠ .star ∧
      (b.lexer.mode = .slash ∨ c ≠ '/') := by
  unfold next at h
  split at h
  · cases h
  · next hword =>
    have hword : word = true → c.toLower = 'd' → a.letters ≠ 4 := by simpa [and_assoc] using hword
    split at h
    · next hnext => cases h; exact ⟨hnext, rfl, hword, by simp⟩
    · cases h
    · cases h
    · cases h
    · next l _ hcomment hstar hnext =>
      split at h
      · cases h
      · next hslash =>
        cases h
        refine ⟨hnext, rfl, hword, fun h => hcomment l.depth ?_, fun h => hstar l.depth ?_,
          .inr (by simpa using hslash)⟩
        · rw [← h]
        · rw [← h]

theorem advance_le {j k : Nat} (hj : j ≤ k) (hk : k ≤ 4) (h : c.toLower = 'd' → k ≠ 4) :
    Yield.advance j c.toLower ≤ lettersBehind k c := by
  -- Only the letters of the word move its scan, so that these are all there is to try.
  by_cases hc : c.toLower ∈ Yield.word
  · have hall : ∀ c ∈ "yieldYIELD".toList, ∀ k ≤ 4, ∀ j ≤ k, (c.toLower = 'd' → k ≠ 4) →
        Yield.advance j c.toLower ≤ lettersBehind k c := List.all_iff_forall_prop.1 (by decide)
    exact hall c (Yield.mem_of_toLower_mem_word hc) k hk j hj h
  · have hnext : ¬ Yield.word[j]? = some c.toLower := fun h => hc (List.mem_of_getElem? h)
    have hy : ¬ c.toLower = 'y' := fun h => hc (by rw [h]; decide)
    rw [Yield.advance, if_neg (by omega), if_neg hnext, if_neg hy]
    exact Nat.zero_le _

/-- In code, brackets and quotes move the scan for brackets, and a slash is pending behind
a slash. -/
theorem of_plain {d k : Nat} {l : Lexer} (h : Lexer.plain d c = some l) :
    (Scan.level d).next c = (⟨l, k⟩ : Cursor).scan ∧ (c == '/') = (⟨l, k⟩ : Cursor).slash := by
  have hquote : Source.isQuote c = Layout.isQuote c := rfl
  have hopening : Source.isOpening c = Layout.isOpener c := rfl
  have hclosing : Source.isClosing c = Layout.isCloser c := rfl
  unfold Lexer.plain at h
  unfold Scan.next Scan.level
  rw [hquote, hopening, hclosing]
  dsimp only
  by_cases hslash : (c == '/') = true
  · rw [if_pos hslash] at h
    cases h
    rw [eq_of_beq hslash]
    exact ⟨rfl, rfl⟩
  · rw [if_neg hslash] at h
    rw [Bool.eq_false_iff.2 hslash]
    split_ifs at h ⊢
    · cases h; exact ⟨rfl, rfl⟩
    · cases h; exact ⟨rfl, rfl⟩
    · cases d with
      | zero => cases h
      | succ d => cases h; exact ⟨by simp [scan, Scan.level], rfl⟩
    · cases h; exact ⟨rfl, rfl⟩

def Outside (a : Cursor) : Prop :=
  a.lexer.mode ≠ .comment ∧ a.lexer.mode ≠ .star

theorem scans_next (ha : a.Outside) (h : a.next word c = some b) :
    a.scan.next c = b.scan ∧ Marks.next a.slash c = some b.slash := by
  obtain ⟨hnext, -, -, hcomment, -, hslash⟩ := next_eq_some h
  obtain ⟨⟨d, mode⟩, k⟩ := a
  obtain ⟨l, k'⟩ := b
  cases mode with
  | code =>
    obtain ⟨hscan, hpending⟩ := of_plain (k := k') hnext
    exact ⟨hscan, congrArg some hpending⟩
  | slash =>
    unfold Lexer.next at hnext
    dsimp only at hnext
    split_ifs at hnext with _ hstar
    · cases hnext
      exact absurd rfl hcomment
    · obtain ⟨hscan, hpending⟩ := of_plain (k := k') hnext
      refine ⟨hscan, ?_⟩
      rw [Marks.next, if_neg (by simp [hstar]), hpending]
  | comment => exact absurd rfl ha.1
  | star => exact absurd rfl ha.2
  | inside q | escaped q =>
    unfold Lexer.next at hnext
    dsimp only at hnext
    split_ifs at hnext <;> cases hnext <;> simp_all [slash, Marks.next, scan, Scan.next,
      Scan.inside, Scan.level]

theorem run_eq_some (ha : a.Outside) (h : a.run word cs = some b) :
    a.lexer.run cs = some b.lexer ∧ Marks.run a.slash cs = some b.slash ∧
    a.scan.read cs = some b.scan := by
  -- The cursor never enters a comment, where the three scans would part: this carries the
  -- induction.
  induction cs generalizing a with
  | nil => cases h; exact ⟨rfl, rfl, rfl⟩
  | cons c rest ih =>
    obtain ⟨m, hm, hrest⟩ := Option.bind_eq_some_iff.1 h
    obtain ⟨hnext, -, -, hcomment, hstar, -⟩ := next_eq_some hm
    obtain ⟨hscan, hmarks⟩ := scans_next ha hm
    obtain ⟨hlexer', hmarks', hscan'⟩ := ih ⟨hcomment, hstar⟩ hrest
    have hdepth : ¬ m.scan.depth < 0 := by
      unfold scan
      split <;> simp [Scan.inside, Scan.level]
    rw [Lexer.run_cons, hnext, Marks.run_cons, hmarks, Scan.read, hscan, if_neg hdepth]
    exact ⟨hlexer', hmarks', hscan'⟩

theorem letters_run {k : Nat} (hk : k ≤ a.letters) (ha : a.letters ≤ 4)
    (h : a.run true cs = some b) : Yield.run k cs ≤ b.letters ∧ b.letters ≤ 4 := by
  induction cs generalizing a k with
  | nil => cases h; exact ⟨hk, ha⟩
  | cons c rest ih =>
    obtain ⟨m, hm, hrest⟩ := Option.bind_eq_some_iff.1 h
    obtain ⟨-, hletters, hword, -⟩ := next_eq_some hm
    have hle : lettersBehind a.letters c ≤ 4 := by
      unfold lettersBehind
      split_ifs <;> omega
    rw [Yield.run_cons]
    refine ih ?_ (hletters.trans_le hle) hrest
    rw [hletters]
    exact advance_le hk ha (hword rfl)

end Cursor

/-! ### Seams -/

/-- The end of a text, last character first, leaves a gap: it is no part of a word, and it is not
the end of `yield* `. -/
def endsInGap : List Char → Bool
  | [] => false
  | c :: before => !Name.isIdentifierTail c && (c != ' ' || match before with
    | [] => false
    | d :: before => d != '*' || before.head?.any (· != 'd'))

/-- There is a gap behind a text; behind none it is the one in front of it. -/
def leavesGap (start : Bool) (cs : List Char) : Bool :=
  if cs.isEmpty then start else endsInGap cs.reverse

/-- The bound of the scan for `yield` where it is at its start, and elsewhere. -/
def bound (start : Bool) : Nat :=
  if start then 0 else 4

/-- A place outside comments and quotes: the number of open brackets, whether a slash may be
pending, and whether there is a gap, so that the scan for `yield` is at its start. -/
structure Seam where
  depth : Nat
  slash : Bool
  start : Bool

/-- The source of the block that asks for the user's name, which brings a comment of its own. -/
def noUsername : String := "/* no username */ \"\""

namespace Seam

/-- The lexer at a seam, as if the slash were pending. -/
def lexer (a : Seam) : Lexer :=
  ⟨a.depth, if a.slash then .slash else .code⟩

/-- The seam behind a fixed text. With a slash pending no part of the word is. -/
def after (word : Bool) (a : Seam) (cs : List Char) : Option Seam :=
  match (⟨a.lexer, bound a.start⟩ : Cursor).run word cs with
  | some ⟨⟨d, .code⟩, 0⟩ => some ⟨d, false, leavesGap a.start cs⟩
  | some ⟨⟨d, .code⟩, _ + 1⟩ => some ⟨d, false, false⟩
  | some ⟨⟨d, .slash⟩, 0⟩ => some ⟨d, true, leavesGap a.start cs⟩
  | _ => none

/-- A fixed text leads from one seam to the other. With screen refresh it may have the word
in it. -/
structure Reads (warp : Bool) (a b : Seam) (s : String) : Prop where
  code : a.lexer.run s.toList = some b.lexer ∧ Marks.run a.slash s.toList = some b.slash ∨
    s = noUsername ∧ a.slash = false ∧ b.slash = false ∧ b.depth = a.depth
  level : Source.Leads a.depth b.depth s
  word : warp = true → Yield.Passes (bound a.start) (bound b.start) s
  gap : b.start = true → leavesGap a.start s.toList = true

/-- A hole between two seams. Behind it a slash may be pending if `slash`. -/
def Hole (slash : Bool) (a b : Seam) : Prop :=
  a.slash = false ∧ a.start = true ∧ b = ⟨a.depth, slash, false⟩

variable {a b : Seam} {cs : List Char} {s : String} {slash f g warp word : Bool}

theorem bound_anti (h : f ≤ g) : bound g ≤ bound f := by
  revert f g
  decide

theorem leavesGap_mono (h : f ≤ g) (hgap : leavesGap f cs = true) : leavesGap g cs = true := by
  unfold leavesGap at hgap ⊢
  split_ifs at hgap ⊢
  · exact h hgap
  · exact hgap

theorem outside_lexer (a : Seam) (k : Nat) : (⟨a.lexer, k⟩ : Cursor).Outside := by
  unfold Cursor.Outside lexer
  cases a.slash <;> simp

theorem run_of_after (h : a.after word cs = some b) :
    ∃ k, (⟨a.lexer, bound a.start⟩ : Cursor).run word cs = some ⟨b.lexer, k⟩ ∧
      (b.start = true → k = 0 ∧ leavesGap a.start cs = true) := by
  unfold after at h
  split at h
  · next hrun => cases h; exact ⟨0, hrun, fun h => ⟨rfl, h⟩⟩
  · next hrun => cases h; exact ⟨_, hrun, fun h => by cases h⟩
  · next hrun => cases h; exact ⟨0, hrun, fun h => ⟨rfl, h⟩⟩
  · cases h

theorem reads_of_after (h : a.after word cs = some b) (hword : warp = true → word = true) :
    a.Reads warp b (String.ofList cs) := by
  obtain ⟨k, hrun, hk⟩ := run_of_after h
  have hslash (a : Seam) (k : Nat) : (⟨a.lexer, k⟩ : Cursor).slash = a.slash := by
    unfold Cursor.slash lexer
    cases a.slash <;> rfl
  have hscan (a : Seam) (k : Nat) : (⟨a.lexer, k⟩ : Cursor).scan = .level a.depth := by
    unfold Cursor.scan lexer
    cases a.slash <;> rfl
  obtain ⟨hlexer, hmarks, hread⟩ := Cursor.run_eq_some (outside_lexer a _) hrun
  rw [hslash, hslash] at hmarks
  rw [hscan, hscan] at hread
  refine ⟨.inl ?_, .ofList hread, fun hwarp => .ofList fun j hj => ?_, fun hb => ?_⟩
  · rw [String.toList_ofList]
    exact ⟨hlexer, hmarks⟩
  · rw [hword hwarp] at hrun
    have hstart : bound a.start ≤ 4 := bound_anti (Bool.false_le _)
    obtain ⟨hj, hk4⟩ := Cursor.letters_run hj hstart hrun
    cases hb : b.start with
    | true => exact hj.trans (hk hb).1.le
    | false => exact hj.trans hk4
  · rw [String.toList_ofList]
    exact (hk hb).2

theorem Hole.move (h : a.Hole slash b) (ha : a.start ≤ f) (hb : g ≤ b.start) (k : Nat) :
    Hole slash ⟨a.depth + k, a.slash, f⟩ ⟨b.depth + k, b.slash, g⟩ := by
  obtain ⟨hslash, hstart, rfl⟩ := h
  rw [hstart] at ha
  rw [le_bot_iff.1 hb]
  exact ⟨hslash, top_le_iff.1 ha, rfl⟩

theorem Reads.move (h : a.Reads warp b s) (ha : a.start ≤ f) (hb : g ≤ b.start) (k : Nat) :
    Reads warp ⟨a.depth + k, a.slash, f⟩ ⟨b.depth + k, b.slash, g⟩ s where
  code := by
    refine h.code.imp (fun h => ⟨?_, h.2⟩) fun h => ⟨h.1, h.2.1, h.2.2.1, congrArg (· + k) h.2.2.2⟩
    have hraised : (a.lexer.raise k).run s.toList = some (b.lexer.raise k) := Lexer.run_raise h.1
    exact hraised
  level := h.level.raise k
  word hwarp := ((h.word hwarp).narrow (bound_anti ha)).weaken (bound_anti hb)
  gap hg := leavesGap_mono ha (h.gap (hb hg))

end Seam

end ScratchExport.Compile
