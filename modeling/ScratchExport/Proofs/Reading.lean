import Mathlib.Data.List.SplitBy
import ScratchExport.Proofs.Brackets
import ScratchExport.Proofs.Numerals
import ScratchExport.Shape

/-!
# Reading arithmetic

The arithmetic of generated source, read as JavaScript reads it and evaluated over the integers:
decimal integers, members, a minus in front, the operators `*`, `+` and `-`, and parentheses. A
token is a longest run of characters of one kind. `State.step` goes through the tokens once: `*`
takes the product so far as its left side, `+` and `-` take the whole sum so far, so `*` binds
tighter and operators of one rank group to the left.

`IsExpr` and `IsOperand` are what the source of an expression has to be, and what it has to be to
stand on either side of an operator. Operands make expressions (`IsOperand.binary`), and parentheses
make operands (`IsExpr.isOperand_paren`); integers and members are where it starts.
-/

namespace ScratchExport.Arithmetic

/-- An arithmetic expression. -/
inductive Expr where
  | number (n : Nat)
  | member (name : String)
  | negated (e : Expr)
  | sum (left right : Expr)
  | difference (left right : Expr)
  | product (left right : Expr)

/-- The value of an expression, if all its members have one. -/
def Expr.value? (memory : String → Option Int) : Expr → Option Int
  | .number n => some n
  | .member name => memory name
  | .negated e => do return -(← e.value? memory)
  | .sum left right => do return (← left.value? memory) + (← right.value? memory)
  | .difference left right => do return (← left.value? memory) - (← right.value? memory)
  | .product left right => do return (← left.value? memory) * (← right.value? memory)

/-! ### Tokens -/

inductive Token where
  | number (n : Nat)
  | member (name : String)
  | plus
  | minus
  | times
  | opening
  | closing
  deriving DecidableEq

inductive CharKind where
  | word
  | blank
  | bracket
  | sign
  deriving DecidableEq

/-- What a character can be part of. -/
def charKind (c : Char) : CharKind :=
  if c.isAlphanum || c == '.' || c == '_' || c == '$' then .word
  else if c == ' ' then .blank
  else if c == '(' || c == ')' then .bracket
  else .sign

/-- Whether characters side by side belong to one token. Brackets stand alone. -/
def joined (c d : Char) : Bool :=
  charKind c == charKind d && charKind c != .bracket

/-- The token of a run of characters; blanks have none. A number has no zero in front. -/
def token? (cs : List Char) : Option (List Token) :=
  match cs with
  | ['('] => some [.opening]
  | [')'] => some [.closing]
  | ['+'] => some [.plus]
  | ['-'] => some [.minus]
  | ['*'] => some [.times]
  | [] => none
  | c :: rest =>
    if charKind c == .blank then some []
    else if charKind c == .word && !c.isDigit then some [.member (String.ofList cs)]
    else if cs.all Char.isDigit && (c != '0' || rest.isEmpty) then
      some [.number (Nat.ofDigitChars 10 cs 0)]
    else none

/-- The tokens of source. -/
def tokens (cs : List Char) : Option (List Token) :=
  ((cs.splitBy joined).mapM token?).map List.flatten

/-! ### Expressions from tokens -/

/-- What has been read inside one pair of parentheses: the term that the next operand completes, and
the sum that this term completes. -/
structure Frame where
  term : Expr → Expr
  sum : Expr → Expr

namespace Frame

/-- Nothing has been read yet. -/
def empty : Frame := ⟨id, id⟩

/-- The expression when this is the last operand. -/
def complete (f : Frame) (operand : Expr) : Expr :=
  f.sum (f.term operand)

end Frame

/-- Between tokens: an operand comes next, or an operand has been read. The frames outside are those
around the open parentheses. -/
inductive State where
  | operand (frame : Frame) (outside : List Frame)
  | operator (frame : Frame) (operand : Expr) (outside : List Frame)

namespace State

/-- Read one token. -/
def step : State → Token → Option State
  | .operand f outside, .minus =>
    some (.operand { f with term := fun e => f.term (.negated e) } outside)
  | .operand f outside, .number n => some (.operator f (.number n) outside)
  | .operand f outside, .member name => some (.operator f (.member name) outside)
  | .operand f outside, .opening => some (.operand .empty (f :: outside))
  | .operator f e outside, .times => some (.operand { f with term := .product (f.term e) } outside)
  | .operator f e outside, .plus => some (.operand ⟨id, .sum (f.complete e)⟩ outside)
  | .operator f e outside, .minus => some (.operand ⟨id, .difference (f.complete e)⟩ outside)
  | .operator f e (outer :: outside), .closing => some (.operator outer (f.complete e) outside)
  | _, _ => none

/-- Read tokens. -/
def run (state : State) (ts : List Token) : Option State :=
  ts.foldlM step state

/-- The expression that has been read, if no parenthesis is open and no operand is missing. -/
def expr? : State → Option Expr
  | .operator f e [] => some (f.complete e)
  | _ => none

end State

/-- The value of source. -/
def evaluate (memory : String → Option Int) (source : String) : Option Int := do
  let ts ← tokens source.toList
  let state ← (State.operand .empty []).run ts
  let e ← state.expr?
  e.value? memory

example : evaluate (fun _ => some 7) "2 - (this.x - -1) * 3 - 4" = some (-26) := by decide +kernel

example : evaluate (fun _ => some 7) "2--1" = none := by decide +kernel

/-! ### Pieces of source -/

theorem charKind_eq_blank_iff {c : Char} : charKind c = .blank ↔ c = ' ' := by
  unfold charKind
  split_ifs with hword hblank hbracket
  · simp only [false_iff]
    rintro rfl
    exact absurd hword (by decide)
  · simpa using hblank
  · simpa using hblank
  · simpa using hblank

theorem joined_blank {c : Char} (h : c ≠ ' ') : joined c ' ' = false ∧ joined ' ' c = false := by
  have hc : charKind c ≠ .blank := mt charKind_eq_blank_iff.1 h
  have hblank : charKind ' ' = .blank := rfl
  simp [joined, hblank, hc, hc.symm]

theorem joined_bracket {c b : Char} (hb : charKind b = .bracket) :
    joined c b = false ∧ joined b c = false := by
  simp only [joined, hb, Bool.and_eq_false_iff]
  exact ⟨by cases charKind c <;> decide, .inr rfl⟩

theorem tokens_append {cs ds : List Char} {ts us : List Token}
    (h : ∀ c ∈ cs.getLast?, ∀ d ∈ ds.head?, joined c d = false) (hts : tokens cs = some ts)
    (hus : tokens ds = some us) : tokens (cs ++ ds) = some (ts ++ us) := by
  obtain ⟨runs, hruns, rfl⟩ := Option.map_eq_some_iff.1 hts
  obtain ⟨runs', hruns', rfl⟩ := Option.map_eq_some_iff.1 hus
  rw [tokens, List.splitBy_append h, List.mapM_append, hruns, hruns']
  simp

theorem tokens_word {cs : List Char} (hne : cs ≠ []) (h : ∀ c ∈ cs, charKind c = .word) :
    tokens cs = token? cs := by
  have hchain : cs.IsChain fun c d => joined c d = true := by
    refine List.Pairwise.isChain (List.pairwise_of_forall_mem_list fun c hc d hd => ?_)
    rw [joined, h c hc, h d hd]
    rfl
  rw [tokens, List.splitBy_of_isChain hne hchain]
  cases htoken : token? cs <;> simp [htoken]

theorem State.run_append (state : State) (ts us : List Token) :
    state.run (ts ++ us) = (state.run ts).bind fun next => next.run us := by
  rw [run, List.foldlM_append]
  rfl

end ScratchExport.Arithmetic

namespace ScratchExport.Source.Scan

theorem step_word {c : Char} (h : Arithmetic.charKind c = .word) (d : Int) :
    (Scan.mk d none false).step c = some ⟨d, none, false⟩ := by
  have hne (m : Char) (hm : Arithmetic.charKind m ≠ .word) : (c == m) = false := by
    rw [beq_eq_false_iff_ne]
    rintro rfl
    exact hm h
  have hoperator : isOperator c = false := by
    have hkind : ∀ m ∈ " +-*/%<>=!&|?:,".toList, Arithmetic.charKind m ≠ .word :=
      List.all_iff_forall_prop.1 (by decide)
    rw [isOperator, Bool.eq_false_iff, ne_eq, List.contains_iff_mem]
    exact fun hm => hkind c hm h
  unfold step
  simp only [hne '"' (by decide), hne '\'' (by decide), hne '\x60' (by decide), hne '(' (by decide),
    hne '[' (by decide), hne '\x7b' (by decide), hne ')' (by decide), hne ']' (by decide),
    hne '\x7d' (by decide),
    hoperator, Bool.or_false, Bool.and_false]
  rfl

theorem run_word {cs : List Char} (h : ∀ c ∈ cs, Arithmetic.charKind c = .word) (d : Int) :
    (Scan.mk d none false).run cs = some ⟨d, none, false⟩ := by
  induction cs with
  | nil => rfl
  | cons c cs ih =>
    rw [run, step_word (h c (List.mem_cons_self ..))]
    exact ih fun d hd => h d (List.mem_cons_of_mem c hd)

/-- Inside brackets an operator sign does not matter. -/
theorem step_sign {c : Char} (h : c ∈ [' ', '+', '-', '*']) {d : Int} (hd : 0 < d) :
    (Scan.mk d none false).step c = some ⟨d, none, false⟩ := by
  have hdepth : (d == 0) = false := beq_eq_false_iff_ne.2 hd.ne'
  simp only [List.mem_cons, List.not_mem_nil, or_false] at h
  rcases h with rfl | rfl | rfl | rfl <;> simp [step, hdepth]

end ScratchExport.Source.Scan

namespace ScratchExport.Arithmetic
open Source (Scan isAtomic)

variable {memory : String → Option Int} {source : String} {v : Int}

/-- Source of an expression with a value. Inside brackets the scan for operators gets through it. -/
structure Reads (memory : String → Option Int) (source : String) (v : Int) : Prop where
  first : ∀ c ∈ source.toList.head?, c ≠ ' '
  last : ∀ c ∈ source.toList.getLast?, c ≠ ' '
  scan : ∀ d : Int, 0 < d → (Scan.mk d none false).run source.toList = some ⟨d, none, false⟩
  run : ∃ ts f e, tokens source.toList = some ts ∧ (f.complete e).value? memory = some v ∧
    ∀ outside, (State.operand .empty outside).run ts = some (.operator f e outside)

/-- Source of an expression with a value that can be an operand as it stands. -/
structure IsOperand (memory : String → Option Int) (source : String) (v : Int) : Prop where
  first : ∀ c ∈ source.toList.head?, c ≠ ' '
  last : ∀ c ∈ source.toList.getLast?, c ≠ ' '
  scan : ∀ d : Int, 0 ≤ d → (Scan.mk d none false).run source.toList = some ⟨d, none, false⟩
  run : ∃ ts e, tokens source.toList = some ts ∧ e.value? memory = some v ∧ ∀ f outside,
    (State.operand f outside).run ts = some (.operator f e outside)

theorem IsOperand.reads (h : IsOperand memory source v) : Reads memory source v where
  first := h.first
  last := h.last
  scan d hd := h.scan d hd.le
  run := by
    obtain ⟨ts, e, hts, he, hrun⟩ := h.run
    exact ⟨ts, .empty, e, hts, he, hrun .empty⟩

theorem Reads.evaluate_eq (h : Reads memory source v) : evaluate memory source = some v := by
  obtain ⟨ts, f, e, hts, he, hrun⟩ := h.run
  simp only [evaluate, hts, hrun [], State.expr?, Option.bind_eq_bind, Option.bind_some, he]

theorem Reads.isOperand_parens (h : Reads memory source v) :
    IsOperand memory ("(" ++ source ++ ")") v := by
  have hchars : ("(" ++ source ++ ")").toList = ['('] ++ source.toList ++ [')'] := by simp
  refine ⟨?_, ?_, fun d hd => ?_, ?_⟩ <;> rw [hchars]
  · intro c hc; cases hc; decide
  · intro c hc
    rw [List.getLast?_concat] at hc
    cases hc; decide
  · rw [List.append_assoc, Scan.run_append]
    show (Scan.mk (d + 1) none false).run (source.toList ++ [')']) = _
    rw [Scan.run_append, h.scan (d + 1) (by omega)]
    simp [Scan.run, Scan.step]
  · obtain ⟨ts, f, e, hts, he, hrun⟩ := h.run
    have hopen : tokens ['('] = some [.opening] := by decide
    have hclose : tokens [')'] = some [.closing] := by decide
    refine ⟨[.opening] ++ ts ++ [.closing], f.complete e, ?_, he, fun outer outside => ?_⟩
    · refine tokens_append (fun c _ d hd => ?_) (tokens_append (fun c hc d _ => ?_) hopen hts)
        hclose
      · cases hd; exact (joined_bracket rfl).1
      · cases hc; exact (joined_bracket rfl).2
    · rw [State.run_append, State.run_append]
      show ((((State.operand .empty (outer :: outside)).run ts).bind fun next =>
        next.run [.closing])) = _
      rw [hrun]
      rfl

/-- Source of an expression with a value that is an operand if it is atomic. -/
structure IsExpr (memory : String → Option Int) (source : String) (v : Int) : Prop where
  reads : Reads memory source v
  operand : isAtomic source = true → IsOperand memory source v

theorem IsOperand.isExpr (h : IsOperand memory source v) : IsExpr memory source v :=
  ⟨h.reads, fun _ => h⟩

theorem IsExpr.isOperand_paren (h : IsExpr memory source v) :
    IsOperand memory (Source.paren source) v := by
  unfold Source.paren
  split_ifs with hatomic
  · exact h.operand hatomic
  · exact h.reads.isOperand_parens

/-! ### Operators -/

inductive Operation where
  | add
  | subtract
  | multiply

namespace Operation

/-- What an operation does. -/
def apply : Operation → Int → Int → Int
  | .add, m, n => m + n
  | .subtract, m, n => m - n
  | .multiply, m, n => m * n

/-- The operator between the operands. -/
def sign : Operation → String
  | .add => "+"
  | .subtract => "-"
  | .multiply => "*"

def token : Operation → Token
  | .add => .plus
  | .subtract => .minus
  | .multiply => .times

/-- What an operator behind its left side leaves to be read. -/
def frame (left : Expr) : Operation → Frame
  | .add => ⟨id, .sum left⟩
  | .subtract => ⟨id, .difference left⟩
  | .multiply => ⟨.product left, id⟩

theorem step_token (op : Operation) (left : Expr) (outside : List Frame) :
    (State.operator .empty left outside).step op.token =
      some (.operand (op.frame left) outside) := by
  cases op <;> rfl

theorem value?_complete_frame (op : Operation) {left right : Expr} {m n : Int}
    (hm : left.value? memory = some m) (hn : right.value? memory = some n) :
    ((op.frame left).complete right).value? memory = some (op.apply m n) := by
  cases op <;> simp [frame, Frame.complete, Expr.value?, apply, hm, hn]

theorem sign_chars (op : Operation) :
    ∃ c ∈ ['+', '-', '*'], (" " ++ op.sign ++ " ").toList = [' ', c, ' '] := by
  cases op
  · exact ⟨'+', by decide, by decide⟩
  · exact ⟨'-', by decide, by decide⟩
  · exact ⟨'*', by decide, by decide⟩

theorem tokens_sign (op : Operation) : tokens (" " ++ op.sign ++ " ").toList = some [op.token] := by
  cases op <;> decide

end Operation

theorem IsOperand.ne_nil (h : IsOperand memory source v) : source.toList ≠ [] := by
  obtain ⟨ts, e, hts, -, hrun⟩ := h.run
  intro hnil
  rw [hnil] at hts
  cases hts
  exact absurd (hrun .empty []) (by simp [State.run])

variable {a b : String} {m n : Int}

theorem toList_binary (op : Operation) (a b : String) : (a ++ (" " ++ op.sign ++ " ") ++ b).toList =
    a.toList ++ (" " ++ op.sign ++ " ").toList ++ b.toList := by
  rw [String.toList_append, String.toList_append]

theorem IsOperand.reads_binary (op : Operation) (ha : IsOperand memory a m)
    (hb : IsOperand memory b n) :
    Reads memory (a ++ (" " ++ op.sign ++ " ") ++ b) (op.apply m n) := by
  obtain ⟨c, hc, hsign⟩ := op.sign_chars
  refine ⟨?_, ?_, fun d hd => ?_, ?_⟩ <;> rw [toList_binary]
  · rw [List.append_assoc, List.head?_append_of_ne_nil _ ha.ne_nil]
    exact ha.first
  · rw [List.getLast?_append_of_ne_nil _ hb.ne_nil]
    exact hb.last
  · have hstep (e : Char) (he : e ∈ [' ', '+', '-', '*']) := Scan.step_sign he hd
    have hmiddle : (Scan.mk d none false).run (" " ++ op.sign ++ " ").toList =
        some ⟨d, none, false⟩ := by
      rw [hsign]
      simp [Scan.run, hstep, List.mem_cons_of_mem _ hc]
    rw [Scan.run_append, Scan.run_append, ha.scan d hd.le, Option.bind_some, hmiddle,
      Option.bind_some, hb.scan d hd.le]
  · obtain ⟨ts, left, hts, hm, hrun⟩ := ha.run
    obtain ⟨us, right, hus, hn, hrun'⟩ := hb.run
    refine ⟨ts ++ [op.token] ++ us, op.frame left, right, ?_, op.value?_complete_frame hm hn,
      fun outside => ?_⟩
    · refine tokens_append (fun c hc d hd =>
        ?_) (tokens_append (fun c hc d hd => ?_) hts op.tokens_sign) hus
      · rw [hsign, List.getLast?_append_of_ne_nil _ (by simp)] at hc
        cases hc
        exact (joined_blank (hb.first d hd)).2
      · rw [hsign] at hd
        cases hd
        exact (joined_blank (ha.last c hc)).1
    · rw [State.run_append, State.run_append, hrun]
      simp only [State.run, List.foldlM_cons, List.foldlM_nil, Option.bind_some, op.step_token,
        Option.bind_eq_bind, Option.pure_def]
      exact hrun' _ outside

/-- The blank in front of the operator is outside brackets. -/
theorem IsOperand.not_isAtomic_binary (op : Operation) (ha : IsOperand memory a m) (b : String) :
    isAtomic (a ++ (" " ++ op.sign ++ " ") ++ b) = false := by
  obtain ⟨c, -, hsign⟩ := op.sign_chars
  have hscan : Scan.start.run (a ++ (" " ++ op.sign ++ " ") ++ b).toList = none := by
    rw [toList_binary, hsign, List.append_assoc, Scan.run_append, Scan.start, ha.scan 0 le_rfl]
    rfl
  unfold isAtomic
  split
  · rfl
  · next hchars => rw [← hchars, hscan]; simp

theorem IsOperand.binary (op : Operation) (ha : IsOperand memory a m) (hb : IsOperand memory b n) :
    IsExpr memory (a ++ (" " ++ op.sign ++ " ") ++ b) (op.apply m n) :=
  ⟨ha.reads_binary op hb,
    fun hatomic => by rw [ha.not_isAtomic_binary op b] at hatomic; cases hatomic⟩

/-! ### Words and numbers -/

theorem isOperand_word {t : Token} {e : Expr} (hword : ∀ c ∈ source.toList, charKind c = .word)
    (htoken : token? source.toList = some [t])
    (hstep : ∀ f outside, (State.operand f outside).step t = some (.operator f e outside))
    (he : e.value? memory = some v) : IsOperand memory source v := by
  have hblank {c : Char} (hc : c ∈ source.toList) : c ≠ ' ' := by
    rintro rfl
    exact absurd (hword ' ' hc) (by decide)
  have hne : source.toList ≠ [] := by
    intro hnil
    rw [hnil] at htoken
    cases htoken
  refine ⟨fun c hc => hblank (List.mem_of_mem_head? hc), fun c hc =>
    hblank (List.mem_of_mem_getLast? hc),
    fun d _ => Scan.run_word hword d, [t], e, ?_, he, fun f outside => ?_⟩
  · rw [tokens_word hne hword, htoken]
  · simp [State.run, hstep]

theorem charKind_of_isDigit {c : Char} (h : c.isDigit = true) : charKind c = .word := by
  simp [charKind, Char.isAlphanum, h]

theorem token?_digits {c : Char} {cs : List Char} (h : ∀ d ∈ c :: cs, d.isDigit = true)
    (hzero : c ≠ '0' ∨ cs = []) :
    token? (c :: cs) = some [.number (Nat.ofDigitChars 10 (c :: cs) 0)] := by
  have hc := h c (List.mem_cons_self ..)
  have hmark (m : Char) (hm : m.isDigit = false) : c ≠ m := by
    rintro rfl
    rw [hc] at hm
    cases hm
  have hall : (c :: cs).all Char.isDigit = true := List.all_eq_true.2 h
  have hnumber : (c != '0' || cs.isEmpty) = true := by simpa using hzero
  rw [token?]
  · simp [charKind_of_isDigit hc, hc, hall, hnumber]
  all_goals exact fun hmatch => absurd hmatch (hmark _ (by decide))

theorem toList_toString_nat (n : Nat) : (toString n).toList = Text.decimal n := by
  simp [toString, Nat.repr, Text.decimal]

theorem isOperand_numeral (n : Nat) : IsOperand memory (toString n) n := by
  have hdigits : ∀ c ∈ Text.decimal n, c.isDigit = true := fun c hc =>
    Text.isDigit_of_mem_decimal hc
  have htoken : token? (Text.decimal n) = some [.number n] := by
    cases hchars : Text.decimal n with
    | nil => exact absurd hchars (Text.decimal_ne_nil n)
    | cons c cs =>
      rw [token?_digits (hchars ▸ hdigits) ?_, ← hchars, Text.decimal,
        Nat.ofDigitChars_ten_toDigits]
      by_cases hn : n = 0
      · subst hn
        cases hchars
        exact .inr rfl
      · have hhead := Text.head_decimal (Nat.pos_of_ne_zero hn)
        rw [hchars, List.head?_cons] at hhead
        exact .inl fun hc => hhead (congrArg some hc)
  refine isOperand_word (t := .number n) (e := .number n) ?_ ?_ (fun _ _ => rfl) rfl <;>
    rw [toList_toString_nat]
  · exact fun c hc => charKind_of_isDigit (hdigits c hc)
  · exact htoken

theorem isOperand_integer {n : Int} (hn : 0 ≤ n) : IsOperand memory (toString n) n := by
  obtain ⟨k, rfl⟩ := Int.eq_ofNat_of_zero_le hn
  exact isOperand_numeral k

theorem toList_negative (k : Nat) :
    (toString (Int.negSucc k)).toList = ['-'] ++ (toString (k + 1)).toList := by
  simp [toString, Int.repr]

theorem not_isAtomic_negative {n : Int} (hn : n < 0) : isAtomic (toString n) = false := by
  obtain ⟨k, rfl⟩ := Int.eq_negSucc_of_lt_zero hn
  rw [isAtomic, toList_negative]
  rfl

theorem reads_integer (n : Int) : Reads memory (toString n) n := by
  by_cases hn : 0 ≤ n
  · exact (isOperand_integer hn).reads
  obtain ⟨k, rfl⟩ := Int.eq_negSucc_of_lt_zero (Int.not_le.1 hn)
  have hoperand : IsOperand memory (toString (k + 1)) (k + 1 : Nat) := isOperand_numeral (k + 1)
  refine ⟨?_, ?_, fun d hd => ?_, ?_⟩ <;> rw [toList_negative]
  · intro c hc; cases hc; decide
  · rw [List.getLast?_append_of_ne_nil _ hoperand.ne_nil]
    exact hoperand.last
  · have hminus : (Scan.mk d none false).run ['-'] = some ⟨d, none, false⟩ := by
      rw [Scan.run, Scan.step_sign (by decide) hd]
      rfl
    rw [Scan.run_append, hminus, Option.bind_some, hoperand.scan d hd.le]
  · obtain ⟨ts, e, hts, he, hrun⟩ := hoperand.run
    have hminus : tokens ['-'] = some [.minus] := by decide
    refine ⟨[.minus] ++ ts, ⟨.negated, id⟩, e, tokens_append (fun c hc d hd => ?_) hminus hts, ?_,
      fun outside => ?_⟩
    · cases hc
      have hd : d.isDigit = true := by
        rw [toList_toString_nat] at hd
        exact Text.isDigit_of_mem_decimal (List.mem_of_mem_head? hd)
      rw [joined, charKind_of_isDigit hd]
      rfl
    · show Expr.value? memory (.negated e) = _
      rw [Expr.value?, he]
      rfl
    · rw [State.run_append]
      exact hrun ⟨.negated, id⟩ outside

theorem isExpr_integer (n : Int) : IsExpr memory (toString n) n := by
  refine ⟨reads_integer n, fun hatomic => isOperand_integer (Int.not_lt.1 fun hn => ?_)⟩
  rw [not_isAtomic_negative hn] at hatomic
  cases hatomic

end ScratchExport.Arithmetic
