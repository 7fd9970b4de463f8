import Mathlib.Algebra.Order.Group.Unbundled.Abs
import Mathlib.Data.Rat.Floor
import ScratchExport.Proofs.ClosedSource
import ScratchExport.Proofs.InitialValues
import ScratchExport.Proofs.NumericTexts

/-!
# Evaluating numeric source

The numeric source of expressions, read as JavaScript reads it and evaluated over the numbers of the
running program: the operators `+`, `-`, `*`, `/` and `%`, a minus at the start of parentheses,
calls of the conversion to numbers and of three functions, numeric literals, `Infinity` and string
literals. A `Reader` goes through the characters once. It puts words and string literals together
and hands each token on to a `State`, which evaluates as it reads: `*`, `/` and `%` take the product
so far as their left side, `+` and `-` the whole sum so far.

`IsOperand` and `IsExpr` are what the source of a value has to be to stand beside an operator, and
to stand in parentheses.
-/

namespace ScratchExport.Execution

/-! ### Operators and functions -/

namespace Number

def mul : Number → Number → Number
  | .nan, _ | _, .nan => .nan
  | .finite p, .finite q => .finite (p * q)
  | .finite p, .infinite b => if p = 0 then .nan else .infinite (b ^^ decide (p < 0))
  | .infinite a, .finite q => if q = 0 then .nan else .infinite (a ^^ decide (q < 0))
  | .infinite a, .infinite b => .infinite (a ^^ b)

/-- The quotient. There is one zero, and a quotient by it has the sign of the dividend. -/
def div : Number → Number → Number
  | .nan, _ | _, .nan => .nan
  | .finite p, .finite q =>
    if q ≠ 0 then .finite (p / q) else if p = 0 then .nan else .infinite (p < 0)
  | .finite _, .infinite _ => .finite 0
  | .infinite a, .finite q => .infinite (a ^^ decide (q < 0))
  | .infinite _, .infinite _ => .nan

/-- A rational without its fraction. -/
def truncate (q : ℚ) : ℤ :=
  if q < 0 then ⌈q⌉ else ⌊q⌋

/-- The remainder, which has the sign of the dividend. -/
def rem : Number → Number → Number
  | .finite p, .finite q => if q = 0 then .nan else .finite (p - q * truncate (p / q))
  | .finite p, .infinite _ => .finite p
  | _, _ => .nan

/-- A function of rationals that keeps infinities and NaN. -/
def onFinite (f : ℚ → ℚ) : Number → Number
  | .finite q => .finite (f q)
  | x => x

def abs : Number → Number
  | .infinite _ => .infinite false
  | x => x.onFinite (|·|)

def floor : Number → Number :=
  onFinite fun q => ⌊q⌋

def ceil : Number → Number :=
  onFinite fun q => ⌈q⌉

end Number

/-- An operator between two operands. -/
inductive Operation where
  | add
  | subtract
  | multiply
  | divide
  | remainder
  deriving DecidableEq

namespace Operation

def apply : Operation → Number → Number → Number
  | .add => (· + ·)
  | .subtract => (· - ·)
  | .multiply => .mul
  | .divide => .div
  | .remainder => .rem

/-- How an operator is written. -/
def sign : Operation → String
  | .add => "+"
  | .subtract => "-"
  | .multiply => "*"
  | .divide => "/"
  | .remainder => "%"

def ofSign? : Char → Option Operation
  | '+' => some .add
  | '-' => some .subtract
  | '*' => some .multiply
  | '/' => some .divide
  | '%' => some .remainder
  | _ => none

/-- The operators that bind tighter than the others. -/
def isProduct (op : Operation) : Bool :=
  op != .add && op != .subtract

/-- Only numbers have an operator between them here. -/
def onValues? (op : Operation) : Val → Val → Option Val
  | .number x, .number y => some (.number (op.apply x y))
  | _, _ => none

end Operation

/-- The negative of a value. -/
def Val.negated? : Val → Option Val
  | .number x => some (.number (-x))
  | _ => none

/-- A function that source calls with one value. -/
inductive Callee where
  | toNumber
  | abs
  | floor
  | ceil

namespace Callee

def name : Callee → String
  | .toNumber => "this.toNumber"
  | .abs => "Math.abs"
  | .floor => "Math.floor"
  | .ceil => "Math.ceil"

def ofName? (s : String) : Option Callee :=
  [toNumber, abs, floor, ceil].find? (·.name == s)

/-- What a call gives. Only the conversion takes a text. -/
def result? : Callee → Val → Option Val
  | .toNumber, v => some (.number v.cast)
  | .abs, .number x => some (.number x.abs)
  | .floor, .number x => some (.number x.floor)
  | .ceil, .number x => some (.number x.ceil)
  | _, _ => none

end Callee

/-! ### Tokens -/

inductive Token where
  | value (v : Val)
  | sign (op : Operation)
  | opening
  | closing
  /-- A name with the opening parenthesis behind it. -/
  | call (f : Callee)

/-- What has been read inside one pair of parentheses: what the next operand makes of the product so
far, and what that product makes of the sum so far. -/
structure Frame where
  product : Val → Option Val
  sum : Val → Option Val

namespace Frame

/-- Nothing has been read yet. -/
def empty : Frame := ⟨some, some⟩

/-- The value when this is the last operand. -/
def complete (f : Frame) (v : Val) : Option Val := do
  f.sum (← f.product v)

end Frame

/-- An open parenthesis: what is around it, and what becomes of the value in it. -/
structure Opened where
  frame : Frame
  call : Val → Option Val

/-- Between tokens: nothing has been read inside the innermost parentheses, an operand comes next,
or an operand has been read. -/
inductive State where
  | start (outside : List Opened)
  | operand (frame : Frame) (outside : List Opened)
  | operator (frame : Frame) (v : Val) (outside : List Opened)

namespace State

/-- A token where an operand comes next. -/
def accept (f : Frame) (outside : List Opened) : Token → Option State
  | .value v => some (.operator f v outside)
  | .opening => some (.start (⟨f, some⟩ :: outside))
  | .call g => some (.start (⟨f, g.result?⟩ :: outside))
  | _ => none

/-- Read one token. A minus in front of an operand is read at the start of parentheses only. -/
def step : State → Token → Option State
  | .start outside, .sign .subtract => some (.operand ⟨Val.negated?, some⟩ outside)
  | .start outside, t => accept .empty outside t
  | .operand f outside, t => accept f outside t
  | .operator f v outside, .sign op =>
    if op.isProduct then do
      return .operand { f with product := op.onValues? (← f.product v) } outside
    else do return .operand ⟨some, op.onValues? (← f.complete v)⟩ outside
  | .operator f v (outer :: outside), .closing => do
    return .operator outer.frame (← outer.call (← f.complete v)) outside
  | _, _ => none

/-- The value that has been read, if no parenthesis is open and no operand is missing. -/
def value? : State → Option Val
  | .operator f v [] => f.complete v
  | _ => none

end State

/-! ### Characters -/

/-- Between tokens, or inside a word or a string literal of which some characters have been read,
the last one first. -/
inductive Mode where
  | between
  | word (read : List Char)
  | quoted (read : List Char) (escaped : Bool)

structure Reader where
  mode : Mode
  state : State

def isWordChar (c : Char) : Bool :=
  c.isAlphanum || c == '.' || c == '_' || c == '$'

/-- Whether a character goes on with a word. A sign does so behind the exponent mark of a number. -/
def extendsWord (read : List Char) (c : Char) : Bool :=
  isWordChar c || ((c == '+' || c == '-') && read.head?.any (Literal.exponentMarks.contains ·) &&
    read.getLast?.any fun first => first.isDigit || first == '.')

/-- The value of a word: an infinity or a literal. -/
def wordValue? (cs : List Char) : Option Val :=
  if cs = "Infinity".toList then some (.number (.infinite false)) else (literal? cs).map .number

/-- The text of a string literal of which the characters between the quotes are given. -/
def quotedText? (cs : List Char) : Option Val :=
  match Json.read? (String.ofList ('"' :: cs ++ ['"'])) with
  | some (.text s) => some (.text s)
  | _ => none

/-- The token of one character. -/
def mark? (c : Char) : Option Token :=
  if c = '(' then some .opening
  else if c = ')' then some .closing
  else (Operation.ofSign? c).map .sign

namespace Reader

/-- The state when a word ends here. -/
def settle : Reader → Option State
  | ⟨.between, state⟩ => some state
  | ⟨.word read, state⟩ => do state.step (.value (← wordValue? read.reverse))
  | ⟨.quoted .., _⟩ => none

/-- The first character of a token, or a blank. -/
def begin (state : State) (c : Char) : Option Reader :=
  if c = ' ' then some ⟨.between, state⟩
  else if c = '"' then some ⟨.quoted [] false, state⟩
  else if isWordChar c then some ⟨.word [c], state⟩
  else do return ⟨.between, ← state.step (← mark? c)⟩

/-- Read one character. -/
def step : Reader → Char → Option Reader
  | ⟨.between, state⟩, c => begin state c
  | ⟨.word read, state⟩, c =>
    if extendsWord read c then some ⟨.word (c :: read), state⟩
    else if c = '(' then do
      return ⟨.between, ← state.step (.call (← Callee.ofName? (String.ofList read.reverse)))⟩
    else do begin (← settle ⟨.word read, state⟩) c
  | ⟨.quoted read escaped, state⟩, c =>
    if !escaped && c ==
      '"' then do return ⟨.between, ← state.step (.value (← quotedText? read.reverse))⟩
    else some ⟨.quoted (c :: read) (!escaped && c == '\\'), state⟩

/-- Read characters. -/
def run (reader : Reader) (cs : List Char) : Option Reader :=
  cs.foldlM step reader

end Reader

/-- The value of source. -/
def evaluate (source : String) : Option Val := do
  let reader ← (Reader.mk .between (.start [])).run source.toList
  (← reader.settle).value?

example :
    evaluate "-2 - this.toNumber(\" 0x10 \") * Math.floor(-1.5e-1) % 3 - 4" =
      some (.number (.finite (-5))) := by
  decide +kernel

example :
    evaluate "Infinity - 5 / (0)" = some (.number .nan) ∧ evaluate "1 --1" = none ∧
    evaluate "\"1\" + 1" = none := by
  decide +kernel

/-! ### What a reader does with pieces of source -/

/-- A state in which an operand comes next. -/
inductive Awaits : State → Frame → List Opened → Prop
  | start (outside : List Opened) : Awaits (.start outside) .empty outside
  | operand (f : Frame) (outside : List Opened) : Awaits (.operand f outside) f outside

theorem Awaits.step_value {s : State} {f : Frame} {outside : List Opened} (h : Awaits s f outside)
    (v : Val) : s.step (.value v) = some (.operator f v outside) := by
  cases h <;> rfl

namespace Reader
variable {reader : Reader} {s : State} {c : Char} {cs read : List Char}

theorem run_cons (reader : Reader) (c : Char) (cs : List Char) :
    reader.run (c :: cs) = (reader.step c).bind fun next => next.run cs := by
  rw [run, List.foldlM_cons]
  rfl

theorem run_append (reader : Reader) (cs ds : List Char) :
    reader.run (cs ++ ds) = (reader.run cs).bind fun next => next.run ds := by
  rw [run, List.foldlM_append]
  rfl

theorem run_append_of {next : Reader} (h : reader.run cs = some next) (ds : List Char) :
    reader.run (cs ++ ds) = next.run ds := by
  rw [run_append, h, Option.bind_some]

/-- A blank and a closing parenthesis end a word. -/
theorem step_of_settle (h : reader.settle = some s) (hc : c = ' ' ∨ c = ')') :
    reader.step c = begin s c := by
  obtain ⟨mode, state⟩ := reader
  cases mode with
  | between => cases h; rfl
  | word read =>
    have hword : extendsWord read c = false := by rcases hc with rfl | rfl <;> rfl
    have hopening : c ≠ '(' := by rcases hc with rfl | rfl <;> decide
    rw [step, hword, if_neg Bool.false_ne_true, if_neg hopening, h]
    rfl
  | quoted read escaped => cases h

/-! #### Words -/

theorem run_wordChars (h : ∀ c ∈ cs, isWordChar c = true) :
    (Reader.mk (.word read) s).run cs = some ⟨.word (cs.reverse ++ read), s⟩ := by
  induction cs generalizing read with
  | nil => rfl
  | cons c cs ih =>
    rw [List.forall_mem_cons] at h
    have hextends : extendsWord read c = true := by rw [extendsWord, h.1, Bool.true_or]
    rw [run_cons, step, if_pos hextends, Option.bind_some, ih h.2, List.reverse_cons,
      List.append_assoc, List.singleton_append]

theorem begin_wordChar (h : isWordChar c = true) : begin s c = some ⟨.word [c], s⟩ := by
  have hblank : c ≠ ' ' := by rintro rfl; revert h; decide
  have hquote : c ≠ '"' := by rintro rfl; revert h; decide
  rw [begin, if_neg hblank, if_neg hquote, if_pos h]

theorem run_word (hne : cs ≠ []) (h : ∀ c ∈ cs, isWordChar c = true) :
    (Reader.mk .between s).run cs = some ⟨.word cs.reverse, s⟩ := by
  cases cs with
  | nil => exact absurd rfl hne
  | cons c cs =>
    rw [List.forall_mem_cons] at h
    rw [run_cons, step, begin_wordChar h.1, Option.bind_some, run_wordChars h.2, List.reverse_cons]

theorem isWordChar_of_isDigit (h : c.isDigit = true) : isWordChar c = true := by
  simp [isWordChar, Char.isAlphanum, h]

/-- The sign of an exponent goes on with the number. -/
theorem run_exponent (h : Literal.ExponentPart Char.isDigit cs)
    (hread : (read.getLast?.any fun first => first.isDigit || first == '.') = true) :
    (Reader.mk (.word read) s).run cs = some ⟨.word (cs.reverse ++ read), s⟩ := by
  cases h with
  | none => rfl
  | @some e sign digits he hsign hdigits =>
    have hmark : isWordChar e = true := by
      simp only [Literal.exponentMarks, List.mem_cons, List.not_mem_nil, or_false] at he
      rcases he with rfl | rfl <;> rfl
    have hfirst : (Reader.mk (.word read) s).run [e] = some ⟨.word (e :: read), s⟩ :=
      run_wordChars (List.forall_mem_singleton.2 hmark)
    have hlast : ((e :: read).getLast?.any fun first => first.isDigit || first == '.') = true := by
      cases read with
      | nil => cases hread
      | cons d read => exact hread
    have hsecond :
        (Reader.mk (.word (e :: read)) s).run sign =
          some ⟨.word (sign.reverse ++ e :: read), s⟩ := by
      have hextends {c : Char} (hc : (c == '+' || c == '-') = true) :
          extendsWord (e :: read) c = true := by
        have hcontains : Literal.exponentMarks.contains e = true := List.contains_iff_mem.2 he
        rw [extendsWord, hc, hlast, List.head?_cons, Option.any_some, hcontains]
        simp
      simp only [Literal.signs, List.mem_cons, List.not_mem_nil, or_false] at hsign
      rcases hsign with rfl | rfl | rfl
      · rfl
      all_goals
        rw [run_cons, step, if_pos (hextends rfl)]
        rfl
    have hthird : (Reader.mk (.word (sign.reverse ++ e :: read)) s).run digits =
        some ⟨.word _, s⟩ :=
      run_wordChars fun c hc => isWordChar_of_isDigit (hdigits.all c hc)
    have hparts : e :: sign ++ digits = [e] ++ (sign ++ digits) := rfl
    rw [hparts, run_append_of hfirst, run_append_of hsecond, hthird]
    simp

theorem run_decimal (h : Literal.UnsignedDecimal Char.isDigit cs) :
    (Reader.mk .between s).run cs = some ⟨.word cs.reverse, s⟩ := by
  -- a mantissa, of which the first character is seen at the exponent
  have hmantissa {mantissa exponent : List Char} (hne : mantissa ≠ [])
      (hall : ∀ c ∈ mantissa, c.isDigit = true ∨ c = '.')
      (he : Literal.ExponentPart Char.isDigit exponent) :
      (Reader.mk .between s).run (mantissa ++ exponent) =
        some ⟨.word (mantissa ++ exponent).reverse, s⟩ := by
    have hword : ∀ c ∈ mantissa, isWordChar c = true := fun c hc => by
      rcases hall c hc with h | rfl
      · exact isWordChar_of_isDigit h
      · rfl
    have hfirst : (mantissa.reverse.getLast?.any fun first => first.isDigit || first == '.') =
        true := by
      obtain ⟨c, rest, rfl⟩ := List.exists_cons_of_ne_nil hne
      simpa using hall c List.mem_cons_self
    rw [run_append_of (run_word hne hword), run_exponent he hfirst, List.reverse_append]
  cases h with
  | whole hdigits he => exact hmantissa hdigits.some (fun c hc => .inl (hdigits.all c hc)) he
  | point hbefore hafter he =>
    refine hmantissa (by simp) (fun c hc => ?_) he
    rcases List.mem_append.1 hc with hc | hc
    · exact .inl (hbefore.all c hc)
    · exact (List.mem_cons.1 hc).symm.imp_left (hafter c)
  | fraction hafter he =>
    exact hmantissa (List.cons_ne_nil _ _) (fun c hc =>
      (List.mem_cons.1 hc).symm.imp_left (hafter.all c)) he

/-! #### String literals -/

theorem run_quoted_plain (h : ∀ c ∈ cs, c ≠ '"' ∧ c ≠ '\\') :
    (Reader.mk (.quoted read false) s).run cs = some ⟨.quoted (cs.reverse ++ read) false, s⟩ := by
  induction cs generalizing read with
  | nil => rfl
  | cons c cs ih =>
    rw [List.forall_mem_cons] at h
    have hstep : (Reader.mk (.quoted read false) s).step c =
        some ⟨.quoted (c :: read) false, s⟩ := by
      simp [step, h.1.1, h.1.2]
    rw [run_cons, hstep, Option.bind_some, ih h.2, List.reverse_cons, List.append_assoc,
      List.singleton_append]

/-- A character that is written with a backslash ends no string literal. -/
theorem run_escapeChar (c : Char) : (Reader.mk (.quoted read false) s).run (Text.escapeChar c) =
    some ⟨.quoted ((Text.escapeChar c).reverse ++ read) false, s⟩ := by
  rcases Text.escapeChar_cases c with ⟨heq, hquote, hbackslash, -⟩ | ⟨⟨d, rest, heq, -, hrest⟩, -⟩
  · rw [heq]
    exact run_quoted_plain (List.forall_mem_singleton.2 ⟨hquote, hbackslash⟩)
  · have hplain : ∀ e ∈ rest, e ≠ '"' ∧ e ≠ '\\' := fun e he => by
      obtain ⟨k, rfl⟩ := hrest e he
      exact ⟨Nat.digitChar_ne '"' rfl, Nat.digitChar_ne '\\' rfl⟩
    rw [heq, run_cons, step, if_neg (by simp), Option.bind_some, run_cons, step, if_neg (by simp),
      Option.bind_some]
    show (Reader.mk (.quoted (d :: '\\' :: read) false) s).run rest = _
    rw [run_quoted_plain hplain]
    simp

theorem run_escaped (cs : List Char) :
    (Reader.mk (.quoted read false) s).run (cs.flatMap Text.escapeChar) =
    some ⟨.quoted ((cs.flatMap Text.escapeChar).reverse ++ read) false, s⟩ := by
  induction cs generalizing read with
  | nil => rfl
  | cons c cs ih =>
    rw [List.flatMap_cons, run_append_of (run_escapeChar c), ih, List.reverse_append,
      List.append_assoc]

end Reader

/-! ### Operands and expressions -/

open Source (Leads paren isAtomic Scan)

variable {source : String} {v : Val}

/-- Source that gives a value wherever an operand may come. -/
structure IsOperand (source : String) (v : Val) : Prop where
  closed : Leads 0 0 source
  run : ∀ {s f outside}, Awaits s f outside → ∃ reader,
    (Reader.mk .between s).run source.toList = some reader ∧
    reader.settle = some (.operator f v outside)

/-- Source that gives a value inside parentheses, and also as an operand if it is atomic. -/
structure IsExpr (source : String) (v : Val) : Prop where
  closed : Leads 0 0 source
  run : ∀ outside, ∃ reader f w, (Reader.mk .between (.start outside)).run source.toList =
    some reader ∧ reader.settle = some (.operator f w outside) ∧ f.complete w = some v
  operand : isAtomic source = true → IsOperand source v

theorem IsOperand.isExpr (h : IsOperand source v) : IsExpr source v where
  closed := h.closed
  run outside := by
    obtain ⟨reader, hrun, hsettle⟩ := h.run (.start outside)
    exact ⟨reader, .empty, v, hrun, hsettle, rfl⟩
  operand _ := h

theorem IsExpr.evaluate_eq (h : IsExpr source v) : evaluate source = some v := by
  obtain ⟨reader, f, w, hrun, hsettle, hcomplete⟩ := h.run []
  rw [evaluate, hrun]
  show reader.settle.bind State.value? = some v
  rw [hsettle]
  exact hcomplete

theorem IsExpr.isOperand_opened {opening : String} {call : Val → Option Val} {w : Val}
    (h : IsExpr source v) (hleads : Leads 0 1 opening)
    (hopening : ∀ {s f outside}, Awaits s f outside →
      (Reader.mk .between s).run opening.toList = some ⟨.between, .start (⟨f, call⟩ :: outside)⟩)
    (hcall : call v = some w) : IsOperand (opening ++ source ++ ")") w := by
  refine ⟨hleads.between h.closed (by decide), fun {s f outside} hs => ?_⟩
  obtain ⟨reader, g, u, hrun, hsettle, hcomplete⟩ := h.run (⟨f, call⟩ :: outside)
  refine ⟨⟨.between, .operator f w outside⟩, ?_, rfl⟩
  have hstate : (State.operator g u (⟨f, call⟩ :: outside)).step .closing =
      some (.operator f w outside) := by
    simp [State.step, hcomplete, hcall]
  have hclosing : reader.step ')' = some ⟨.between, .operator f w outside⟩ := by
    rw [Reader.step_of_settle hsettle (.inr rfl)]
    show (do
      return Reader.mk .between (← (State.operator g u (⟨f, call⟩ :: outside)).step .closing)) = _
    rw [hstate]
    rfl
  rw [String.toList_append, String.toList_append, List.append_assoc,
    Reader.run_append_of (hopening hs), Reader.run_append_of hrun]
  show reader.run [')'] = _
  rw [Reader.run_cons, hclosing]
  rfl

theorem IsExpr.isOperand_paren (h : IsExpr source v) : IsOperand (paren source) v := by
  unfold paren
  split_ifs with hatomic
  · exact h.operand hatomic
  · exact h.isOperand_opened (by decide) (fun hs => by cases hs <;> rfl) rfl

theorem IsExpr.isOperand_call {w : Val} (h : IsExpr source v) (g : Callee)
    (hw : g.result? v = some w) : IsOperand (g.name ++ "(" ++ source ++ ")") w := by
  refine h.isOperand_opened (by cases g <;> decide) (fun hs => ?_) hw
  cases g <;> cases hs <;> rfl

/-! ### Operators -/

theorem Operation.toList_sign (op : Operation) :
    (" " ++ op.sign ++ " ").toList = ' ' :: (op.sign ++ " ").toList := by
  rw [String.append_assoc, String.toList_append]
  rfl

theorem Operation.leads_sign (op : Operation) : Leads 0 0 (" " ++ op.sign ++ " ") := by
  cases op <;> decide

/-- What an operator behind its left side leaves to be read. -/
def Operation.frame (op : Operation) (x : Number) : Frame :=
  if op.isProduct then ⟨op.onValues? (.number x), some⟩ else ⟨some, op.onValues? (.number x)⟩

theorem Operation.complete_frame (op : Operation) (x y : Number) :
    (op.frame x).complete (.number y) = some (.number (op.apply x y)) := by
  cases op <;> rfl

theorem Operation.run_sign (op : Operation) {x : Number} {outside : List Opened} {reader : Reader}
    (h : reader.settle = some (.operator .empty (.number x) outside)) :
    reader.run (" " ++ op.sign ++ " ").toList = some ⟨.between, .operand (op.frame x) outside⟩ := by
  have hblank : reader.step ' ' = some ⟨.between, .operator .empty (.number x) outside⟩ :=
    Reader.step_of_settle h (.inl rfl)
  rw [op.toList_sign, Reader.run_cons, hblank]
  cases op <;> rfl

/-- The blank in front of an operator is outside brackets. -/
theorem not_isAtomic_binary {a : String} (ha : Leads 0 0 a) (op : Operation) (b : String) :
    isAtomic (paren a ++ (" " ++ op.sign ++ " ") ++ b) = false := by
  have hscan : Scan.start.run (paren a ++ (" " ++ op.sign ++ " ") ++ b).toList = none := by
    rw [String.toList_append, String.toList_append, op.toList_sign, List.append_assoc,
      Scan.run_append, (Source.isOperand_paren ha).run]
    rfl
  unfold isAtomic
  split
  · rfl
  · next hchars => rw [← hchars, hscan]; simp

theorem IsExpr.binary {a b : String} {x y : Number} (op : Operation) (ha : IsExpr a (.number x))
    (hb : IsExpr b (.number y)) :
    IsExpr (paren a ++ (" " ++ op.sign ++ " ") ++ paren b) (.number (op.apply x y)) where
  closed := by
    have hparen {s : String} (h : Leads 0 0 s) : Leads 0 0 (paren s) :=
      Compile.sourceLaw_leads.paren h
    exact ((hparen ha.closed).append op.leads_sign).append (hparen hb.closed)
  run outside := by
    obtain ⟨left, hleft, hsettle⟩ := ha.isOperand_paren.run (.start outside)
    obtain ⟨right, hright, hsettle'⟩ := hb.isOperand_paren.run (.operand (op.frame x) outside)
    refine ⟨right, op.frame x, _, ?_, hsettle', op.complete_frame x y⟩
    rw [String.toList_append, String.toList_append, List.append_assoc, Reader.run_append_of hleft,
      Reader.run_append_of (op.run_sign hsettle), hright]
  operand hatomic := by
    rw [not_isAtomic_binary ha.closed] at hatomic
    cases hatomic

/-! ### Literals -/

theorem isOperand_word (hclosed : Leads 0 0 source)
    (hrun : ∀ s, (Reader.mk .between s).run source.toList = some ⟨.word source.toList.reverse, s⟩)
    (hvalue : wordValue? source.toList = some v) : IsOperand source v := by
  refine ⟨hclosed, fun {s f outside} hs => ⟨_, hrun s, ?_⟩⟩
  rw [Reader.settle, List.reverse_reverse, hvalue]
  exact hs.step_value v

theorem isOperand_infinity : IsOperand "Infinity" (.number (.infinite false)) :=
  isOperand_word (by decide) (fun _ => rfl) rfl

theorem unsignedDecimal_of_literal? {cs : List Char} {n : Number} (h : literal? cs = some n) :
    Literal.UnsignedDecimal Char.isDigit cs := by
  unfold literal? at h
  split_ifs at h with hcs
  obtain ⟨hascii, -⟩ := Bool.and_eq_true_iff.1 hcs
  obtain ⟨x, hx, -⟩ := Option.map_eq_some_iff.1 h
  exact (Literal.unsignedDecimal_of_unsignedDecimal? hx).imp fun c hc =>
    Literal.isDigit_of_isAscii (List.all_eq_true.1 hascii c hc)

theorem isOperand_literal {n : Number} (hclosed : Leads 0 0 source)
    (h : literal? source.toList = some n) : IsOperand source (.number n) := by
  refine isOperand_word hclosed (fun s => Reader.run_decimal (unsignedDecimal_of_literal? h)) ?_
  have hne : source.toList ≠ "Infinity".toList := by
    intro heq
    have hnone : literal? "Infinity".toList = none := by decide +kernel
    rw [heq, hnone] at h
    cases h
  rw [wordValue?, if_neg hne, h]
  rfl

theorem IsOperand.isExpr_negative {x : Number} (h : IsOperand source (.number x)) :
    IsExpr ("-" ++ source) (.number (-x)) where
  closed := (show Leads 0 0 "-" by decide).append h.closed
  run outside := by
    obtain ⟨reader, hrun, hsettle⟩ := h.run (.operand ⟨Val.negated?, some⟩ outside)
    refine ⟨reader, _, _, ?_, hsettle, rfl⟩
    rw [String.toList_append]
    exact hrun
  operand hatomic := by
    rw [isAtomic, String.toList_append] at hatomic
    cases hatomic

theorem isExpr_numberLiteral {x : Binary64} (h : x.IsDouble) (hx : x ≠ .nan) :
    IsExpr (Literal.numberLiteral x) (.number (.ofDouble x)) := by
  cases x with
  | nan => exact absurd rfl hx
  | infinite negative =>
    cases negative with
    | false => exact isOperand_infinity.isExpr
    | true => exact isOperand_infinity.isExpr_negative
  | finite negative units =>
    have hpositive :
        IsOperand (Literal.numberLiteral (.finite false units))
        (.number (.ofDouble (.finite false units))) :=
      isOperand_literal (Compile.leads_numberLiteral _) (literal?_numberLiteral h)
    rcases Nat.eq_zero_or_pos units with rfl | hpos
    · have hzero : Number.ofDouble (.finite negative 0) = Number.ofDouble (.finite false 0) := by
        cases negative <;> rfl
      rw [Literal.numberLiteral_zero] at hpositive ⊢
      rw [hzero]
      exact hpositive.isExpr
    cases negative with
    | false => exact hpositive.isExpr
    | true =>
      have hminus : Literal.numberLiteral (.finite true units) = "-" ++
          Literal.numberLiteral (.finite false units) := by
        rw [← String.toList_inj, String.toList_append, Literal.toList_numberLiteral units hpos,
          Literal.toList_numberLiteral units hpos]
        rfl
      have hneg : Number.ofDouble (.finite true units) = -Number.ofDouble (.finite false units) :=
        Number.ofDouble_neg (x := .finite false units) rfl
      rw [hminus, hneg]
      exact hpositive.isExpr_negative

theorem isOperand_textLiteral (s : String) : IsOperand (Text.literal s) (.text s) := by
  refine ⟨Source.leads_literal s, fun {state f outside} hs =>
    ⟨⟨.between, .operator f (.text s) outside⟩, ?_, rfl⟩⟩
  have htext : quotedText? (s.toList.flatMap Text.escapeChar) = some (.text s) := by
    have hread : Json.read? (Text.literal s) = some (.text s) := (Json.readsBack_literal s).read?_eq
    rw [quotedText?]
    rw [Text.literal, Text.literalChars] at hread
    rw [hread]
  rw [Text.literal, String.toList_ofList, Text.literalChars, List.cons_append, Reader.run_cons]
  show (Reader.mk (.quoted [] false) state).run (s.toList.flatMap Text.escapeChar ++ ['"']) = _
  rw [Reader.run_append_of (Reader.run_escaped s.toList), List.append_nil, Reader.run_cons,
    Reader.step, if_pos (by rfl), List.reverse_reverse, htext]
  show (do return Reader.mk .between (← state.step (.value (.text s)))).bind _ = _
  rw [hs.step_value]
  rfl

end ScratchExport.Execution
