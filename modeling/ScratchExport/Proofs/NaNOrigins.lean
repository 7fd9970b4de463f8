import ScratchExport.Proofs.Arithmetic
import ScratchExport.Proofs.NumericSource

/-!
# Where NaN comes from

The source of arithmetic is labelled as a number that is not NaN, or only as a number; the second is
converted before it is used, and the conversion takes NaN for zero. A `Formula` is a tree of
operators and functions over literals, `isLabelled` is the label that its source gets and `value`
the number that its source evaluates to.

Sums, differences and products are labelled whatever their operands are, so with infinities the
label can be wrong. That is the only way: a labelled formula is NaN exactly if in it infinities
cancel or an infinity is multiplied by zero, with no conversion between there and the top
(`Clashes`).
-/

namespace ScratchExport

namespace Execution
namespace Number

theorem orZero_ne_nan (x : Number) : x.orZero ≠ nan := by
  cases x <;> exact Number.noConfusion

theorem add_eq_nan_iff {x y : Number} :
    x + y = nan ↔ x = nan ∨ y = nan ∨ ∃ negative, x = infinite negative ∧
    y = infinite !negative := by
  show add x y = nan ↔ _
  cases x with
  | finite p => cases y <;> simp [add]
  | infinite a =>
    cases y with
    | infinite b => cases a <;> cases b <;> simp [add]
    | _ => simp [add]
  | nan => simp [add]

theorem neg_eq_iff {x y : Number} : -x = y ↔ x = -y := by
  constructor
  · rintro rfl; exact (neg_neg x).symm
  · rintro rfl; exact neg_neg y

theorem sub_eq_nan_iff {x y : Number} :
    x - y = nan ↔ x = nan ∨ y = nan ∨ ∃ negative, x = infinite negative ∧
    y = infinite negative := by
  have hnan : -y = nan ↔ y = nan := neg_eq_iff
  have hinfinite (negative : Bool) : -y = infinite (!negative) ↔ y = infinite negative := by
    rw [neg_eq_iff]
    show y = infinite (!!negative) ↔ _
    rw [Bool.not_not]
  simp only [sub_eq, add_eq_nan_iff, hnan, hinfinite]

theorem mul_eq_nan_iff {x y : Number} : x.mul y = nan ↔ x = nan ∨ y = nan ∨
    ∃ negative, x = finite 0 ∧ y = infinite negative ∨ x = infinite negative ∧ y = finite 0 := by
  cases x with
  | finite p => cases y <;> simp [mul]
  | infinite a => cases y <;> simp [mul]
  | nan => simp [mul]

/-- With a dividend other than zero and infinities, a quotient is NaN only if the divisor is. -/
theorem finite_div_eq_nan_iff {p : ℚ} (hp : p ≠ 0) {y : Number} :
    (finite p).div y = nan ↔ y = nan := by
  cases y with
  | finite q => by_cases hq : q = 0 <;> simp [div, hp, hq]
  | _ => simp [div]

theorem div_finite_eq_nan_iff {x : Number} {q : ℚ} (hq : q ≠ 0) :
    x.div (finite q) = nan ↔ x = nan := by
  cases x <;> simp [div, hq]

end Number

/-- The numbers between which an operation gives NaN though neither of them is NaN, as far as no
label rules them out. -/
def Operation.Cancels : Operation → Number → Number → Prop
  | .add, x, y => ∃ negative, x = .infinite negative ∧ y = .infinite !negative
  | .subtract, x, y => ∃ negative, x = .infinite negative ∧ y = .infinite negative
  | .multiply, x, y =>
    ∃ negative, x = .finite 0 ∧ y = .infinite negative ∨ x = .infinite negative ∧ y = .finite 0
  | .divide, _, _ | .remainder, _, _ => False

end Execution

theorem Literal.double_ne_nan {i : Int} {x : Binary64} (h : Value.double i = .ok x) : x ≠ .nan := by
  unfold Value.double Binary64.ofInt? at h
  cases hratio : Binary64.ofRatio (decide (i < 0)) i.natAbs 1 with
  | finite negative units =>
    rw [hratio] at h
    cases h
    exact Binary64.noConfusion
  | infinite negative | nan =>
    rw [hratio] at h
    cases h

theorem Literal.ofText_ne_nan {s : String} {x : Binary64} (h : ofText s = .ok (some x)) :
    x ≠ .nan := by
  unfold ofText at h
  dsimp only at h
  split at h
  · cases h
    exact decimal?_ne_nan ‹_›
  · split at h
    · obtain ⟨y, hy, h⟩ := Outcome.bind_eq_ok.1 h
      cases h
      exact double_ne_nan hy
    · split_ifs at h <;> cases h <;> exact Binary64.noConfusion

open Execution (Number Operation Callee evaluate IsExpr IsOperand)

/-- A function of one number that is defined everywhere. -/
inductive Rounding where
  | abs
  | floor
  | ceiling

namespace Rounding

/-- The choice in the menu of functions. -/
def choice : Rounding → String
  | .abs => "abs"
  | .floor => "floor"
  | .ceiling => "ceiling"

def callee : Rounding → Callee
  | .abs => .abs
  | .floor => .floor
  | .ceiling => .ceil

def apply : Rounding → Number → Number
  | .abs => .abs
  | .floor => .floor
  | .ceiling => .ceil

theorem apply_eq_nan_iff (f : Rounding) {x : Number} : f.apply x = .nan ↔ x = .nan := by
  cases f <;> cases x <;> simp [apply, Number.abs, Number.floor, Number.ceil, Number.onFinite]

end Rounding

/-- A tree of arithmetic over literals. -/
inductive Formula where
  | literal (s : String)
  | operation (op : Operation) (left right : Formula)
  | function (f : Rounding) (argument : Formula)

namespace Formula

/-- The number that a literal is written as. A literal that is an unsafe integer stays a text. -/
def number? : Formula → Option Binary64
  | .literal s => (Literal.ofText s).toOption.join.filter (!Literal.isUnsafeInteger ·)
  | _ => none

/-- Whether the source of a formula is labelled as a number that is not NaN. -/
def isLabelled : Formula → Bool
  | .operation .divide left right =>
    Compile.isNonzeroFinite right.number? || Compile.isNonzeroFinite left.number?
  | .operation .remainder left right =>
    Compile.isNonzeroFinite right.number? && left.number?.any Binary64.isFinite
  | _ => true

/-- A value as it is used where a number is asked for that is not NaN. -/
def guarded (labelled : Bool) (x : Number) : Number :=
  if labelled then x else x.orZero

/-- The value of the source of a formula. A literal that stays a text is converted. -/
def value : Formula → Number
  | .literal s => match Literal.ofText s with
    | .ok (some x) =>
      if Literal.isUnsafeInteger x then Execution.Val.cast (.text s) else .ofDouble x
    | _ => .finite 0
  | .operation op left right =>
    op.apply (guarded left.isLabelled left.value) (guarded right.isLabelled right.value)
  | .function f argument => f.apply (guarded argument.isLabelled argument.value)

/-- The value of a formula as an operand. -/
def operand (t : Formula) : Number :=
  guarded t.isLabelled t.value

/-- Somewhere in a formula a sum or difference of infinities cancels, or an infinity is multiplied
by zero, and from there to the top everything is labelled. -/
inductive Clashes : Formula → Prop
  | here (op : Operation) {left right : Formula} (h : op.Cancels left.operand right.operand) :
      Clashes (.operation op left right)
  | left (op : Operation) {left : Formula} (right : Formula) (hlabel : left.isLabelled = true)
      (h : Clashes left) : Clashes (.operation op left right)
  | right (op : Operation) (left : Formula) {right : Formula} (hlabel : right.isLabelled = true)
      (h : Clashes right) : Clashes (.operation op left right)
  | argument (f : Rounding) {argument : Formula} (hlabel : argument.isLabelled = true)
      (h : Clashes argument) : Clashes (.function f argument)

theorem clashes_operation_iff {op : Operation} {left right : Formula} :
    (operation op left right).Clashes ↔
    (left.isLabelled = true ∧ left.Clashes) ∨ (right.isLabelled = true ∧ right.Clashes) ∨
      op.Cancels left.operand right.operand := by
  constructor
  · intro h
    cases h with
    | here _ h => exact .inr (.inr h)
    | left _ _ hlabel h => exact .inl ⟨hlabel, h⟩
    | right _ _ hlabel h => exact .inr (.inl ⟨hlabel, h⟩)
  · rintro (⟨hlabel, h⟩ | ⟨hlabel, h⟩ | h)
    exacts [.left op right hlabel h, .right op left hlabel h, .here op h]

/-! ### Labelled formulas -/

theorem value_literal_ne_nan (s : String) : (literal s).value ≠ .nan := by
  rw [value]
  split
  · rename_i x hx
    split_ifs
    · exact Number.orZero_ne_nan _
    · exact Literal.ofDouble_ne_nan (Literal.ofText_ne_nan hx)
  · exact Number.noConfusion

theorem operand_of_none {s : String} (hs : Literal.ofText s = .ok none) :
    (literal s).operand = .ofDouble (.finite false 0) := by
  show value (.literal s) = _
  rw [value, hs]
  exact congrArg Number.finite (by simp [Binary64.signed])

theorem operand_of_isUnsafeInteger {s : String} {x : Binary64}
    (hs : Literal.ofText s = .ok (some x)) (h : Literal.isUnsafeInteger x = true) :
    (literal s).operand = Execution.Val.cast (.text s) := by
  show value (.literal s) = _
  rw [value, hs]
  exact if_pos h

theorem operand_of_number? {t : Formula} {x : Binary64} (h : t.number? = some x) :
    t.operand = .ofDouble x := by
  cases t with
  | literal s =>
    obtain ⟨hread, hsafe⟩ := Option.filter_eq_some_iff.1 h
    have hs : Literal.ofText s = .ok (some x) := by
      cases hs : Literal.ofText s with
      | error fault => rw [hs] at hread; cases hread
      | ok number => rw [hs] at hread; exact congrArg Except.ok hread
    show value (.literal s) = _
    rw [value, hs]
    exact if_neg (by simpa using hsafe)
  | operation op left right => cases h
  | function f argument => cases h

theorem exists_finite_of_isFinite {t : Formula} (h : t.number?.any Binary64.isFinite = true) :
    ∃ q, t.operand = .finite q := by
  obtain ⟨x, hx, hfinite⟩ := (Option.any_eq_true _ _).1 h
  rw [operand_of_number? hx]
  cases x with
  | finite negative units => exact ⟨_, rfl⟩
  | _ => cases hfinite

theorem exists_finite_of_isNonzeroFinite {t : Formula}
    (h : Compile.isNonzeroFinite t.number? = true) : ∃ q ≠ 0, t.operand = .finite q := by
  obtain ⟨x, hx, hfinite⟩ := (Option.any_eq_true _ _).1 h
  rw [operand_of_number? hx]
  cases x with
  | finite negative units =>
    have hunits : units ≠ 0 := by simpa [Binary64.isFinite, Binary64.isZero] using hfinite
    have hone : Binary64.one ≠ 0 := by decide +kernel
    refine ⟨_, div_ne_zero ?_ (Nat.cast_ne_zero.2 hone), rfl⟩
    cases negative <;> simpa [Binary64.signed] using hunits
  | _ => cases hfinite

/-- The label of an operation holds as long as nothing cancels in it and its operands are
not NaN. -/
theorem apply_operand_eq_nan_iff {op : Operation} {left right : Formula}
    (h : (operation op left right).isLabelled = true) : op.apply left.operand right.operand = .nan ↔
      left.operand = .nan ∨ right.operand = .nan ∨ op.Cancels left.operand right.operand := by
  cases op with
  | add => exact Number.add_eq_nan_iff
  | subtract => exact Number.sub_eq_nan_iff
  | multiply => exact Number.mul_eq_nan_iff
  | divide =>
    rcases Bool.or_eq_true_iff.1 h with h | h
    · obtain ⟨q, hq, heq⟩ := exists_finite_of_isNonzeroFinite h
      rw [heq]
      simpa [Operation.apply, Operation.Cancels] using Number.div_finite_eq_nan_iff hq
    · obtain ⟨p, hp, heq⟩ := exists_finite_of_isNonzeroFinite h
      rw [heq]
      simpa [Operation.apply, Operation.Cancels] using Number.finite_div_eq_nan_iff hp
  | remainder =>
    obtain ⟨hright, hleft⟩ := Bool.and_eq_true_iff.1 h
    obtain ⟨q, hq, heq⟩ := exists_finite_of_isNonzeroFinite hright
    obtain ⟨p, heq'⟩ := exists_finite_of_isFinite hleft
    rw [heq, heq']
    simp [Operation.apply, Operation.Cancels, Number.rem, hq]

theorem operand_of_labelled {t : Formula} (h : t.isLabelled = true) : t.operand = t.value := by
  rw [operand, guarded, if_pos h]

/-- An operand is NaN exactly if it is labelled and a clash reaches it: any other is converted. -/
theorem operand_eq_nan_iff (t : Formula) : t.operand = .nan ↔ t.isLabelled = true ∧ t.Clashes := by
  induction t with
  | literal s => exact iff_of_false (value_literal_ne_nan s) (by rintro ⟨-, ⟨⟩⟩)
  | operation op left right ihl ihr =>
    by_cases hlabel : (operation op left right).isLabelled = true
    · rw [operand_of_labelled hlabel, and_iff_right hlabel, clashes_operation_iff, ← ihl, ← ihr]
      exact apply_operand_eq_nan_iff hlabel
    · rw [operand, guarded, if_neg hlabel]
      exact iff_of_false (Number.orZero_ne_nan _) fun h => hlabel h.1
  | function f argument ih =>
    have hclash : (function f argument).Clashes ↔
        argument.isLabelled = true ∧ argument.Clashes := by
      constructor
      · intro h
        cases h with
        | argument _ hlabel h => exact ⟨hlabel, h⟩
      · exact fun h => .argument f h.1 h.2
    have hlabel : (function f argument).isLabelled = true := rfl
    rw [and_iff_right hlabel, hclash, ← ih]
    exact f.apply_eq_nan_iff

end Formula

/-! ### Formulas in inputs -/

def Execution.Operation.opcode : Operation → Operator
  | .add => .add
  | .subtract => .subtract
  | .multiply => .multiply
  | .divide => .divide
  | .remainder => .mod

/-- An input holds a formula. -/
inductive Formula.Fills : Input → Formula → Prop
  | literal {kind s : String} {number : Option Binary64} (hkind : kind ≠ "color")
      (hs : Literal.ofText s = .ok number) : Fills (.plain kind (.text s)) (.literal s)
  | operation (op : Operation) {inputs : Slots} (id : String) {left right : Input} {l r : Formula}
      (hleft : inputs.lookup "NUM1" = some left) (hright : inputs.lookup "NUM2" = some right)
      (hl : Fills left l)
      (hr : Fills right r) :
        Fills (.block (some (.mk (.known (.operator op.opcode)) inputs id))) (.operation op l r)
  | function (f : Rounding) {inputs : Slots} (id : String) {argument : Input} {t : Formula}
      (hchoice : Slots.choice inputs "OPERATOR" = .ok (.text f.choice))
      (hargument : inputs.lookup "NUM" = some argument)
      (h : Fills argument t) :
        Fills (.block (some (.mk (.known (.operator .mathOp)) inputs id))) (.function f t)

namespace Compile
open Formula (Fills)

variable {ctx : Context} {locals : Name.Space} {inputs : Slots} {input : Input} {t : Formula}

/-- An input compiles to source that, converted where it is not labelled, has the value of a formula
as an operand. -/
def CompilesAs (ctx : Context) (locals : Name.Space) (input : Input) (t : Formula) : Prop :=
  ∃ f : Fragment, (inputFragment ctx input .numberNotNaN locals).result = .ok f ∧
    IsExpr (Source.coerce f.source f.shape .numberNotNaN) (.number t.operand)

/-! ### Slots -/

theorem render_num {slot : String} (hslot : inputs.lookup slot = some input)
    (h : CompilesAs ctx locals input t) :
    ∃ source, ((num slot).render inputs (readers ctx inputs) locals).result = .ok source ∧
      ((Phrase.operand slot .numberNotNaN).render inputs (readers ctx inputs) locals).result =
        .ok (Source.paren source) ∧ IsExpr source (.number t.operand) := by
  obtain ⟨f, hf, hexpr⟩ := h
  have hsource : ((readers ctx inputs).source slot .numberNotNaN locals).result =
      .ok (Source.coerce f.source f.shape .numberNotNaN) := by
    rw [Readers.source, Noted.result_bind, Readers.fragment, lookup_readers, hslot]
    dsimp only [Option.map_some]
    rw [hf]
    rfl
  refine ⟨_, hsource, ?_, hexpr⟩
  rw [Phrase.render, Noted.result_bind, hsource]
  rfl

theorem fragment_arithmetic (op : Operation) {left right : Input} {l r : Formula}
    (hleft : inputs.lookup "NUM1" = some left) (hright : inputs.lookup "NUM2" = some right)
    (hl : CompilesAs ctx locals left l) (hr : CompilesAs ctx locals right r)
    (shape desired : Shape) : ∃ source,
      ((arithmetic op.sign shape).fragment ctx inputs (readers ctx inputs) desired locals).result =
        .ok ⟨source, shape⟩ ∧
        IsExpr source (.number (Formula.operation op l r).value) := by
  obtain ⟨a, -, ha, hexpr⟩ := render_num hleft hl
  obtain ⟨b, -, hb, hexpr'⟩ := render_num hright hr
  refine ⟨Source.paren a ++ (" " ++ op.sign ++ " ") ++ Source.paren b, ?_, hexpr.binary op hexpr'⟩
  refine Plan.fragment_phrase_eq_ok.2 ⟨_, ?_, rfl⟩
  exact Phrase.render_append.2 ⟨_, _, Phrase.render_append.2 ⟨_, _, ha, rfl, rfl⟩, hb, rfl⟩

theorem fragment_function (f : Rounding) {argument : Input}
    (hargument : inputs.lookup "NUM" = some argument) (h : CompilesAs ctx locals argument t)
    (shape desired : Shape) : ∃ source,
      ((Plan.phrase (Phrase.text (f.callee.name ++ "(") ++ num "NUM" ++ Phrase.text ")")
        shape).fragment ctx inputs
        (readers ctx inputs) desired locals).result = .ok ⟨source, shape⟩ ∧
        IsExpr source (.number (Formula.function f t).value) := by
  obtain ⟨a, ha, -, hexpr⟩ := render_num hargument h
  have hcall : f.callee.result? (.number t.operand) =
      some (.number (Formula.function f t).value) := by
    cases f <;> rfl
  refine ⟨f.callee.name ++ "(" ++ a ++ ")", ?_, (hexpr.isOperand_call f.callee hcall).isExpr⟩
  refine Plan.fragment_phrase_eq_ok.2 ⟨_, ?_, rfl⟩
  exact Phrase.render_append.2 ⟨_, _, Phrase.render_append.2 ⟨_, _, rfl, ha, rfl⟩, rfl, rfl⟩

/-! ### Literals -/

theorem literalFragment_isExpr {s : String} {number : Option Binary64}
    (hs : Literal.ofText s = .ok number) :
    ∃ f, literalFragment (.text s) .numberNotNaN = .ok f ∧
      IsExpr (Source.coerce f.source f.shape .numberNotNaN)
      (.number (Formula.literal s).operand) := by
  have hnumber : Literal.number? (.text s) = .ok number := hs
  cases number with
  | none =>
    have hcast : Literal.castNumber (.text s) = .ok (.finite false 0) := by
      rw [Literal.castNumber, hnumber]
      · rfl
      · exact fun _ => Value.noConfusion
    have hzero : Binary64.ofUnits false 0 1 = .finite false 0 := by decide +kernel
    refine ⟨_, literalFragment_numberNotNaN hnumber rfl hcast, ?_⟩
    rw [Formula.operand_of_none hs]
    exact Execution.isExpr_numberLiteral (hzero ▸ Binary64.isDouble_ofUnits false 0 1)
      Binary64.noConfusion
  | some x =>
    by_cases hlarge : Literal.isUnsafeInteger x = true
    · refine ⟨⟨Text.literal s, .string⟩, ?_, ?_⟩
      · unfold literalFragment
        dsimp only
        rw [hnumber]
        exact if_pos hlarge
      · rw [Formula.operand_of_isUnsafeInteger hs hlarge]
        exact ((Execution.isOperand_textLiteral s).isExpr.isOperand_call .toNumber rfl).isExpr
    · have hsafe : (some x).any Literal.isUnsafeInteger = false := by simpa using hlarge
      have hwritten : (Formula.literal s).number? = some x := by
        simp [Formula.number?, hs, Except.toOption, hlarge]
      refine ⟨_, literalFragment_numberNotNaN hnumber hsafe (castNumber_of_number? hnumber), ?_⟩
      rw [Formula.operand_of_number? hwritten]
      exact Execution.isExpr_numberLiteral (Literal.isDouble_of_ofText hs)
        (Literal.ofText_ne_nan hs)

theorem compilesAs_literal {kind s : String} {number : Option Binary64} (hkind : kind ≠ "color")
    (hs : Literal.ofText s = .ok number) :
    CompilesAs ctx locals (.plain kind (.text s)) (.literal s) := by
  obtain ⟨f, hf, hexpr⟩ := literalFragment_isExpr hs
  refine ⟨f, ?_, hexpr⟩
  rw [inputFragment]
  dsimp only
  rw [if_neg (by simpa using hkind), hf]
  rfl

/-! ### Plans -/

theorem isExpr_coerce {source : String} (h : IsExpr source (.number t.value)) :
    IsExpr (Source.coerce source (numberShape t.isLabelled) .numberNotNaN) (.number t.operand) := by
  cases hlabel : t.isLabelled with
  | true =>
    rw [Formula.operand_of_labelled hlabel]
    exact h
  | false =>
    have hoperand : t.operand = t.value.orZero := by rw [Formula.operand, hlabel]; rfl
    rw [hoperand]
    exact (h.isOperand_call .toNumber rfl).isExpr

theorem literalNumber_of_fills (h : Fills input t) : input.literalNumber = .ok t.number? := by
  cases h with
  | @literal kind s number hkind hs =>
    show (if kind == "color" then _ else Literal.ofText s >>= fun number => _) = _
    rw [if_neg (by simpa using hkind), hs, Formula.number?, hs]
    rfl
  | operation => rfl
  | function => rfl

section
variable {left right : Input} {l r : Formula} (hleft : inputs.lookup "NUM1" = some left)
  (hright : inputs.lookup "NUM2" = some right) (hl : Fills left l) (hr : Fills right r)
include hleft hright hl hr

theorem literalNumbers : Slots.literalNumber inputs "NUM1" = .ok l.number? ∧
    Slots.literalNumber inputs "NUM2" = .ok r.number? := by
  rw [Slots.literalNumber, hleft, Slots.literalNumber, hright]
  exact ⟨literalNumber_of_fills hl, literalNumber_of_fills hr⟩

theorem plan_operation_labelled (op : Operation) {desired : Shape}
    (h : desired ≠ .index ∨ op.isProduct = true) :
    plan ctx (.known (.operator op.opcode)) inputs desired locals =
      .ok (arithmetic op.sign (numberShape (Formula.operation op l r).isLabelled)) := by
  obtain ⟨hnum1, hnum2⟩ := literalNumbers hleft hright hl hr
  have hadditive (subtract : Bool) (sign : String) (hdesired : desired ≠ .index) :
      additive inputs desired subtract sign = .ok (arithmetic sign .numberNotNaN) := by
    rw [additive, if_neg (by simpa using hdesired)]
    rfl
  cases op with
  | add => exact hadditive false "+" (h.resolve_right (by decide))
  | subtract => exact hadditive true "-" (h.resolve_right (by decide))
  | multiply => rfl
  | divide =>
    show (Slots.literalNumber inputs "NUM1" >>= fun dividend => _) = _
    rw [hnum1, hnum2]
    rfl
  | remainder =>
    show (Slots.literalNumber inputs "NUM1" >>= fun dividend => _) = _
    rw [hnum1, hnum2]
    rfl

theorem blockFragment_operation (op : Operation) (id : String) (hcl : CompilesAs ctx locals left l)
    (hcr : CompilesAs ctx locals right r) (desired : Shape)
    (h : desired ≠ .index ∨ op.isProduct = true) : ∃ source,
      (blockFragment ctx (.mk (.known (.operator op.opcode)) inputs id) desired locals).result =
        .ok ⟨source, numberShape (Formula.operation op l r).isLabelled⟩ ∧
      IsExpr source (.number (Formula.operation op l r).value) := by
  obtain ⟨source, hsource, hexpr⟩ := fragment_arithmetic op hleft hright hcl hcr _ desired
  exact ⟨source, blockFragment_eq_ok.2 ⟨_, plan_operation_labelled hleft hright hl hr op h,
    hsource⟩, hexpr⟩

end

theorem blockFragment_function (f : Rounding) (id : String) {argument : Input}
    (hchoice : Slots.choice inputs "OPERATOR" = .ok (.text f.choice))
    (hargument : inputs.lookup "NUM" = some argument) (h : CompilesAs ctx locals argument t)
    (desired : Shape) : ∃ source,
      (blockFragment ctx (.mk (.known (.operator .mathOp)) inputs id) desired locals).result =
        .ok ⟨source, numberShape (Formula.function f t).isLabelled⟩ ∧
      IsExpr source (.number (Formula.function f t).value) := by
  obtain ⟨source, hsource, hexpr⟩ := fragment_function f hargument h .numberNotNaN desired
  have hplan : plan ctx (.known (.operator .mathOp)) inputs desired locals =
      .ok (.phrase (Phrase.text (f.callee.name ++ "(") ++ num "NUM" ++ Phrase.text ")")
        .numberNotNaN) := by
    show (Slots.choice inputs "OPERATOR" >>= fun choice => _) = _
    rw [hchoice]
    cases f <;> rfl
  exact ⟨source, blockFragment_eq_ok.2 ⟨_, hplan, hsource⟩, hexpr⟩

theorem compilesAs_block {b : Block} {source : String}
    (h : (blockFragment ctx b .numberNotNaN locals).result = .ok ⟨source, numberShape t.isLabelled⟩)
    (hexpr : IsExpr source (.number t.value)) : CompilesAs ctx locals (.block (some b)) t := by
  refine ⟨⟨source, numberShape t.isLabelled⟩, ?_, isExpr_coerce hexpr⟩
  rw [inputFragment]
  exact h

theorem compilesAs_of_fills (ctx : Context) (locals : Name.Space) (h : Fills input t) :
    CompilesAs ctx locals input t := by
  induction h with
  | literal hkind hs => exact compilesAs_literal hkind hs
  | operation op id hleft hright hl hr ihl ihr =>
    obtain ⟨source, hsource, hexpr⟩ :=
      blockFragment_operation hleft hright hl hr op id ihl ihr .numberNotNaN (.inl (by decide))
    exact compilesAs_block hsource hexpr
  | function f id hchoice hargument h ih =>
    obtain ⟨source, hsource, hexpr⟩ :=
      blockFragment_function f id hchoice hargument ih .numberNotNaN
    exact compilesAs_block hsource hexpr

/-! ### Indices -/

theorem render_offset {slot : String} (hslot : inputs.lookup slot = some input) (h : Fills input t)
    (offset : Binary64) :
    ∃ source, ((offsetPhrase slot offset).render inputs (readers ctx inputs) locals).result =
      .ok source := by
  obtain ⟨a, -, ha, -⟩ := render_num hslot (compilesAs_of_fills ctx locals h)
  have hbehind (sign : String) (x : Binary64) :
      ∃ source, ((Phrase.operand slot .numberNotNaN ++ Phrase.text sign ++
      Phrase.number x).render inputs (readers ctx inputs) locals).result = .ok source :=
    ⟨_, Phrase.render_append.2 ⟨_, _, Phrase.render_append.2 ⟨_, _, ha, rfl, rfl⟩, rfl, rfl⟩⟩
  unfold offsetPhrase
  dsimp only
  split_ifs
  exacts [hbehind _ _, hbehind _ _, ⟨_, ha⟩]

theorem indexAbsorbed?_fragment (ctx : Context) (locals : Name.Space) {left right : Input}
    {l r : Formula} (hleft : inputs.lookup "NUM1" = some left)
    (hright : inputs.lookup "NUM2" = some right) (hl : Fills left l) (hr : Fills right r)
    (subtract : Bool) : ∃ plan?, indexAbsorbed? inputs subtract = .ok plan? ∧ ∀ p ∈ plan?, ∃ source,
      (p.fragment ctx inputs (readers ctx inputs) .index locals).result = .ok ⟨source, .index⟩ := by
  obtain ⟨hnum1, hnum2⟩ := literalNumbers hleft hright hl hr
  unfold indexAbsorbed?
  rw [hnum1, hnum2]
  dsimp only [bind, Except.bind]
  split
  · refine ⟨_, rfl, fun p hp => ?_⟩
    obtain ⟨-, hp⟩ := Option.ite_none_right_eq_some.1 hp
    cases hp
    exact ⟨_, Plan.fragment_phrase_eq_ok.2 ⟨_, rfl, rfl⟩⟩
  · refine ⟨_, rfl, fun p hp => ?_⟩
    obtain ⟨⟨slot, x?⟩, hside, hp⟩ := List.exists_of_findSome?_eq_some hp
    dsimp only at hp
    split at hp
    · obtain ⟨-, hp⟩ := Option.ite_none_right_eq_some.1 hp
      cases hp
      have hslot : slot = "NUM1" ∨ slot = "NUM2" := by
        cases subtract with
        | true => exact .inl (Prod.mk.inj (List.mem_singleton.1 hside)).1
        | false =>
          exact (List.mem_pair.1 hside).imp (fun h => (Prod.mk.inj h).1) fun h => (Prod.mk.inj h).1
      have hrender (offset : Binary64) : ∃ source,
          ((offsetPhrase slot offset).render inputs (readers ctx inputs) locals).result =
            .ok source := by
        rcases hslot with rfl | rfl
        · exact render_offset hleft hl offset
        · exact render_offset hright hr offset
      obtain ⟨source, hsource⟩ := hrender _
      exact ⟨source, Plan.fragment_phrase_eq_ok.2 ⟨_, hsource, rfl⟩⟩
    · cases hp

theorem blockFragment_operation_index (ctx : Context) (locals : Name.Space) (op : Operation)
    (id : String) {left right : Input} {l r : Formula} (hleft : inputs.lookup "NUM1" = some left)
    (hright : inputs.lookup "NUM2" = some right) (hl : Fills left l) (hr : Fills right r)
    (hop : op.isProduct = false) : ∃ f,
      (blockFragment ctx (.mk (.known (.operator op.opcode)) inputs id) .index locals).result =
        .ok f ∧
        (f.shape = .index ∨ f.shape = numberShape (Formula.operation op l r).isLabelled ∧
          IsExpr f.source (.number (Formula.operation op l r).value)) := by
  have hadditive (subtract : Bool) : ∃ p, additive inputs .index subtract op.sign = .ok p ∧
      ∃ f, (p.fragment ctx inputs (readers ctx inputs) .index locals).result = .ok f ∧
        (f.shape = .index ∨ f.shape = .numberNotNaN ∧
          IsExpr f.source (.number (Formula.operation op l r).value)) := by
    obtain ⟨plan?, hplan, hfragment⟩ :=
      indexAbsorbed?_fragment ctx locals hleft hright hl hr subtract
    refine ⟨plan?.getD (arithmetic op.sign .numberNotNaN), ?_, ?_⟩
    · show indexAbsorbed? inputs subtract >>= (fun absorbed => _) = _
      rw [hplan]
      rfl
    · cases plan? with
      | none =>
        obtain ⟨source, hsource, hexpr⟩ :=
          fragment_arithmetic op hleft hright (compilesAs_of_fills ctx locals hl)
          (compilesAs_of_fills ctx locals hr) .numberNotNaN .index
        exact ⟨_, hsource, .inr ⟨rfl, hexpr⟩⟩
      | some p =>
        obtain ⟨source, hsource⟩ := hfragment p rfl
        exact ⟨_, hsource, .inl rfl⟩
  cases op with
  | add =>
    obtain ⟨p, hp, f, hf, hshape⟩ := hadditive false
    exact ⟨f, blockFragment_eq_ok.2 ⟨p, hp, hf⟩, hshape⟩
  | subtract =>
    obtain ⟨p, hp, f, hf, hshape⟩ := hadditive true
    exact ⟨f, blockFragment_eq_ok.2 ⟨p, hp, hf⟩, hshape⟩
  | multiply | divide | remainder => cases hop

/-- The fragment of a formula, for any shape: an index, or source with the value and the label of
the formula. -/
theorem blockFragment_of_fills (ctx : Context) (locals : Name.Space) {b : Block}
    (h : Fills (.block (some b)) t) (desired : Shape) :
    ∃ f, (blockFragment ctx b desired locals).result = .ok f ∧
      (desired = .index ∧ f.shape = .index ∨
        f.shape = numberShape t.isLabelled ∧ IsExpr f.source (.number t.value)) := by
  cases h with
  | operation op id hleft hright hl hr =>
    by_cases hplain : desired ≠ .index ∨ op.isProduct = true
    · obtain ⟨source, hsource, hexpr⟩ := blockFragment_operation hleft hright hl hr op id
        (compilesAs_of_fills ctx locals hl) (compilesAs_of_fills ctx locals hr) desired hplain
      exact ⟨_, hsource, .inr ⟨rfl, hexpr⟩⟩
    · obtain ⟨hdesired, hop⟩ := not_or.1 hplain
      obtain rfl := not_not.1 hdesired
      obtain ⟨f, hf, hshape⟩ := blockFragment_operation_index ctx locals op id hleft hright hl hr
        (Bool.eq_false_of_not_eq_true hop)
      exact ⟨f, hf, hshape.imp_left fun hindex => ⟨rfl, hindex⟩⟩
  | function f id hchoice hargument h =>
    obtain ⟨source, hsource, hexpr⟩ :=
      blockFragment_function f id hchoice hargument (compilesAs_of_fills ctx locals h) desired
    exact ⟨_, hsource, .inr ⟨rfl, hexpr⟩⟩

/-- Every tree of arithmetic over literals compiles. Unless it is an index, its source evaluates to
the value of the tree, and where it is labelled as a number that is not NaN, it is NaN exactly if a
clash reaches it. -/
theorem labelled_nan_iff (ctx : Context) (b : Block) (t : Formula) (h : Fills (.block (some b)) t)
    (desired : Shape) :
    ∃ f, (blockFragment ctx b desired ctx.locals).result = .ok f ∧
    (desired ≠ .index → f.shape ≠ .index) ∧
      (f.shape ≠ .index → f.shape = numberShape t.isLabelled ∧
        evaluate f.source = some (.number t.value)) ∧
      (f.shape = .numberNotNaN → (evaluate f.source = some (.number .nan) ↔ t.Clashes)) := by
  obtain ⟨f, hf, hshape⟩ := blockFragment_of_fills ctx ctx.locals h desired
  refine ⟨f, hf, ?_⟩
  rcases hshape with ⟨hdesired, hindex⟩ | ⟨hlabel, hexpr⟩
  · exact ⟨fun h => absurd hdesired h, fun h => absurd hindex h,
      fun h => by rw [hindex] at h; cases h⟩
  · have hvalue : evaluate f.source = some (.number t.value) := hexpr.evaluate_eq
    refine ⟨fun _ => ?_, fun _ => ⟨hlabel, hvalue⟩, fun hnotNaN => ?_⟩
    · rw [hlabel]
      cases t.isLabelled <;> decide
    · have ht : t.isLabelled = true := by
        rw [hlabel] at hnotNaN
        cases hlabelled : t.isLabelled with
        | true => rfl
        | false => rw [hlabelled] at hnotNaN; cases hnotNaN
      have hnan := t.operand_eq_nan_iff
      rw [Formula.operand_of_labelled ht, and_iff_right ht] at hnan
      rw [hvalue, ← hnan, Option.some.injEq, Execution.Val.number.injEq]

/-- `5 / (Infinity - 1e999) * |cat / 0|`. -/
def cancelledInfinities : Block :=
  let difference :=
    .mk (.known (.operator .subtract)) [("NUM1", .plain "number" (.text " Infinity ")),
    ("NUM2", .plain "number" (.text "1e999"))] "c"
  let quotient := .mk (.known (.operator .divide)) [("NUM1", .plain "number" (.text "5")),
    ("NUM2", .block (some difference))] "b"
  let ratio := .mk (.known (.operator .divide)) [("NUM1", .plain "text" (.text "cat")),
    ("NUM2", .plain "number" (.text "0"))] "e"
  let size := .mk (.known (.operator .mathOp)) [("OPERATOR", .plain "string" (.text "abs")),
    ("NUM", .block (some ratio))] "d"
  .mk (.known (.operator .multiply)) [("NUM1", .block (some quotient)),
    ("NUM2", .block (some size))] "a"

def cancelledFormula : Formula :=
  .operation .multiply
    (.operation .divide (.literal "5")
      (.operation .subtract (.literal " Infinity ") (.literal "1e999")))
    (.function .abs (.operation .divide (.literal "cat") (.literal "0")))

theorem cancelledInfinities_fills : Fills (.block (some cancelledInfinities)) cancelledFormula := by
  have hword : Literal.ofText "cat" = .ok none := by decide +kernel
  have hinfinity : Literal.ofText " Infinity " = .ok (some (.infinite false)) := by decide +kernel
  have hlarge : Literal.ofText "1e999" = .ok (some (.infinite false)) := by decide +kernel
  have hfive : Literal.ofText "5" = .ok (some (.ofNat 5)) := by decide +kernel
  have hzero : Literal.ofText "0" = .ok (some (.ofNat 0)) := by decide +kernel
  refine .operation .multiply _ rfl rfl
    (.operation .divide _ rfl rfl ?_ (.operation .subtract _ rfl rfl ?_ ?_))
    (.function .abs _ rfl rfl (.operation .divide _ rfl rfl ?_ ?_))
  exacts [.literal (by decide) hfive, .literal (by decide) hinfinity, .literal (by decide) hlarge,
    .literal (by decide) hword, .literal (by decide) hzero]

/-- The infinities cancel below a quotient that is labelled, so nothing converts them; the other
quotient is converted. -/
theorem cancelledInfinities_nan : ∃ names ctx, Name.assign Name.clashingProject = .ok names ∧
    Context.make Name.clashingProject names 1 1 true = .ok ctx ∧
    Fills (.block (some cancelledInfinities)) cancelledFormula ∧ cancelledFormula.Clashes ∧
    ∃ f, (blockFragment ctx cancelledInfinities .any ctx.locals).result = .ok f ∧
    f.shape = .numberNotNaN ∧
      evaluate f.source = some (.number .nan) := by
  obtain ⟨names, hnames⟩ : ∃ names, Name.assign Name.clashingProject = .ok names := ⟨_, rfl⟩
  obtain ⟨ctx, hctx⟩ : ∃ ctx, Context.make Name.clashingProject names 1 1 true = .ok ctx := by
    cases hnames
    exact ⟨_, rfl⟩
  have hclash : cancelledFormula.Clashes := by
    refine .left .multiply _ (by decide +kernel)
      (.right .divide _ rfl (.here .subtract ⟨false, ?_, ?_⟩))
    · decide +kernel
    · decide +kernel
  obtain ⟨f, hf, hindex, hlabel, hnan⟩ :=
    labelled_nan_iff ctx cancelledInfinities cancelledFormula cancelledInfinities_fills .any
  have hshape : f.shape = .numberNotNaN := (hlabel (hindex (by decide))).1
  exact ⟨names, ctx, hnames, hctx, cancelledInfinities_fills, hclash, f, hf, hshape,
    (hnan hshape).2 hclash⟩

def oppositeInfinities : Block :=
  .mk (.known (.operator .add)) [("NUM1", .plain "number" (.text "Infinity")),
    ("NUM2", .plain "number" (.text "-Infinity"))] "a"

/-- A sum of infinities is labelled as a number that is not NaN, and is NaN. -/
theorem oppositeInfinities_nan : ∃ names ctx f, Name.assign Name.clashingProject = .ok names ∧
    Context.make Name.clashingProject names 1 1 true = .ok ctx ∧
    (blockFragment ctx oppositeInfinities .numberNotNaN ctx.locals).result = .ok f ∧
    f.shape = .numberNotNaN ∧
    f.source = "Infinity + (-Infinity)" ∧ evaluate f.source = some (.number .nan) := by
  have hrun : (do
      let names ← Name.assign Name.clashingProject
      let ctx ← Context.make Name.clashingProject names 1 1 true
      let f ← (blockFragment ctx oppositeInfinities .numberNotNaN ctx.locals).result
      return (f.source, f.shape)).toOption = some ("Infinity + (-Infinity)", .numberNotNaN) := by
      decide +kernel
  obtain ⟨names, hnames, hrun⟩ := Outcome.bind_eq_ok.1 (Outcome.toOption_eq_some.1 hrun)
  obtain ⟨ctx, hctx, hrun⟩ := Outcome.bind_eq_ok.1 hrun
  obtain ⟨f, hf, hrun⟩ := Outcome.bind_eq_ok.1 hrun
  obtain ⟨hsource, hshape⟩ := Prod.mk.inj (Outcome.pure_eq_ok.1 hrun)
  refine ⟨names, ctx, f, hnames, hctx, hf, hshape, hsource, ?_⟩
  rw [hsource]
  decide +kernel

end Compile

end ScratchExport
