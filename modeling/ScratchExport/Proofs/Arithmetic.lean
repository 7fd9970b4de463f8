import ScratchExport.Proofs.NameTable
import ScratchExport.Proofs.Reading
import ScratchExport.Proofs.Render
import ScratchExport.Proofs.Spelling

/-!
# Integer arithmetic is compiled correctly

`Computes` is the value of a tree of sums, differences and products over integer literals and the
reporters of position, direction and pointer. The source of such a tree reads as an expression with
the same value, and as an index with the value less one: where the one is folded into a literal
operand, the literal that is left is exact, because literals have at most 52 bits.
-/

namespace ScratchExport

namespace Arithmetic

/-- What a sprite's members hold. -/
structure Readings where
  x : Int
  y : Int
  direction : Int
  mouseX : Int
  mouseY : Int

/-- The value of a member of generated code. -/
def Readings.member? (readings : Readings) : String → Option Int
  | "this.x" => some readings.x
  | "this.y" => some readings.y
  | "this.direction" => some readings.direction
  | "this.mouse.x" => some readings.mouseX
  | "this.mouse.y" => some readings.mouseY
  | _ => none

/-- The blocks that report a member. -/
inductive Reporter where
  | xPosition
  | yPosition
  | direction
  | mouseX
  | mouseY

namespace Reporter

def opcode : Reporter → Opcode
  | .xPosition => .motion .xPosition
  | .yPosition => .motion .yPosition
  | .direction => .motion .direction
  | .mouseX => .sensing .mouseX
  | .mouseY => .sensing .mouseY

/-- What a reporter reports. -/
def value (readings : Readings) : Reporter → Int
  | .xPosition => readings.x
  | .yPosition => readings.y
  | .direction => readings.direction
  | .mouseX => readings.mouseX
  | .mouseY => readings.mouseY

end Reporter

def Operation.opcode : Operation → Operator
  | .add => .add
  | .subtract => .subtract
  | .multiply => .multiply

/-- The value of an input: of a literal integer, of a text that is no number, of a reporter, or of
an operation on the values of its inputs. -/
inductive Computes (readings : Readings) : Input → Int → Prop
  | literal {kind : String} {v : Value} {n : Int} (hkind : kind ≠ "color")
      (hv : Literal.Denotes v n) (hn : n.natAbs < 2 ^ 52) : Computes readings (.plain kind v) n
  | text {kind s : String} (hkind : kind ≠ "color") (hs : Literal.ofText s = .ok none) :
      Computes readings (.plain kind (.text s)) 0
  | reporter (r : Reporter) (inputs : Slots) (id : String) :
      Computes readings (.block (some (.mk (.known r.opcode) inputs id))) (r.value readings)
  | operation (op : Operation) {inputs : Slots} {id : String} {left right : Input} {m n : Int}
      (hleft : inputs.lookup "NUM1" = some left) (hright : inputs.lookup "NUM2" = some right)
      (hm : Computes readings left m) (hn : Computes readings right n) :
      Computes readings (.block (some (.mk (.known (.operator op.opcode)) inputs id)))
      (op.apply m n)

end Arithmetic

namespace Compile
open Arithmetic

variable {ctx : Context} {locals : Name.Space} {inputs : Slots} {readings : Readings}

/-! ### Operands -/

/-- An input compiles to an expression with a value. -/
def CompilesTo (ctx : Context) (readings : Readings) (locals : Name.Space) (input : Input)
    (n : Int) : Prop :=
  ∃ source, (inputFragment ctx input .numberNotNaN locals).result = .ok ⟨source, .numberNotNaN⟩ ∧
    IsExpr readings.member? source n

theorem render_operand {slot : String} {input : Input} {n : Int}
    (hslot : inputs.lookup slot = some input) (h : CompilesTo ctx readings locals input n) :
    ∃ source,
      ((Phrase.operand slot .numberNotNaN).render inputs (readers ctx inputs) locals).result =
        .ok source ∧
        IsOperand readings.member? source n := by
  obtain ⟨source, hsource, hexpr⟩ := h
  refine ⟨Source.paren source, ?_, hexpr.isOperand_paren⟩
  rw [Phrase.render, Noted.result_bind, Readers.source, Noted.result_bind, Readers.fragment,
    lookup_readers, hslot]
  dsimp only [Option.map_some]
  rw [hsource]
  rfl

theorem render_arithmetic (op : Operation) {left right : Input} {m n : Int}
    (hleft : inputs.lookup "NUM1" = some left) (hright : inputs.lookup "NUM2" = some right)
    (hm : CompilesTo ctx readings locals left m) (hn : CompilesTo ctx readings locals right n)
    (desired : Shape) : ∃ source,
      ((arithmetic op.sign .numberNotNaN).fragment ctx inputs
        (readers ctx inputs) desired locals).result =
        .ok ⟨source, .numberNotNaN⟩ ∧ IsExpr readings.member? source (op.apply m n) := by
  obtain ⟨a, ha, hoperand⟩ := render_operand hleft hm
  obtain ⟨b, hb, hoperand'⟩ := render_operand hright hn
  refine ⟨a ++ (" " ++ op.sign ++ " ") ++ b, ?_, hoperand.binary op hoperand'⟩
  refine Plan.fragment_phrase_eq_ok.2 ⟨_, ?_, rfl⟩
  exact Phrase.render_append.2 ⟨_, b, Phrase.render_append.2 ⟨a, _, ha, rfl, rfl⟩, hb, rfl⟩

/-! ### Literals -/

theorem castNumber_of_number? {v : Value} {x : Binary64} (h : Literal.number? v = .ok (some x)) :
    Literal.castNumber v = .ok x := by
  cases v with
  | bool b => cases h
  | _ => rw [Literal.castNumber, h]; rfl; exact fun _ => nofun

theorem literalFragment_numberNotNaN {v : Value} {number : Option Binary64} {x : Binary64}
    (hnumber : Literal.number? v = .ok number) (hsafe : number.any Literal.isUnsafeInteger = false)
    (hcast : Literal.castNumber v = .ok x) :
    literalFragment v .numberNotNaN = .ok ⟨Literal.numberLiteral x, .numberNotNaN⟩ := by
  unfold literalFragment
  dsimp only
  rw [hnumber, hcast]
  show (if number.any Literal.isUnsafeInteger then _ else Except.ok _) = _
  rw [if_neg (by rw [hsafe]; decide)]

theorem compilesTo_plain {kind : String} {v : Value} {number : Option Binary64} {x : Binary64}
    {n : Int} (hkind : kind ≠ "color") (hnumber : Literal.number? v = .ok number)
    (hsafe : number.any Literal.isUnsafeInteger = false) (hcast : Literal.castNumber v = .ok x)
    (hx : x.eqInt n = true) : CompilesTo ctx readings locals (.plain kind v) n := by
  refine ⟨toString n, ?_, isExpr_integer n⟩
  rw [inputFragment]
  dsimp only
  rw [if_neg (by simpa using hkind), literalFragment_numberNotNaN hnumber hsafe hcast,
    Literal.numberLiteral_of_eqInt hx]
  rfl

theorem literalNumber_of_computes {input : Input} {n : Int} (h : Computes readings input n) :
    ∃ x?, input.literalNumber = .ok x? ∧ ∀ x ∈ x?, x.eqInt n = true ∧ n.natAbs < 2 ^ 52 := by
  cases h with
  | @literal kind v n hkind hv hn =>
    obtain ⟨x, hx, heq⟩ := Literal.number?_of_denotes hv (by omega)
    have hsafe := Literal.not_isUnsafeInteger heq (by omega)
    refine ⟨some x, ?_, fun _ h => Option.some.inj h ▸ ⟨heq, hn⟩⟩
    show (if kind == "color" then _ else Literal.number? v >>= fun number => _) = _
    rw [if_neg (by simpa using hkind), hx]
    show Except.ok (Option.filter _ (some x)) = _
    rw [Option.filter_some_pos (by simpa using hsafe)]
  | @text kind s hkind hs =>
    refine ⟨none, ?_, nofun⟩
    show (if kind == "color" then _ else Literal.ofText s >>= fun number => _) = _
    rw [if_neg (by simpa using hkind), hs]
    rfl
  | reporter => exact ⟨none, rfl, nofun⟩
  | operation => exact ⟨none, rfl, nofun⟩

/-! ### Numbers -/

theorem blockFragment_reporter (readings : Readings) (r : Reporter) (id : String)
    (desired : Shape) : ∃ source,
    (blockFragment ctx (.mk (.known r.opcode) inputs id) desired locals).result =
      .ok ⟨source, .numberNotNaN⟩ ∧
      IsOperand readings.member? source (r.value readings) := by
  have hmember (name : String) {v : Int} (hword : name.toList.all (charKind · = .word) = true)
      (htoken : token? name.toList = some [.member name]) (hv : readings.member? name = some v) :
      IsOperand readings.member? name v :=
    isOperand_word (List.all_iff_forall_prop.1 hword) htoken (fun _ _ => rfl) hv
  have hsource {name : String} (hplan : plan ctx (.known r.opcode) inputs desired locals =
      .ok (.phrase name .numberNotNaN)) : (blockFragment ctx
      (.mk (.known r.opcode) inputs id) desired locals).result =
        .ok ⟨name, .numberNotNaN⟩ :=
    blockFragment_eq_ok.2 ⟨_, hplan, rfl⟩
  cases r with
  | xPosition => exact ⟨"this.x", hsource rfl, hmember _ (by decide) (by decide) rfl⟩
  | yPosition => exact ⟨"this.y", hsource rfl, hmember _ (by decide) (by decide) rfl⟩
  | direction => exact ⟨"this.direction", hsource rfl, hmember _ (by decide) (by decide) rfl⟩
  | mouseX => exact ⟨"this.mouse.x", hsource rfl, hmember _ (by decide) (by decide) rfl⟩
  | mouseY => exact ⟨"this.mouse.y", hsource rfl, hmember _ (by decide) (by decide) rfl⟩

theorem plan_operation (op : Operation) :
    plan ctx (.known (.operator op.opcode)) inputs .numberNotNaN locals =
    .ok (arithmetic op.sign .numberNotNaN) := by
  cases op <;> rfl

theorem compilesTo_of_computes {input : Input} {n : Int} (h : Computes readings input n) :
    CompilesTo ctx readings locals input n := by
  induction h with
  | literal hkind hv hn =>
    obtain ⟨x, hx, heq⟩ := Literal.number?_of_denotes hv (by omega)
    have hsafe := Literal.not_isUnsafeInteger heq (by omega)
    exact compilesTo_plain hkind hx (by simpa using hsafe) (castNumber_of_number? hx) heq
  | @text kind s hkind hs =>
    have hcast : Literal.castNumber (.text s) = .ok (.finite false 0) := by
      show Literal.ofText s >>= (fun number => _) = _
      rw [hs]
      rfl
    exact compilesTo_plain hkind hs rfl hcast (Binary64.eqInt_zero false)
  | reporter r inputs id =>
    obtain ⟨source, hsource, hoperand⟩ := blockFragment_reporter readings r id .numberNotNaN
    exact ⟨source, by rw [inputFragment]; exact hsource, hoperand.isExpr⟩
  | operation op hleft hright _ _ ihm ihn =>
    obtain ⟨source, hsource, hexpr⟩ := render_arithmetic op hleft hright ihm ihn .numberNotNaN
    refine ⟨source, ?_, hexpr⟩
    rw [inputFragment]
    exact blockFragment_eq_ok.2 ⟨_, plan_operation op, hsource⟩

/-! ### Indices -/

/-- A fragment for the index of a value: the index itself, or a number from which the one is still
to be subtracted. -/
inductive IsIndex (readings : Readings) (n : Int) : Fragment → Prop
  | number {source : String} (h : IsExpr readings.member? source n) :
      IsIndex readings n ⟨source, .numberNotNaN⟩
  | index {source : String} (h : Reads readings.member? source (n - 1)) :
      IsIndex readings n ⟨source, .index⟩

theorem IsIndex.reads_coerce {f : Fragment} {n : Int} (h : IsIndex readings n f) :
    Reads readings.member? (Source.coerce f.source f.shape .index) (n - 1) := by
  cases h with
  | @number source h =>
    have hsource : Source.coerce source .numberNotNaN .index =
        Source.paren source ++ (" " ++ Operation.subtract.sign ++ " ") ++ toString 1 := by
      rw [String.append_assoc]
      rfl
    rw [hsource]
    exact (h.isOperand_paren.binary .subtract (isOperand_numeral 1)).reads
  | index h => exact h

theorem render_offsetPhrase {slot : String} {input : Input} {offset : Binary64} {m k : Int}
    (hslot : inputs.lookup slot = some input) (h : CompilesTo ctx readings locals input m)
    (hoffset : offset.eqInt k = true) : ∃ source,
      ((offsetPhrase slot offset).render inputs (readers ctx inputs) locals).result = .ok source ∧
        Reads readings.member? source (m + k) := by
  obtain ⟨a, ha, hoperand⟩ := render_operand hslot h
  have hpositive := Binary64.lt_of_eqInt (Binary64.eqInt_zero false) hoffset
  have hnegative := Binary64.lt_of_eqInt hoffset (Binary64.eqInt_zero false)
  have hnumeral {x : Binary64} {n : Int} (hx : x.eqInt n = true) :
      ((Phrase.number x).render inputs (readers ctx inputs) locals).result = .ok (toString n) := by
    rw [← Literal.numberLiteral_of_eqInt hx]
    rfl
  unfold offsetPhrase
  rw [hpositive, hnegative]
  dsimp only
  rcases Int.lt_trichotomy k 0 with hk | rfl | hk
  · have hreads := (hoperand.binary .subtract (isOperand_integer (n := -k) (by omega))).reads
    rw [if_neg (by simpa using hk.le), if_pos (by simpa using hk)]
    refine ⟨a ++ " - " ++ toString (-k), ?_, ?_⟩
    · exact Phrase.render_append.2 ⟨_, _, Phrase.render_append.2 ⟨a, _, ha, rfl, rfl⟩,
        hnumeral (Binary64.neg_eqInt hoffset), rfl⟩
    · rw [← Int.sub_neg]
      exact hreads
  · refine ⟨a, ?_, by simpa using hoperand.reads⟩
    rw [if_neg (by decide), if_neg (by decide)]
    exact ha
  · have hreads := (hoperand.binary .add (isOperand_integer hk.le)).reads
    rw [if_pos (by simpa using hk)]
    refine ⟨a ++ " + " ++ toString k, ?_, hreads⟩
    exact Phrase.render_append.2 ⟨_, _, Phrase.render_append.2 ⟨a, _, ha, rfl, rfl⟩,
      hnumeral hoffset, rfl⟩

theorem absorbedOffset_eqInt (subtract : Bool) {x : Binary64} {n : Int} (hx : x.eqInt n = true)
    (hn : n.natAbs < 2 ^ 52) :
    (absorbedOffset subtract x).eqInt ((if subtract then -n else n) - 1) = true := by
  cases subtract with
  | true =>
    exact Binary64.sub_eqInt (Binary64.neg_eqInt hx) Binary64.eqInt_ofNat_one (by simp; omega)
  | false => exact Binary64.sub_eqInt hx Binary64.eqInt_ofNat_one (by simp; omega)

/-- The fragments of a plan for the index of a value. -/
def Indexes (ctx : Context) (readings : Readings) (locals : Name.Space) (inputs : Slots) (n : Int)
    (p : Plan) : Prop :=
  ∃ f, (p.fragment ctx inputs (readers ctx inputs) .index locals).result = .ok f ∧
    IsIndex readings n f

theorem indexes_number {x : Binary64} {n : Int} (hx : x.eqInt (n - 1) = true) :
    Indexes ctx readings locals inputs n (.phrase (.number x) .index) := by
  refine ⟨⟨toString (n - 1), .index⟩, Plan.fragment_phrase_eq_ok.2 ⟨_, ?_, rfl⟩,
    .index (reads_integer _)⟩
  rw [← Literal.numberLiteral_of_eqInt hx]
  rfl

theorem indexes_offset (subtract : Bool) {slot : String} {input : Input} {x : Binary64} {m n : Int}
    (hslot : inputs.lookup slot = some input) (h : CompilesTo ctx readings locals input m)
    (hx : x.eqInt n = true) (hn : n.natAbs < 2 ^ 52) :
    Indexes ctx readings locals inputs (m + if subtract then -n else n)
      (.phrase (offsetPhrase slot (absorbedOffset subtract x)) .index) := by
  obtain ⟨source, hsource, hreads⟩ :=
    render_offsetPhrase hslot h (absorbedOffset_eqInt subtract hx hn)
  rw [← Int.add_sub_assoc] at hreads
  exact ⟨⟨source, .index⟩, Plan.fragment_phrase_eq_ok.2 ⟨_, hsource, rfl⟩, .index hreads⟩

/-- Whatever operand the one is folded into, the plan is one for the index of the sum
or difference. -/
theorem indexAbsorbed?_indexes (ctx : Context) (locals : Name.Space) (subtract : Bool)
    {left right : Input} {m n : Int} (hleft : inputs.lookup "NUM1" = some left)
    (hright : inputs.lookup "NUM2" = some right) (hm : Computes readings left m)
    (hn : Computes readings right n) : ∃ plan?, indexAbsorbed? inputs subtract = .ok plan? ∧
      ∀ p ∈ plan?, Indexes ctx readings locals inputs (m + if subtract then -n else n) p := by
  have hleft' : Slots.literalNumber inputs "NUM1" = left.literalNumber := by
    rw [Slots.literalNumber, hleft]
  have hright' : Slots.literalNumber inputs "NUM2" = right.literalNumber := by
    rw [Slots.literalNumber, hright]
  obtain ⟨a?, hliteral, ha⟩ := literalNumber_of_computes hm
  obtain ⟨b?, hliteral', hb⟩ := literalNumber_of_computes hn
  unfold indexAbsorbed?
  rw [hleft', hliteral, hright', hliteral']
  dsimp only [bind, Except.bind]
  split
  · next a b =>
    obtain ⟨⟨ha, hmBound⟩, hb, hnBound⟩ := And.intro (ha a rfl) (hb b rfl)
    refine ⟨_, rfl, fun p hp => ?_⟩
    obtain ⟨-, hp⟩ := Option.ite_none_right_eq_some.1 hp
    cases hp
    refine indexes_number (Binary64.sub_eqInt ?_ Binary64.eqInt_ofNat_one ?_)
    · cases subtract with
      | true => exact Binary64.sub_eqInt ha hb (by omega)
      | false => exact Binary64.add_eqInt ha hb (by omega)
    · split <;> omega
  · refine ⟨_, rfl, fun p hp => ?_⟩
    obtain ⟨⟨slot, x?⟩, hside, hp⟩ := List.exists_of_findSome?_eq_some hp
    dsimp only at hp
    split at hp
    · next x =>
      obtain ⟨-, hp⟩ := Option.ite_none_right_eq_some.1 hp
      cases hp
      -- the literal on the right belongs to the operand on the left; on the left of a difference it
      -- is not folded
      have hcompiles : CompilesTo ctx readings locals left m := compilesTo_of_computes hm
      have hsum (hb? : b? = some x) :=
        indexes_offset subtract hleft hcompiles (hb x hb?).1 (hb x hb?).2
      cases subtract with
      | true =>
        cases List.mem_singleton.1 hside
        exact hsum rfl
      | false =>
        rcases List.mem_pair.1 hside with heq | heq
        · cases heq
          exact hsum rfl
        · cases heq
          rw [if_neg (by decide), Int.add_comm]
          exact indexes_offset false hright (compilesTo_of_computes hn) (ha x rfl).1 (ha x rfl).2
    · cases hp

theorem plan_operation_index (op : Operation) {left right : Input} {m n : Int}
    (hleft : inputs.lookup "NUM1" = some left) (hright : inputs.lookup "NUM2" = some right)
    (hm : Computes readings left m) (hn : Computes readings right n) : ∃ p,
      plan ctx (.known (.operator op.opcode)) inputs .index locals = .ok p ∧
        Indexes ctx readings locals inputs (op.apply m n) p := by
  have hplain :
      Indexes ctx readings locals inputs (op.apply m n) (arithmetic op.sign .numberNotNaN) := by
    obtain ⟨source, hsource, hexpr⟩ :=
      render_arithmetic op hleft hright (compilesTo_of_computes hm)
        (compilesTo_of_computes hn) .index
    exact ⟨_, hsource, .number hexpr⟩
  have habsorbed (subtract : Bool) (hvalue : (m + if subtract then -n else n) = op.apply m n) : ∃ p,
      additive inputs .index subtract op.sign = .ok p ∧
      Indexes ctx readings locals inputs (op.apply m n) p := by
    obtain ⟨p?, hp, hindexes⟩ := indexAbsorbed?_indexes ctx locals subtract hleft hright hm hn
    refine ⟨p?.getD (arithmetic op.sign .numberNotNaN), ?_, ?_⟩
    · show indexAbsorbed? inputs subtract >>= (fun absorbed => _) = _
      rw [hp]
      rfl
    · cases p? with
      | none => exact hplain
      | some p => exact hvalue ▸ hindexes p rfl
  cases op with
  | add => exact habsorbed false rfl
  | subtract => exact habsorbed true rfl
  | multiply => exact ⟨_, rfl, hplain⟩

theorem blockFragment_index {b : Block} {n : Int} (h : Computes readings (.block (some b)) n) : ∃ f,
    (blockFragment ctx b .index locals).result = .ok f ∧ IsIndex readings n f := by
  cases h with
  | reporter r inputs id =>
    obtain ⟨source, hsource, hoperand⟩ := blockFragment_reporter readings r id .index
    exact ⟨_, hsource, .number hoperand.isExpr⟩
  | operation op hleft hright hm hn =>
    obtain ⟨p, hp, f, hf, hindex⟩ := plan_operation_index op hleft hright hm hn
    exact ⟨f, blockFragment_eq_ok.2 ⟨p, hp, hf⟩, hindex⟩

/-- The source of a tree of integer arithmetic, read with the usual precedence and from the left,
has the value of the tree; asked for as an index, it has the value less one. -/
theorem integer_arithmetic_compiles (ctx : Context) (readings : Readings) (b : Block) (n : Int)
    (h : Computes readings (.block (some b)) n) :
    (∃ source, (blockSource ctx b .numberNotNaN).result = .ok source ∧
      evaluate readings.member? source = some n) ∧
    ∃ source, (blockSource ctx b .index).result = .ok source ∧
      evaluate readings.member? source = some (n - 1) := by
  constructor
  · obtain ⟨source, hsource, hexpr⟩ : CompilesTo ctx readings ctx.locals (.block (some b)) n :=
      compilesTo_of_computes h
    rw [inputFragment] at hsource
    refine ⟨source, ?_, hexpr.reads.evaluate_eq⟩
    rw [blockSource, Noted.result_bind, hsource]
    rfl
  · obtain ⟨f, hf, hindex⟩ := blockFragment_index (b := b) h
    refine ⟨Source.coerce f.source f.shape .index, ?_, hindex.reads_coerce.evaluate_eq⟩
    rw [blockSource, Noted.result_bind, hf]
    rfl

/-- `(0x10 + (apple + mouse x)) * (y - -3) - 1e2`. -/
def nestedArithmetic : Block :=
  let word := .mk (.known (.operator .add)) [("NUM1", .plain "text" (.text "apple")),
    ("NUM2", .block (some (.mk (.known (.sensing .mouseX)) [] "d")))] "c"
  let left := .mk (.known (.operator .add)) [("NUM1", .plain "number" (.text " 0x10 ")),
    ("NUM2", .block (some word))] "b"
  let right :=
    .mk (.known (.operator .subtract))
    [("NUM1", .block (some (.mk (.known (.motion .yPosition)) [] "f"))),
    ("NUM2", .plain "number" (.int (-3)))] "e"
  let product := .mk (.known (.operator .multiply)) [("NUM1", .block (some left)),
    ("NUM2", .block (some right))] "a"
  .mk (.known (.operator .subtract)) [("NUM1", .block (some product)),
    ("NUM2", .plain "number" (.text "1e2"))] "root"

theorem nestedArithmetic_compiles : ∃ names ctx,
    Context.make Name.clashingProject names 1 1 true = .ok ctx ∧
    Computes ⟨0, -2, 0, 7, 0⟩ (.block (some nestedArithmetic)) (-77) ∧
    (∃ source, (blockSource ctx nestedArithmetic .numberNotNaN).result = .ok source ∧
      evaluate (Readings.member? ⟨0, -2, 0, 7, 0⟩) source = some (-77)) ∧
    ∃ source, (blockSource ctx nestedArithmetic .index).result = .ok source ∧
      evaluate (Readings.member? ⟨0, -2, 0, 7, 0⟩) source = some (-78) := by
  obtain ⟨names, hnames⟩ : ∃ names, Name.assign Name.clashingProject = .ok names := ⟨_, rfl⟩
  obtain ⟨ctx, hctx⟩ : ∃ ctx, Context.make Name.clashingProject names 1 1 true = .ok ctx := by
    cases hnames
    exact ⟨_, rfl⟩
  have hbased : Literal.Denotes (.text " 0x10 ") 16 := by
    have hs : Text.trim " 0x10 ".toList = ['0', 'x', '1', '0'] := by decide +kernel
    have hdigits : List.Forall₂ (fun c d => Json.hexValue? c = some d ∧ d < 16) ['1', '0'] [1, 0] :=
      .cons (by decide) (.cons (by decide) .nil)
    exact .text (.based hs (by decide) (by decide) hdigits)
  have hexponent : Literal.Denotes (.text "1e2") 100 := by
    have hs : Literal.Signed (Text.trim "1e2".toList) false ['1', 'e', '2'] := .plain _
    have hmantissa : Literal.Mantissa ['1'] ['1'] [] := .whole (by decide) (by simp; decide)
    have he : Literal.Exponent ['e', '2'] 2 :=
      .some (.inl rfl) (.plain ['2']) (by decide) (by simp; decide)
    have hvalue : Text.digitsValue (['1'] ++ []) = 1 := by decide
    exact .text (.decimal (n := 100) hs hmantissa he (by rw [hvalue]; norm_num))
  have h : Computes ⟨0, -2, 0, 7, 0⟩ (.block (some nestedArithmetic)) (-77) := by
    refine .operation .subtract rfl rfl (m := 23) (n :=
      100) (.operation .multiply rfl rfl (m := 23) (n := 1) ?_ ?_) ?_
    · refine .operation .add rfl rfl (m := 16) (n :=
        7) ?_ (.operation .add rfl rfl (m := 0) (n := 7) ?_ ?_)
      · exact .literal (by decide) hbased (by decide)
      · exact .text (by decide) (by decide +kernel)
      · exact .reporter .mouseX _ _
    · show Computes _ _ (Operation.subtract.apply (-2) (-3))
      refine .operation .subtract rfl rfl ?_ ?_
      · exact .reporter .yPosition _ _
      · exact .literal (by decide) (.int (-3)) (by decide)
    · exact .literal (by decide) hexponent (by decide)
  exact ⟨names, ctx, hctx, h,
    integer_arithmetic_compiles ctx ⟨0, -2, 0, 7, 0⟩ nestedArithmetic (-77) h⟩

end Compile

end ScratchExport
