import ScratchExport.Proofs.Arithmetic
import ScratchExport.Proofs.Execution
import ScratchExport.Proofs.References

/-!
# Changing a variable by a literal

A literal is folded into the statement that changes a variable: `V++`, `V--`, `V -= n` or `V += n`
in place of `V = this.toNumber(V) + n`. `Update.read?` reads these statements back from source, and
`Update.exec` says what they make of the value of `V`. They agree where the value is converted to a
number alike: not for NaN, which only the cast takes for zero, and not for a text before `+=`, which
is then not converted at all.
-/

namespace ScratchExport.Execution

/-- A statement that changes a place by a number. -/
inductive Update where
  | increment
  | decrement
  | subtract (n : Number)
  | add (n : Number)
  /-- The place gets the cast of its value plus a number. -/
  | castAdd (n : Number)
  deriving DecidableEq

/-- What is behind the start of a text. -/
def behind? (start cs : List Char) : Option (List Char) :=
  if start.isPrefixOf cs then some (cs.drop start.length) else none

@[simp] theorem behind?_append (start cs : List Char) : behind? start (start ++ cs) = some cs := by
  rw [behind?, if_pos (List.isPrefixOf_iff_prefix.2 (List.prefix_append ..)), List.drop_left]

namespace Update

/-- What a statement makes of the value of its place. The sum of a text and a number is a text, with
the number spelled out. -/
def exec (spelling : Number → String) : Update → Val → Val
  | .increment, v => .number (v.toNumber + .finite 1)
  | .decrement, v => .number (v.toNumber - .finite 1)
  | .subtract n, v => .number (v.toNumber - n)
  | .add n, .text s => .text (s ++ spelling n)
  | .add n, v => .number (v.toNumber + n)
  | .castAdd n, v => .number (v.cast + n)

/-- The statement behind the place that it changes. -/
def readBehind? (place : String) : List Char → Option Update
  | ['+', '+'] => some .increment
  | ['-', '-'] => some .decrement
  | ' ' :: '-' :: '=' :: ' ' :: cs => (number? cs).map .subtract
  | ' ' :: '+' :: '=' :: ' ' :: cs => (number? cs).map .add
  | ' ' :: '=' :: ' ' :: cs => do
    let operand ← behind? ("this.toNumber(" ++ place ++ ") + ").toList cs
    (number? operand).map .castAdd
  | _ => none

/-- The statement that source is, if it changes a place. -/
def read? (place source : String) : Option Update := do
  readBehind? place (← behind? place.toList source.toList)

theorem read?_append (place tail : String) :
    read? place (place ++ tail) = readBehind? place tail.toList := by
  rw [read?, String.toList_append, behind?_append]
  rfl

theorem readBehind?_subtract (place : String) (cs : List Char) :
    readBehind? place (" -= ".toList ++ cs) = (number? cs).map .subtract :=
  rfl

theorem readBehind?_add (place : String) (cs : List Char) :
    readBehind? place (" += ".toList ++ cs) = (number? cs).map .add :=
  rfl

theorem readBehind?_castAdd (place : String) (cs : List Char) :
    readBehind? place (" = ".toList ++ (("this.toNumber(" ++ place ++ ") + ").toList ++ cs)) =
      (number? cs).map .castAdd := by
  show (behind? ("this.toNumber(" ++ place ++ ") + ").toList
    (("this.toNumber(" ++ place ++ ") + ").toList ++ cs) >>=
    fun operand => (number? operand).map castAdd) = _
  rw [behind?_append]
  rfl

end Update

open Literal (numberLiteral)

/-! ### Folded literals -/

/-- The statement that a literal is folded into. -/
def folded (x : Binary64) : Update :=
  if x.eqInt 1 then .increment
  else if x.eqInt (-1) then .decrement
  else if x.lt (.finite false 0) then .subtract (-.ofDouble x)
  else .add (.ofDouble x)

/-- Its source. -/
def foldedSource (place : String) (x : Binary64) : String :=
  if x.eqInt 1 then place ++ "++"
  else if x.eqInt (-1) then place ++ "--"
  else if x.lt (.finite false 0) then place ++ " -= " ++ numberLiteral (-x)
  else place ++ " += " ++ numberLiteral x

theorem read?_foldedSource (place : String) {x : Binary64} (hfinite : x.isFinite = true)
    (h : x.IsDouble) : Update.read? place (foldedSource place x) = some (folded x) := by
  have hneg : (-x).isFinite = true ∧ (-x).IsDouble := by
    cases x with
    | finite negative units => exact ⟨rfl, h⟩
    | _ => cases hfinite
  unfold foldedSource folded
  split_ifs
  · rw [Update.read?_append]
    rfl
  · rw [Update.read?_append]
    rfl
  · rw [String.append_assoc, Update.read?_append, String.toList_append, Update.readBehind?_subtract,
      number?_numberLiteral hneg.1 hneg.2, Number.ofDouble_neg hfinite]
    rfl
  · rw [String.append_assoc, Update.read?_append, String.toList_append, Update.readBehind?_add,
      number?_numberLiteral hfinite h]
    rfl

theorem ofDouble_of_eqInt {x : Binary64} {n : Int} (h : x.eqInt n = true) :
    Number.ofDouble x = .finite n := by
  obtain ⟨negative, units, rfl, hunits⟩ := Binary64.eqInt_iff.1 h
  have hone : (Binary64.one : ℚ) ≠ 0 := by exact_mod_cast Binary64.one_pos.ne'
  refine congrArg Number.finite ?_
  rw [hunits, div_eq_iff hone]
  push_cast
  rfl

/-- A folded statement does what the cast does, just where the operator converts the value to the
same number. -/
theorem exec_folded_iff (spelling : Number → String) {x : Binary64} (hfinite : x.isFinite = true)
    (v : Val) :
    (folded x).exec spelling v = .number (v.cast + .ofDouble x) ↔
      v.toNumber ≠ .nan ∧ (v.isText = true → x.eqInt 1 = true ∨ x.lt (.finite false 0) = true) := by
  obtain ⟨q, hq⟩ : ∃ q, Number.ofDouble x = .finite q := by
    cases x with
    | finite negative units => exact ⟨_, rfl⟩
    | _ => cases hfinite
  -- What is converted by an operator agrees with the cast just where it is not NaN.
  have hnumber : Val.number (v.toNumber + .ofDouble x) = .number (v.cast + .ofDouble x) ↔
      v.toNumber ≠ .nan := by
    rw [Val.cast, hq, Val.number.injEq]
    constructor
    · intro heq hnan
      rw [hnan, Number.nan_add] at heq
      exact Number.finite_add_ne_nan 0 q heq.symm
    · intro hne
      rw [Number.orZero_of_ne hne]
  unfold folded
  split_ifs with hone hminus hneg
  · have hexec : Update.increment.exec spelling v = .number (v.toNumber + .ofDouble x) := by
      rw [ofDouble_of_eqInt hone, Int.cast_one]
      rfl
    rw [hexec, hnumber]
    simp [hone]
  · have hexec : Update.decrement.exec spelling v = .number (v.toNumber + .ofDouble x) := by
      rw [ofDouble_of_eqInt hminus, Int.cast_neg, Int.cast_one]
      rfl
    have hlt : x.lt (.finite false 0) = true :=
      Binary64.lt_of_eqInt hminus (Binary64.eqInt_zero false)
    rw [hexec, hnumber]
    simp [hlt]
  · have hexec : (Update.subtract (-.ofDouble x)).exec spelling v =
        .number (v.toNumber + .ofDouble x) := by
      rw [Update.exec, Number.sub_eq, Number.neg_neg]
    rw [hexec, hnumber]
    simp [hneg]
  · cases v with
    | text s => simp [Update.exec, Val.isText, hone, hneg]
    | number n => exact hnumber.trans (by simp [Val.isText])
    | truth b => exact hnumber.trans (by simp [Val.isText])

end ScratchExport.Execution

namespace ScratchExport.Compile
open Execution
variable {ctx : Context} {slots : Slots} {x : Binary64}

/-! ### Blocks -/

/-- The statement that changes a place by the number in a slot without folding it. -/
def castChange (place : Phrase) (slot : String) : Phrase :=
  place ++ " = this.toNumber(" ++ place ++ ") + " ++ Phrase.operand slot .numberNotNaN

theorem changeBy_castChange (place : Phrase) {slot : String} {x? : Option Binary64}
    (h : slots.literalNumber slot = .ok x?) (hinfinite : ∀ x ∈ x?, x.isFinite = false) :
    changeBy slots place slot true = .ok (castChange place slot) := by
  have hfilter : x?.filter (·.isFinite) = none := by
    rw [Option.filter_eq_none_iff]
    intro x hx
    simp [hinfinite x hx]
  rw [changeBy, h]
  dsimp only [bind, Except.bind]
  rw [hfilter]
  rfl

theorem changeBy_folded (place : Phrase) {slot : String} (cast : Bool)
    (h : slots.literalNumber slot = .ok (some x)) (hfinite : x.isFinite = true) {readers : Readers}
    {locals : Name.Space} {member : String}
    (hplace : (place.render slots readers locals).result = .ok member) :
    ∃ p, changeBy slots place slot cast = .ok p ∧
      (p.render slots readers locals).result = .ok (foldedSource member x) := by
  have htail (tail : String) :
      ((place ++ (tail : Phrase)).render slots readers locals).result = .ok (member ++ tail) :=
    Phrase.render_append.2 ⟨member, tail, hplace, rfl, rfl⟩
  have hnumber (tail : String) (y : Binary64) :
      ((place ++ (tail : Phrase) ++ Phrase.number y).render slots readers
      locals).result = .ok (member ++ tail ++ Literal.numberLiteral y) :=
    Phrase.render_append.2 ⟨_, _, htail tail, rfl, rfl⟩
  have hfilter : (some x).filter (·.isFinite) = some x := Option.filter_some_pos hfinite
  unfold changeBy foldedSource
  rw [h]
  dsimp only [bind, Except.bind]
  rw [hfilter]
  dsimp only
  split_ifs
  exacts [⟨_, rfl, htail "++"⟩, ⟨_, rfl, htail "--"⟩, ⟨_, rfl, hnumber " -= " (-x)⟩,
    ⟨_, rfl, hnumber " += " x⟩]

theorem literalNumber_eq_some {input : Input} (h : input.literalNumber = .ok (some x)) :
    ∃ kind v, input = .plain kind v ∧ (kind == "color") = false ∧ Literal.number? v = .ok (some x) ∧
      Literal.isUnsafeInteger x = false := by
  unfold Input.literalNumber at h
  split at h
  · cases h
  · cases h
  · rename_i hblock hstack
    split_ifs at h with hcolor
    · cases h
    obtain ⟨found, hfound, h⟩ := Outcome.bind_eq_ok.1 h
    obtain ⟨rfl, hsafe⟩ := Option.filter_eq_some_iff.1 (Outcome.pure_eq_ok.1 h)
    cases input with
    | plain kind v => exact ⟨kind, v, rfl, Bool.eq_false_iff.2 hcolor, hfound, by simpa using hsafe⟩
    | reference | arguments | values => cases hfound
    | block b => exact absurd rfl (hblock b)
    | stack bs => exact absurd rfl (hstack bs)

theorem lookup_literalNumber {slot : String} (h : slots.literalNumber slot = .ok (some x)) :
    ∃ kind v, slots.lookup slot = some (.plain kind v) ∧ (kind == "color") = false ∧
    Literal.number? v = .ok (some x) ∧
      Literal.isUnsafeInteger x = false := by
  unfold Slots.literalNumber at h
  cases hlookup : slots.lookup slot with
  | none =>
    rw [hlookup] at h
    cases h
  | some input =>
    rw [hlookup] at h
    obtain ⟨kind, v, rfl, hliteral⟩ := literalNumber_eq_some h
    exact ⟨kind, v, rfl, hliteral⟩

theorem render_literal_operand {slot : String} {locals : Name.Space}
    (h : slots.literalNumber slot = .ok (some x)) :
    ((Phrase.operand slot .numberNotNaN).render slots (readers ctx slots) locals).result =
      .ok (Source.paren (Literal.numberLiteral x)) := by
  obtain ⟨kind, v, hlookup, hcolor, hnumber, hsafe⟩ := lookup_literalNumber h
  have hfragment :=
    literalFragment_numberNotNaN hnumber (by simpa using hsafe) (castNumber_of_number? hnumber)
  have hinput : (inputFragment ctx (.plain kind v) .numberNotNaN locals).result =
      .ok ⟨Literal.numberLiteral x, .numberNotNaN⟩ := by
    rw [inputFragment]
    dsimp only
    rw [if_neg (by simp [hcolor]), hfragment]
    rfl
  rw [Phrase.render, Noted.result_bind, Readers.source, Noted.result_bind, Readers.fragment,
    lookup_readers, hlookup]
  dsimp only [Option.map_some]
  rw [hinput]
  rfl

theorem render_castChange {place : Phrase} {slot member : String} {locals : Name.Space}
    (hplace : (place.render slots (readers ctx slots) locals).result = .ok member)
    (h : slots.literalNumber slot = .ok (some x)) :
    ((castChange place slot).render slots (readers ctx slots) locals).result =
      .ok (member ++ " = this.toNumber(" ++ member ++ ") + " ++
        Source.paren (Literal.numberLiteral x)) :=
  Phrase.render_append.2 ⟨_, _,
    Phrase.render_append.2 ⟨_, _, Phrase.render_append.2 ⟨_, _, Phrase.render_append.2
    ⟨_, _, hplace, rfl, rfl⟩, hplace, rfl⟩, rfl, rfl⟩, render_literal_operand h, rfl⟩

theorem read?_castChange (member : String) (hfinite : x.isFinite = true) (hdouble : x.IsDouble) :
    Update.read? member (member ++ " = this.toNumber(" ++ member ++ ") + " ++
      Source.paren (Literal.numberLiteral x)) =
      some (.castAdd (.ofDouble x)) := by
  have hread := Update.readBehind?_castAdd member (Source.paren (Literal.numberLiteral x)).toList
  rw [number?_paren hfinite hdouble] at hread
  have hsplit : member ++ " = this.toNumber(" ++ member ++ ") + " ++
      Source.paren (Literal.numberLiteral x) =
      member ++ (" = " ++
        ("this.toNumber(" ++ member ++ ") + " ++ Source.paren (Literal.numberLiteral x))) := by
    have hword : " = this.toNumber(" = " = " ++ "this.toNumber(" := by decide
    simp only [hword, String.append_assoc]
  rw [hsplit, Update.read?_append, String.toList_append, String.toList_append]
  exact hread

theorem plan_changeVariable {ref : DataRef} {owner : Nat} {property : String} {desired : Shape}
    {locals : Name.Space} (href : slots.dataRef? "VARIABLE" = .ok (some ref))
    (hresolve : ctx.resolve .variable ref = some (owner, property)) :
    plan ctx (.known (.data .changeVariableBy)) slots desired locals = do
      return .statement
          (← changeBy slots (ownedPhrase ctx "vars" owner property) "VALUE" true) := by
  have hplace :
      dataPhrase? ctx slots "VARIABLE" .variable "vars" =
      .ok (some (ownedPhrase ctx "vars" owner property)) := by
    rw [dataPhrase?, href]
    show Except.ok (Option.map _ (ctx.resolve .variable ref)) = _
    rw [hresolve]
    rfl
  show withData ctx slots "VARIABLE" .variable _ = _
  rw [withData, hplace]
  rfl

/-- A slot without a finite literal is added to the cast of the variable. A block that changes the
variable by a literal compiles to a statement that does the same as adding the literal so, just for
the values that are no NaN as a number and, unless the statement counts up by one or down, no text.
-/
theorem literal_change_iff (ctx : Context) (b : Block) {ref : DataRef} {owner : Nat}
    {property : String} {x : Binary64} (hkind : b.kind = .known (.data .changeVariableBy))
    (href : Slots.dataRef? b.inputs "VARIABLE" = .ok (some ref))
    (hresolve : ctx.resolve .variable ref = some (owner, property))
    (hvalue : Slots.literalNumber b.inputs "VALUE" = .ok (some x)) (hfinite : x.isFinite = true)
    (hfloat : ∀ kind y, b.inputs.lookup "VALUE" = some (.plain kind (.float y)) → y.IsDouble) :
    (∀ (other : Slots) (y? : Option Binary64), other.literalNumber "VALUE" = .ok y? →
      (∀ y ∈ y?, y.isFinite = false) →
      changeBy other (ownedPhrase ctx "vars" owner property) "VALUE" true =
        .ok (castChange (ownedPhrase ctx "vars" owner property) "VALUE")) ∧
    ∃ source general change,
      (blockSource ctx b .stack).result = .ok source ∧
      ((castChange (ownedPhrase ctx "vars" owner property) "VALUE").render b.inputs
        (readers ctx b.inputs)
        ctx.locals).result = .ok general ∧
      Update.read? (memberSource "vars" ctx.targetIndex owner property) source = some change ∧
      Update.read? (memberSource "vars" ctx.targetIndex owner property) general =
          some (.castAdd (.ofDouble x)) ∧
      ∀ spelling v, (Update.castAdd (.ofDouble x)).exec spelling v =
        .number (v.cast + .ofDouble x) ∧
        (change.exec spelling v = .number (v.cast + .ofDouble x) ↔
          v.toNumber ≠ .nan ∧
          (v.isText = true → x.eqInt 1 = true ∨ x.lt (.finite false 0) = true)) := by
  refine ⟨fun other y? => changeBy_castChange _, ?_⟩
  obtain ⟨kind, inputs, id⟩ := b
  cases hkind
  simp only [Block.inputs] at href hvalue hfloat ⊢
  have hdouble : x.IsDouble := by
    obtain ⟨kind, v, hlookup, -, hnumber, -⟩ := lookup_literalNumber hvalue
    refine Literal.isDouble_of_number? (fun y hy => hfloat kind y ?_) hnumber
    rw [← hy]
    exact hlookup
  have hplace :
      ((ownedPhrase ctx "vars" owner property).render inputs
      (readers ctx inputs) ctx.locals).result =
      .ok (memberSource "vars" ctx.targetIndex owner property) := render_ownedPhrase "vars"
  obtain ⟨p, hp, hrender⟩ := changeBy_folded _ true hvalue hfinite hplace
  have hfragment :
      (blockFragment ctx (.mk (.known (.data .changeVariableBy)) inputs id) .stack
      ctx.locals).result =
      .ok ⟨foldedSource (memberSource "vars" ctx.targetIndex owner property) x, .stack⟩ := by
    refine blockFragment_eq_ok.2 ⟨.statement p, ?_, Plan.fragment_phrase_eq_ok.2 ⟨_, hrender, rfl⟩⟩
    rw [plan_changeVariable href hresolve, hp]
    rfl
  refine ⟨_, _, _, ?_, render_castChange hplace hvalue, read?_foldedSource _ hfinite hdouble,
    read?_castChange _ hfinite hdouble, fun spelling v => ⟨rfl, exec_folded_iff spelling hfinite v⟩⟩
  rw [blockSource, Noted.result_bind, hfragment]
  rfl

/-- A variable of the stage and one of a sprite with a script. -/
def countingProject : Project where
  stage := { name := .text "Stage", vars := [{ name := .text "lives", id := "s" }] }
  sprites := [
    { name := .text "Cat", vars := [{ name := .text "score", id := "c" }],
      scripts := [⟨[], .text "play", .int 0, .int 0⟩] }]

def loseLife : Block :=
  .mk (.known (.data .changeVariableBy))
    [("VARIABLE", .reference .variable ⟨.text "s", .text "lives"⟩),
      ("VALUE", .plain "number" (.text " -0.1"))] "a"

theorem loseLife_subtracts : ∃ names ctx x source change, Name.assign countingProject = .ok names ∧
    Context.make countingProject names 1 0 false = .ok ctx ∧
    Slots.literalNumber loseLife.inputs "VALUE" = .ok (some x) ∧ x.isFinite = true ∧
    (blockSource ctx loseLife .stack).result = .ok source ∧
    source = "this.stage.vars.lives -= 0.1" ∧
    Update.read? "this.stage.vars.lives" source = some change ∧
    ∀ spelling, change.exec spelling (.text "3 ") = .number (.finite 3 + .ofDouble x) ∧
      change.exec spelling (.text "cat") ≠ .number (.finite 0 + .ofDouble x) := by
  have hrun : (do
      let names ← Name.assign countingProject
      let ctx ← Context.make countingProject names 1 0 false
      let x? ← Slots.literalNumber loseLife.inputs "VALUE"
      let source ← (blockSource ctx loseLife .stack).result
      return (ctx.targetIndex, ctx.resolve .variable ⟨.text "s", .text "lives"⟩,
        x?.map fun x : Binary64 => (x.isFinite, x.lt (.finite false 0)), source)).toOption =
      some (1, some (0, "lives"), some (true, true), "this.stage.vars.lives -= 0.1") := by
        decide +kernel
  obtain ⟨names, hnames, hrun⟩ := Outcome.bind_eq_ok.1 (Outcome.toOption_eq_some.1 hrun)
  obtain ⟨ctx, hctx, hrun⟩ := Outcome.bind_eq_ok.1 hrun
  obtain ⟨x?, hx, hrun⟩ := Outcome.bind_eq_ok.1 hrun
  obtain ⟨source, hsource, hrun⟩ := Outcome.bind_eq_ok.1 hrun
  have hanswers := Outcome.pure_eq_ok.1 hrun
  simp only [Prod.mk.injEq] at hanswers
  obtain ⟨hindex, hresolve, hliteral, htext⟩ := hanswers
  obtain ⟨x, rfl, hsigns⟩ := Option.map_eq_some_iff.1 hliteral
  obtain ⟨hfinite, hnegative⟩ := Prod.mk.inj hsigns
  have hfloat (kind : String) (y : Binary64)
      (h : loseLife.inputs.lookup "VALUE" = some (.plain kind (.float y))) : y.IsDouble := by
    have hlookup : loseLife.inputs.lookup "VALUE" = some (.plain "number" (.text " -0.1")) := rfl
    rw [hlookup] at h
    cases h
  obtain ⟨-, source', general, change, hsource', -, hread, -, hexec⟩ :=
    literal_change_iff ctx loseLife rfl rfl hresolve hx hfinite hfloat
  rw [hsource] at hsource'
  cases hsource'
  rw [hindex] at hread
  have hcast : Val.cast (.text "3 ") = .finite 3 ∧ Val.cast (.text "cat") = .finite 0 := by
    decide +kernel
  rw [← hcast.1, ← hcast.2]
  refine ⟨names, ctx, x, source, change, hnames, hctx, hx, hfinite, hsource, htext, hread,
    fun spelling => ⟨?_, ?_⟩⟩
  · exact (hexec spelling (.text "3 ")).2.2 ⟨by decide +kernel, fun _ => .inr hnegative⟩
  · intro heq
    exact ((hexec spelling (.text "cat")).2.1 heq).1 (by decide +kernel)

def winPoints : Block :=
  .mk (.known (.data .changeVariableBy))
    [("VARIABLE", .reference .variable ⟨.text "c", .text "score"⟩),
      ("VALUE", .plain "number" (.text "5"))] "b"

/-- A score that is a text gets the points as more of its text. -/
theorem winPoints_joins_text : ∃ names ctx, Name.assign countingProject = .ok names ∧
    Context.make countingProject names 1 0 false = .ok ctx ∧
    (blockSource ctx winPoints .stack).result = .ok "this.vars.score += 5" ∧
    Update.read? "this.vars.score" "this.vars.score += 5" = some (.add (.finite 5)) ∧
    Val.cast (.text "3") + .finite 5 = .finite 8 ∧
    ∀ spelling, (Update.add (.finite 5)).exec spelling (.text "3") =
      .text ("3" ++ spelling (.finite 5)) ∧
      (Update.add (.finite 5)).exec spelling (.text "3") ≠ .number (.finite 8) := by
  have hrun : (do
      let names ← Name.assign countingProject
      let ctx ← Context.make countingProject names 1 0 false
      (blockSource ctx winPoints .stack).result).toOption = some "this.vars.score += 5" := by
      decide +kernel
  obtain ⟨names, hnames, hrun⟩ := Outcome.bind_eq_ok.1 (Outcome.toOption_eq_some.1 hrun)
  obtain ⟨ctx, hctx, hsource⟩ := Outcome.bind_eq_ok.1 hrun
  refine ⟨names, ctx, hnames, hctx, hsource, by decide +kernel, by decide +kernel,
    fun spelling => ⟨rfl, ?_⟩⟩
  intro heq
  cases heq

end ScratchExport.Compile
