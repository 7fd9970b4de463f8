import ScratchExport.Proofs.Opcodes
import ScratchExport.Proofs.Scopes
import ScratchExport.Proofs.SourceLaw

/-!
# The names of loop variables

Compiling keeps the local names that are taken in one place: a loop with a counter takes names there
for the time of its body, other bodies have a scope of their own, and whatever else is compiled in
between sees what is there at that moment. Here this is written out as a computation in a scope
(`blockRun`), which tracks `blockFragment`: the latter is handed the taken names and changes
nothing. So blocks one behind the other do not see each other's names.

What a loop takes is new in the scope it is opened in, and that scope holds the names of all loops
around it, the parameters and what is reserved, whatever kinds of bodies lie between
(`loop_variables_never_shadow`).
-/

namespace ScratchExport.Compile
open Outcome (Ensures)

/-! ### Where plans open scopes -/

/-- The bodies in a phrase are compiled where these names are taken. -/
def Phrase.BodiesAt (locals : Name.Space) : Phrase → Prop
  | .body _ inner => inner = locals
  | .append p q | .after p q => p.BodiesAt locals ∧ q.BodiesAt locals
  | _ => True

/-- The same for the phrase of a plan. -/
def Plan.BodiesAt (locals : Name.Space) : Plan → Prop
  | .phrase p _ => p.BodiesAt locals
  | _ => True

section
variable {ctx : Context} {kind : BlockKind} {slots : Slots} {locals : Name.Space}

@[simp] theorem bodiesAt_ownedPhrase (container : String) (owner : Nat) (property : String) :
    (ownedPhrase ctx container owner property).BodiesAt locals := by
  unfold ownedPhrase
  split_ifs
  · trivial
  · exact ⟨⟨⟨trivial, trivial⟩, trivial⟩, trivial⟩

theorem Phrase.Fits.bodiesAt (hloop : kind ≠ .known (.control .loop))
    (heach : kind ≠ .known (.control .forEach)) {p : Phrase} {a b : Seam}
    (hp : p.Fits ctx kind slots locals a b) : p.BodiesAt locals := by
  induction p generalizing a b with
  | body slot inner => exact hp.1.resolve_right (not_or.2 ⟨hloop, heach⟩)
  | append p q ihp ihq | after p q ihp ihq =>
    obtain ⟨m, hp, hq⟩ := hp
    exact ⟨ihp hp, ihq hq⟩
  | _ => trivial

/-- The two loops with a counter take more names for their bodies; everywhere else a body is
compiled with the names that are taken around it. -/
theorem plan_bodiesAt (hloop : kind ≠ .known (.control .loop))
    (heach : kind ≠ .known (.control .forEach)) (desired : Shape) :
    Ensures (plan ctx kind slots desired locals) (Plan.BodiesAt locals) := by
  intro p hp
  have hfits := (plan_becomes kind desired locals).result p hp
  cases p with
  | phrase p shape => exact Phrase.Fits.bodiesAt hloop heach hfits
  | _ => trivial

end

/-! ### Compiling in a scope -/

/-- How an input is compiled for a shape in a scope, and the inputs that a call passes in it. -/
structure Runner where
  run : Shape → Scoped Fragment
  items : List (Shape → Scoped Fragment)

/-- How the inputs of a block are compiled in a scope. -/
abbrev Runners := List (String × Runner)

namespace Runners
variable (runners : Runners)

/-- The input in a slot; an absent one reads as null. -/
def fragment (slot : String) (shape : Shape) : Scoped Fragment :=
  match runners.lookup slot with
  | some runner => runner.run shape
  | none => .lift (.ofExcept (literalFragment .null shape))

/-- The input in a slot as source of a shape. -/
def source (slot : String) (shape : Shape) : Scoped String := do
  let f ← fragment runners slot shape
  return Source.coerce f.source f.shape shape

/-- What a call passes at a position; what is missing reads as null. -/
def argument (position : Nat) : Scoped Fragment :=
  match (runners.lookup "INPUTS").bind (·.items[position]?) with
  | some run => run .any
  | none => .lift (.ofExcept (literalFragment .null .any))

/-- The statements in a slot, each line ended. -/
def body (slot : String) : Scoped String := do
  let source ← source runners slot .stack
  return if source.isEmpty then "" else source ++ "\n"

end Runners

/-- The source of a phrase. Its bodies are compiled in scopes of their own. -/
def Phrase.run (slots : Slots) (runners : Runners) : Phrase → Scoped String
  | .text s | .name s | .effect s => pure s
  | .literal s => pure (Text.literal s)
  | .number x => pure (Literal.numberLiteral x)
  | .input slot shape => runners.source slot shape
  | .operand slot shape => do return Source.paren (← runners.source slot shape)
  | .color slot =>
    match slots.lookup slot with
    | some (.plain "color" v) => .lift (.ofExcept (Literal.Color.source v))
    | _ => do return "Color.num(" ++ (← runners.source slot .any) ++ ")"
  | .argument position => do return (← runners.argument position).source
  | .body slot _ => .within (runners.body slot)
  | .append first second => do
    let a ← first.run slots runners
    let b ← second.run slots runners
    return a ++ b
  | .after first second => do
    let b ← second.run slots runners
    let a ← first.run slots runners
    return a ++ b
  | .stop fault => .lift (.fail fault)

/-- Carry out a plan. -/
def Plan.run (ctx : Context) (slots : Slots) (runners : Runners) (desired : Shape) :
    Plan → Scoped Fragment
  | .phrase p shape => do return ⟨← p.run slots runners, shape⟩
  | plan => do .lift (plan.fragment ctx slots [] desired (← Scoped.locals))

/-- The source of a loop. -/
def loopSource (ctx : Context) (head body : String) : String :=
  head ++ " \x7b\n" ++ body ++ (if ctx.warp then "" else "yield;\n") ++ "\x7d"

/-- The number of rounds of a loop. -/
def roundsPhrase (count : Option Binary64) : Phrase :=
  match count.filter (·.isFinite) with
  | some n => .number (roundHalfUp n)
  | none => .input "TIMES" .number

/-- A loop with a fixed number of rounds takes a name for its counter, and one for its limit if a
block gives it. -/
def repeatRun (ctx : Context) (slots : Slots) (runners : Runners) : Scoped Fragment := do
  let count ← Scoped.lift (.ofExcept (slots.literalNumber "TIMES"))
  let times ← (roundsPhrase count).run slots runners
  Scoped.within do
    let counter ← Scoped.allocate "i"
    let heading ← if slots.hasBlock "TIMES" then do
        let limit ← Scoped.allocate "times"
        pure (Heading.measured counter limit times)
      else pure (Heading.fixed counter times)
    Scoped.enter heading
    let body ← runners.body "SUBSTACK"
    return ⟨loopSource ctx heading.source body, .stack⟩

/-- A loop that sets a variable takes a name for its counter. -/
def forEachRun (ctx : Context) (slots : Slots) (runners : Runners) (desired : Shape) :
    Scoped Fragment := do
  match ← Scoped.lift (.ofExcept (dataPhrase? ctx slots "VARIABLE" .variable "vars")) with
  | none =>
    let plan ← Scoped.lift (.ofExcept (missingData slots "VARIABLE" .variable))
    plan.run ctx slots runners desired
  | some place =>
    let count ← runners.source "VALUE" .numberNotNaN
    Scoped.within do
      let counter ← Scoped.allocate "i"
      Scoped.enter (.each counter count)
      let place ← place.run slots runners
      let body ← runners.body "SUBSTACK"
      return ⟨loopSource ctx (Heading.each counter count).source
        (place ++ " = " ++ counter ++ ";\n" ++ body), .stack⟩

mutual
/-- The fragment of a block for a shape. -/
def blockRun (ctx : Context) : Block → Shape → Scoped Fragment
  | .mk kind inputs _ => fun desired =>
    match kind with
    | .known (.control .loop) => repeatRun ctx inputs (runners ctx inputs)
    | .known (.control .forEach) => forEachRun ctx inputs (runners ctx inputs) desired
    | kind => do
      let plan ← Scoped.lift (.ofExcept (plan ctx kind inputs desired (← Scoped.locals)))
      plan.run ctx inputs (runners ctx inputs) desired

def runners (ctx : Context) : List (String × Input) → Runners
  | [] => []
  | (name, input) :: rest =>
    (name, ⟨inputRun ctx input, inputItemRuns ctx input⟩) :: runners ctx rest

/-- The fragment of an input for a shape. -/
def inputRun (ctx : Context) : Input → Shape → Scoped Fragment
  | .block (some b) => blockRun ctx b
  | .stack (some bs) => fun _ => do return ⟨joinStatements (← stackRun ctx bs), .stack⟩
  | input => fun desired => do .lift (inputFragment ctx input desired (← Scoped.locals))

def inputItemRuns (ctx : Context) : Input → List (Shape → Scoped Fragment)
  | .values items => itemRuns ctx items
  | .plain .. | .reference .. | .block _ | .stack _ | .arguments _ => []

def itemRuns (ctx : Context) : List Input → List (Shape → Scoped Fragment)
  | [] => []
  | x :: rest => inputRun ctx x :: itemRuns ctx rest

/-- The sources of a stack of blocks, in order. -/
def stackRun (ctx : Context) : List Block → Scoped (List String)
  | [] => pure []
  | b :: rest => do
    let f ← blockRun ctx b .stack
    let others ← stackRun ctx rest
    return Source.coerce f.source f.shape .stack :: others
end

/-! ### Phrases and plans -/

variable {ctx : Context} {scope : Scope}

/-- A fragment is compiled in every scope as it is when the names are handed over. -/
def Runs (ctx : Context) (run : Shape → Scoped Fragment) (read : Read) : Prop :=
  ∀ shape scope, Tracks ctx (·.source) (run shape) scope (read shape scope.locals)

/-- The same for an input and for the inputs that a call passes in it. -/
structure InputRuns (ctx : Context) (x : Input) : Prop where
  run : Runs ctx (inputRun ctx x) (inputFragment ctx x)
  items : ∀ item ∈ x.items, Runs ctx (inputRun ctx item) (inputFragment ctx item)

theorem lookup_runners {slots : Slots} (slot : String) : (runners ctx slots).lookup slot =
    (slots.lookup slot).map fun x => ⟨inputRun ctx x, inputItemRuns ctx x⟩ := by
  induction slots with
  | nil => rw [runners]; rfl
  | cons entry rest ih =>
    rw [runners, List.lookup_cons, List.lookup_cons]
    cases slot == entry.1 with
    | true => rfl
    | false => exact ih

theorem inputItemRuns_eq (ctx : Context) (x : Input) :
    inputItemRuns ctx x = x.items.map (inputRun ctx) := by
  have hitems (items : List Input) : itemRuns ctx items = items.map (inputRun ctx) := by
    induction items with
    | nil => rw [itemRuns]; rfl
    | cons x rest ih => rw [itemRuns, ih]; rfl
  cases x with
  | values items => rw [inputItemRuns, hitems]; rfl
  | _ => rw [inputItemRuns]; rfl

theorem sourceLaw_contains (part : List Char) : SourceLaw (part <:+: ·.toList) := by
  intro w _ s hs
  rw [String.toList_append, String.toList_append]
  exact hs.trans ⟨_, _, rfl⟩

theorem infix_append_left (a b : String) : a.toList <:+: (a ++ b).toList := by
  rw [String.toList_append]
  exact (List.prefix_append ..).isInfix

theorem infix_append_right (a b : String) : b.toList <:+: (a ++ b).toList := by
  rw [String.toList_append]
  exact (List.suffix_append ..).isInfix

section
variable {slots : Slots} (h : ∀ entry ∈ slots, InputRuns ctx entry.2)
include h

namespace Runners

theorem fragment_tracks (slot : String) (shape : Shape) :
    Tracks ctx (·.source) ((runners ctx slots).fragment slot shape)
    scope ((readers ctx slots).fragment slot shape scope.locals) := by
  unfold Runners.fragment Readers.fragment
  rw [lookup_runners, lookup_readers]
  cases hslot : slots.lookup slot with
  | none => exact .lift _
  | some x => exact (h _ (Assoc.mem_of_lookup hslot)).run shape scope

theorem source_tracks (slot : String) (shape : Shape) :
    Tracks ctx id ((runners ctx slots).source slot shape)
    scope ((readers ctx slots).source slot shape scope.locals) :=
  (fragment_tracks h slot shape).map fun _ => (sourceLaw_contains _).coerce List.infix_rfl _ _

theorem argument_tracks (position : Nat) :
    Tracks ctx (·.source) ((runners ctx slots).argument position)
    scope ((readers ctx slots).argument position scope.locals) := by
  unfold Runners.argument Readers.argument
  rw [lookup_runners, lookup_readers]
  cases hslot : slots.lookup "INPUTS" with
  | none => exact .lift _
  | some x =>
    simp only [Option.map_some, Option.bind_some, inputItemRuns_eq, inputItems_eq,
      List.getElem?_map]
    cases hitem : x.items[position]? with
    | none => exact .lift _
    | some item =>
      exact (h _ (Assoc.mem_of_lookup hslot)).items item (List.mem_of_getElem? hitem) .any scope

theorem body_tracks (slot : String) : Tracks ctx id ((runners ctx slots).body slot) scope
    ((Phrase.body slot scope.locals).render slots (readers ctx slots) scope.locals) := by
  refine (source_tracks h slot .stack).map fun source => ?_
  by_cases hempty : source.isEmpty
  · rw [String.isEmpty_iff.1 hempty]
    exact List.nil_infix
  · rw [if_neg hempty]
    exact infix_append_left ..

end Runners

theorem Phrase.run_tracks (p : Phrase) (hp : p.BodiesAt scope.locals) :
    Tracks ctx id (p.run slots (runners ctx slots))
    scope (p.render slots (readers ctx slots) scope.locals) := by
  induction p with
  | text s | name s | effect s | literal s | number x => exact .pure _
  | input slot shape => exact Runners.source_tracks h slot shape
  | operand slot shape =>
    exact (Runners.source_tracks h slot shape).map fun _ =>
      (sourceLaw_contains _).paren List.infix_rfl
  | color slot =>
    by_cases hcolor : ∃ v, slots.lookup slot = some (.plain "color" v)
    · obtain ⟨v, hv⟩ := hcolor
      rw [Phrase.run, Phrase.render, hv]
      exact .lift _
    · have hrun : (color slot).run slots (runners ctx slots) = (do
          return "Color.num(" ++ (← (runners ctx slots).source slot .any) ++ ")") := by
        rw [Phrase.run]
        split
        · exact absurd ⟨_, ‹_›⟩ hcolor
        · rfl
      have hrender : (color slot).render slots (readers ctx slots) scope.locals = (do
          return "Color.num(" ++ (← (readers ctx slots).source slot .any scope.locals) ++ ")") := by
        rw [Phrase.render]
        split
        · exact absurd ⟨_, ‹_›⟩ hcolor
        · rfl
      rw [hrun, hrender]
      refine (Runners.source_tracks h slot .any).map fun source => ?_
      exact (infix_append_right ..).trans (infix_append_left ..)
  | argument position => exact (Runners.argument_tracks h position).map fun _ => List.infix_rfl
  | body slot inner =>
    obtain rfl : inner = scope.locals := hp
    exact (Runners.body_tracks h slot).within
  | append first second ihf ihs =>
    refine (ihf hp.1).bind (fun a _ => (ihs hp.2).map fun b => infix_append_right a b) fun a c hc =>
      ?_
    obtain ⟨b, rfl⟩ := Noted.exists_of_map hc
    exact infix_append_left ..
  | after first second ihf ihs =>
    refine (ihs hp.2).bind (fun b _ => (ihf hp.1).map fun a => infix_append_left a b) fun b c hc =>
      ?_
    obtain ⟨a, rfl⟩ := Noted.exists_of_map hc
    exact infix_append_right ..
  | stop fault => exact .lift _

theorem Plan.run_tracks {plan : Plan} (hplan : plan.BodiesAt scope.locals) (desired : Shape) :
    Tracks ctx (·.source) (plan.run ctx slots (runners ctx slots) desired) scope
      (plan.fragment ctx slots (readers ctx slots) desired scope.locals) := by
  cases plan with
  | phrase p shape => exact (p.run_tracks h hplan).map fun _ => List.infix_rfl
  | _ => exact .locals (.lift _)

end

/-! ### Loops -/

section
variable {slots : Slots} {readers : Readers} {locals : Name.Space} {desired : Shape}

theorem Phrase.render_append_eq (p q : Phrase) : (p ++ q).render slots readers locals = (do
    let a ← p.render slots readers locals
    let b ← q.render slots readers locals
    return a ++ b) := rfl

theorem render_loop (head body : Phrase) : (loop ctx head body).render slots readers locals = (do
    let h ← head.render slots readers locals
    let b ← body.render slots readers locals
    return loopSource ctx h b) := by
  unfold loop loopSource
  cases ctx.warp <;> simp [Phrase.render_append_eq, Phrase.render]

theorem render_countingHead (counter relation : String) (start limit : Phrase) :
    (countingHead counter start relation limit).render slots readers locals = (do
      let a ← start.render slots readers locals
      let b ← limit.render slots readers locals
      return Heading.counting counter a relation b) := by
  unfold countingHead Heading.counting
  simp [Phrase.render_append_eq, Phrase.render]

/-- The heading of a loop with a fixed number of rounds, and what is taken in its body. -/
def repeatOpening (locals : Name.Space) (measured : Bool) (count : String) : Heading × Name.Space :=
  let counter := locals.allocate "i"
  if measured then
    let limit := counter.2.allocate "times"
    (.measured counter.1 limit.1 count, limit.2)
  else (.fixed counter.1 count, counter.2)

theorem repeatOpening_opens (measured : Bool) (count : String) :
    (repeatOpening locals measured count).1.Opens locals
    (repeatOpening locals measured count).2 := by
  cases measured with
  | false => exact Heading.opens_one rfl
  | true => exact Heading.opens_two rfl

theorem repeatPlan_fragment :
    (do (← repeatPlan ctx slots locals).fragment ctx slots readers desired locals) = (do
    let count ← slots.literalNumber "TIMES"
    let times ← (roundsPhrase count).render slots readers locals
    let opening := repeatOpening locals (slots.hasBlock "TIMES") times
    let body ← (Phrase.body "SUBSTACK" opening.2).render slots readers locals
    return ⟨loopSource ctx opening.1.source body, .stack⟩ : Noted Fragment) := by
  cases hcount : slots.literalNumber "TIMES" with
  | error fault =>
    have hplan : repeatPlan ctx slots locals = .error fault := by
      unfold repeatPlan
      rw [hcount]
      rfl
    rw [hplan]
    rfl
  | ok count =>
    have hok (f : Option Binary64 → Noted Fragment) :
      (liftM (.ok count : Except Fault _) >>= f) = f count := rfl
    rw [hok]
    cases hblock : slots.hasBlock "TIMES" with
    | false =>
      have hplan : repeatPlan ctx slots locals = .ok (.statement
          (loop ctx (countingHead (locals.allocate "i").1 "0" " < " (roundsPhrase count))
          (.body "SUBSTACK" (locals.allocate "i").2))) := by
        unfold repeatPlan
        rw [hcount, hblock]
        rfl
      rw [hplan]
      show (Plan.statement _).fragment ctx slots readers desired locals = _
      simp only [Plan.statement, Plan.fragment, render_loop, render_countingHead, bind_assoc,
        pure_bind]
      rfl
    | true =>
      have hplan : repeatPlan ctx slots locals = .ok (.statement
          (loop ctx (countingHead (locals.allocate "i").1
            ("0, " ++ .name ((locals.allocate "i").2.allocate "times").1 ++ " = Math.round(" ++
              roundsPhrase count ++ ")")
            " < " (.name ((locals.allocate "i").2.allocate "times").1))
          (.body "SUBSTACK" ((locals.allocate "i").2.allocate "times").2))) := by
        unfold repeatPlan
        rw [hcount, hblock]
        rfl
      rw [hplan]
      show (Plan.statement _).fragment ctx slots readers desired locals = _
      simp only [Plan.statement, Plan.fragment, render_loop, render_countingHead,
        Phrase.render_append_eq, bind_assoc, pure_bind]
      rfl

/-- A member of a class reads no inputs. -/
theorem render_ownedPhrase_locals (locals' : Name.Space) {container : String} {owner : Nat}
    {property : String} :
    (ownedPhrase ctx container owner property).render slots readers locals =
      (ownedPhrase ctx container owner property).render slots readers locals' := by
  unfold ownedPhrase
  split_ifs <;> rfl

theorem forEachPlan_fragment (place : Phrase) :
    (forEachPlan ctx locals place).fragment ctx slots readers desired locals = (do
      let count ← readers.source "VALUE" .numberNotNaN locals
      let place ← place.render slots readers locals
      let body ← (Phrase.body "SUBSTACK" (locals.allocate "i").2).render slots readers locals
      return ⟨loopSource ctx (Heading.each (locals.allocate "i").1 count).source
        (place ++ " = " ++ (locals.allocate "i").1 ++ ";\n" ++ body), .stack⟩) := by
  simp only [forEachPlan, Plan.statement, Plan.fragment, render_loop, render_countingHead,
    Phrase.render_append_eq, num, bind_assoc]
  simp only [Phrase.render, pure_bind]
  rfl

end

/-! ### What stands in a loop -/

theorem infix_counting_start (counter start relation limit : String) :
    start.toList <:+: (Heading.counting counter start relation limit).toList := by
  unfold Heading.counting
  simp only [String.append_assoc]
  exact (infix_append_left ..).trans <| (infix_append_right ..).trans <|
    (infix_append_right ..).trans (infix_append_right ..)

theorem infix_counting_limit (counter start relation limit : String) :
    limit.toList <:+: (Heading.counting counter start relation limit).toList :=
  (infix_append_right ..).trans <| (infix_append_left ..).trans <|
    (infix_append_left ..).trans (infix_append_left ..)

theorem infix_repeatOpening (locals : Name.Space) (measured : Bool) (count : String) :
    count.toList <:+: (repeatOpening locals measured count).1.source.toList := by
  cases measured with
  | false => exact infix_counting_limit ..
  | true =>
    exact (infix_append_right ..).trans <| (infix_append_left ..).trans (infix_counting_start ..)

theorem prefix_loopSource (ctx : Context) (head body : String) :
    head.toList <+: (loopSource ctx head body).toList := by
  unfold loopSource
  simp only [String.append_assoc]
  rw [String.toList_append]
  exact List.prefix_append ..

theorem infix_loopSource_body (ctx : Context) (head body : String) :
    body.toList <:+: (loopSource ctx head body).toList :=
  (infix_append_right ..).trans <| (infix_append_left ..).trans (infix_append_left ..)

section
variable {slots : Slots} (h : ∀ entry ∈ slots, InputRuns ctx entry.2)
include h

theorem repeatRun_tracks (desired : Shape) :
    TracksLoop ctx (repeatRun ctx slots (runners ctx slots)) scope (do
      (← repeatPlan ctx slots scope.locals).fragment ctx slots (readers ctx slots) desired
        scope.locals) := by
  rw [repeatPlan_fragment]
  refine .lift_bind fun count _ => ?_
  have hrounds : (roundsPhrase count).BodiesAt scope.locals := by
    unfold roundsPhrase
    split <;> trivial
  refine .bind ((roundsPhrase count).run_tracks h hrounds) (fun times _ => ?_) fun times f hf => ?_
  · have hopens :
        (repeatOpening scope.locals (slots.hasBlock "TIMES") times).1.Opens scope.locals _ :=
      repeatOpening_opens _ times
    refine hopens.tracks ?_ ((Runners.body_tracks h "SUBSTACK").map fun body =>
      infix_loopSource_body ..) fun f hf => ?_
    · cases slots.hasBlock "TIMES" <;> rfl
    · obtain ⟨body, rfl⟩ := Noted.exists_of_map hf
      exact prefix_loopSource ..
  · obtain ⟨body, rfl⟩ := Noted.exists_of_map hf
    exact (infix_repeatOpening ..).trans (prefix_loopSource ..).isInfix

theorem forEachRun_tracks (desired : Shape) :
    TracksLoop ctx (forEachRun ctx slots (runners ctx slots) desired) scope (do
      (← control ctx slots scope.locals .forEach).fragment ctx slots (readers ctx slots) desired
        scope.locals) := by
  show TracksLoop _ _ _ (liftM (withData ctx slots "VARIABLE" .variable fun place =>
    .ok (forEachPlan ctx scope.locals place)) >>= _)
  rw [withData, Noted.lift_bind_bind]
  refine .lift_bind fun place? hplace => ?_
  rcases dataPhrase?_eq hplace with rfl | ⟨owner, property, -, rfl⟩
  · refine .lift_bind fun p hp => ?_
    obtain ⟨ref?, -, hp⟩ := Outcome.bind_eq_ok.1 hp
    cases hp
    refine ⟨Plan.run_tracks h (show (Plan.missing _ _).BodiesAt _ from trivial) desired,
      fun f hf hshape => ?_⟩
    simp only [Plan.fragment, Noted.result_bind, Outcome.bind_eq_ok, Noted.result_pure,
      Except.ok.injEq] at hf
    obtain ⟨_, -, _, -, rfl⟩ := hf
    cases hshape
  show TracksLoop _ _ _ ((forEachPlan ctx scope.locals _).fragment ctx slots
    (readers ctx slots) desired scope.locals)
  rw [forEachPlan_fragment]
  refine .bind (Runners.source_tracks h "VALUE" .numberNotNaN) (fun count _ => ?_) fun count f hf =>
    ?_
  · have hopens : (Heading.each (scope.locals.allocate "i").1 count).Opens scope.locals _ :=
      Heading.opens_one rfl
    refine hopens.tracks rfl ?_ fun f hf => ?_
    · rw [render_ownedPhrase_locals (scope.locals.allocate "i").2]
      refine (Phrase.run_tracks h _ (bodiesAt_ownedPhrase _ owner property)).bind (fun place _ =>
        ?_) fun place f hf => ?_
      · exact (Runners.body_tracks h "SUBSTACK").map fun body =>
          (infix_append_right ..).trans (infix_loopSource_body ..)
      · obtain ⟨body, rfl⟩ := Noted.exists_of_map hf
        refine List.IsInfix.trans ?_ (infix_loopSource_body ..)
        exact (infix_append_left ..).trans <| (infix_append_left ..).trans <|
          (infix_append_left ..).trans (infix_append_left ..)
    · obtain ⟨place, -, hf⟩ := Noted.bind_eq_ok.1 hf
      obtain ⟨body, rfl⟩ := Noted.exists_of_map hf
      exact prefix_loopSource ..
  · obtain ⟨place, -, hf⟩ := Noted.bind_eq_ok.1 hf
    obtain ⟨body, rfl⟩ := Noted.exists_of_map hf
    exact (infix_counting_limit ..).trans (prefix_loopSource ..).isInfix

end

/-! ### Trees -/

theorem infix_joinStatements_head (s : String) (rest : List String) :
    s.toList <:+: (joinStatements (s :: rest)).toList := by
  have hterminate : s.toList <:+: (Literal.terminate s).toList := by
    rcases terminate_eq s with heq | heq
    · rw [heq]
    · rw [heq]
      exact infix_append_left ..
  rcases joinStatements_cons s rest with ⟨-, rfl⟩ | ⟨heq, -⟩ | heq
  · exact List.nil_infix
  · rw [heq]
    exact hterminate
  · rw [heq]
    exact hterminate.trans ((infix_append_left ..).trans (infix_append_left ..))

theorem infix_joinStatements_tail (s : String) (rest : List String) :
    (joinStatements rest).toList <:+: (joinStatements (s :: rest)).toList := by
  rcases joinStatements_cons s rest with ⟨heq, -⟩ | ⟨-, heq⟩ | heq
  · rw [heq]
  · rw [heq]
    exact List.nil_infix
  · rw [heq]
    exact infix_append_right ..

/-- An input without blocks opens no loop. -/
theorem inputRun_tracks_of_plain {x : Input} (hblock : ∀ b, x ≠ .block (some b))
    (hstack : ∀ bs, x ≠ .stack (some bs)) : Runs ctx (inputRun ctx x) (inputFragment ctx x) := by
  intro desired scope
  rw [inputRun]
  · exact .locals (.lift _)
  · exact hblock
  · exact hstack

mutual
theorem blockRun_tracks (ctx : Context) :
    ∀ b : Block, Runs ctx (blockRun ctx b) (blockFragment ctx b)
  | .mk kind inputs id => by
    have h := slotRuns ctx inputs
    intro desired scope
    by_cases hloop : kind = .known (.control .loop)
    · subst hloop
      rw [blockRun, blockFragment]
      exact (repeatRun_tracks h desired).toTracks
    by_cases heach : kind = .known (.control .forEach)
    · subst heach
      rw [blockRun, blockFragment]
      exact (forEachRun_tracks h desired).toTracks
    have hrun : blockRun ctx (.mk kind inputs id) desired = (do
        let plan ← Scoped.lift (.ofExcept (plan ctx kind inputs desired (← Scoped.locals)))
        plan.run ctx inputs (runners ctx inputs) desired) := by
      rw [blockRun]
      split
      · exact absurd rfl hloop
      · exact absurd rfl heach
      · rfl
    rw [hrun, blockFragment]
    exact .locals (.lift_bind fun p hp =>
      Plan.run_tracks h (plan_bodiesAt hloop heach desired p hp) desired)

theorem slotRuns (ctx : Context) : ∀ slots : Slots, ∀ entry ∈ slots, InputRuns ctx entry.2
  | [] => List.forall_mem_nil _
  | (_, x) :: rest => List.forall_mem_cons.2 ⟨inputRuns ctx x, slotRuns ctx rest⟩

theorem inputRuns (ctx : Context) : ∀ x : Input, InputRuns ctx x
  | .block (some b) => by
    refine ⟨?_, List.forall_mem_nil _⟩
    rw [inputRun, inputFragment]
    exact blockRun_tracks ctx b
  | .stack (some bs) => by
    refine ⟨?_, List.forall_mem_nil _⟩
    rw [inputRun, inputFragment]
    exact fun _ scope => (stackRun_tracks ctx bs scope).map fun _ => List.infix_rfl
  | .values items => ⟨inputRun_tracks_of_plain (by simp) (by simp), itemRuns_track ctx items⟩
  | .plain .. | .reference .. | .block none | .stack none | .arguments _ =>
    ⟨inputRun_tracks_of_plain (by simp) (by simp), List.forall_mem_nil _⟩

theorem itemRuns_track (ctx : Context) : ∀ items : List Input,
    ∀ item ∈ items, Runs ctx (inputRun ctx item) (inputFragment ctx item)
  | [] => List.forall_mem_nil _
  | x :: rest => List.forall_mem_cons.2 ⟨(inputRuns ctx x).run, itemRuns_track ctx rest⟩

theorem stackRun_tracks (ctx : Context) : ∀ (bs : List Block) (scope : Scope),
    Tracks ctx joinStatements (stackRun ctx bs) scope (stackSources ctx bs scope.locals)
  | [], scope => by
    rw [stackRun, stackSources]
    exact .pure _
  | b :: rest, scope => by
    rw [stackRun, stackSources]
    refine (blockRun_tracks ctx b .stack scope).bind
      (fun f _ => (stackRun_tracks ctx rest scope).map fun others => infix_joinStatements_tail ..)
      fun f sources hs => ?_
    obtain ⟨others, rfl⟩ := Noted.exists_of_map hs
    exact ((sourceLaw_contains _).coerce List.infix_rfl _ _).trans (infix_joinStatements_head ..)
end

theorem Scope.covers_start (ctx : Context) : (Scope.start ctx).Covers ctx :=
  ⟨fun _ h => List.mem_append_left _ h, fun _ h => List.mem_append_right _ h, List.forall_mem_nil _⟩

/-- A loop with a counter is among those that are opened, with the loops around it, and its source
begins with its heading. Only one that refers to a variable that is not there has no heading. -/
theorem blockRun_told {kind : BlockKind}
    (hkind : kind = .known (.control .loop) ∨ kind = .known (.control .forEach)) {inputs : Slots}
    {id : String} {desired : Shape} {f : Fragment}
    (h : (blockFragment ctx (.mk kind inputs id) desired scope.locals).result = .ok f)
    (hshape : f.shape = .stack) :
    ∃ heading, ⟨heading, scope.around⟩ ∈ (blockRun ctx (.mk kind inputs id) desired scope).opened ∧
      heading.source.toList <+: f.source.toList := by
  rw [blockFragment] at h
  rw [blockRun]
  rcases hkind with rfl | rfl
  · exact (repeatRun_tracks (slotRuns ctx inputs) desired).told f h hshape
  · exact (forEachRun_tracks (slotRuns ctx inputs) desired).told f h hshape

/-- Loop variables never shadow anything. Blocks and stacks are compiled to the same end, with a
result or a fault and with the same notes, whether the taken names are handed over or kept in a
scope, and leave the scope as they find it. A loop that is compiled has its heading at the beginning
of its source and is among those that are told of. In a stack compiled for a script, the variables
that the heading of such a loop declares are distinct from each other, from those of all loops
around it, from the parameters of the script and from what is reserved, and the heading stands in
the source of the stack. -/
theorem loop_variables_never_shadow (ctx : Context) :
    (∀ b desired scope, (blockRun ctx b desired scope).outcome =
      blockFragment ctx b desired scope.locals ∧
      (blockRun ctx b desired scope).scope = scope) ∧
    (∀ bs scope, (stackRun ctx bs scope).outcome = stackSources ctx bs scope.locals ∧
      (stackRun ctx bs scope).scope = scope) ∧
    (∀ kind, kind = .known (.control .loop) ∨ kind = .known (.control .forEach) →
      ∀ inputs id desired scope f,
      (blockFragment ctx (.mk kind inputs id) desired scope.locals).result = .ok f →
        f.shape = .stack →
        ∃ heading,
        ⟨heading, scope.around⟩ ∈ (blockRun ctx (.mk kind inputs id) desired scope).opened ∧
          heading.source.toList <+: f.source.toList) ∧
    ∀ bs, ∀ o ∈ (stackRun ctx bs (Scope.start ctx)).opened, o.Clear ctx ∧
      ∀ source, (stackSource ctx bs).result = .ok source →
        o.heading.source.toList <:+: source.toList := by
  refine ⟨fun b desired scope => ?_, fun bs scope => ?_,
    fun kind hkind inputs id desired scope f h hshape => ?_,
    fun bs o ho => ⟨?_, fun source hsource => ?_⟩⟩
  · have htracks := blockRun_tracks ctx b desired scope
    exact ⟨htracks.outcome, htracks.scope_eq⟩
  · have htracks := stackRun_tracks ctx bs scope
    exact ⟨htracks.outcome, htracks.scope_eq⟩
  · exact blockRun_told hkind h hshape
  · exact (stackRun_tracks ctx bs (Scope.start ctx)).clear (Scope.covers_start ctx) o ho
  · obtain ⟨sources, hsources, hsource⟩ := Noted.bind_eq_ok.1 hsource
    cases hsource
    exact (stackRun_tracks ctx bs (Scope.start ctx)).shown sources hsources o ho

/-- A procedure with a parameter that has the name of a counter. -/
def spiralContext : Context where
  project := { stage := { name := .text "Stage" } }
  names := ⟨[]⟩
  targetIndex := 0
  target := { name := .text "Stage" }
  targetNames := ⟨.text "Stage", "Stage", [], ["spiral"], [], [[("i2", "i2")]]⟩
  scriptIndex := 0
  script := ⟨[], .text "spiral", .int 0, .int 0⟩
  params := [("i2", "i2")]
  warp := false

/-- A loop whose rounds a block gives, with another loop inside two bodies in it, and a third loop
behind. -/
def spiral : List Block :=
  [.mk (.known (.control .loop))
    [("TIMES", .block (some (.mk (.known (.motion .xPosition)) [] "a"))),
    ("SUBSTACK", .stack (some [.mk (.known (.control .branch)) [("SUBSTACK", .stack (some [
      .mk (.known (.control .allAtOnce)) [("SUBSTACK", .stack (some [
        .mk (.known (.control .loop)) [("TIMES", .plain "number" (.text "2"))] "b"]))] "c"]))]
        "d"]))] "e",
    .mk (.known (.control .loop)) [("TIMES", .plain "number" (.text "3"))] "f"]

/-- The inner loop takes neither the name of the outer one nor that of the parameter; the one behind
starts anew. -/
theorem spiral_never_shadows :
    (stackRun spiralContext spiral (Scope.start spiralContext)).opened.map
        (fun o => (o.heading.names, o.around.map (·.names))) =
      [(["i", "times"], []), (["i3"], [["i", "times"]]), (["i"], [])] ∧
    ∀ o ∈ (stackRun spiralContext spiral (Scope.start spiralContext)).opened,
        o.Clear spiralContext :=
  ⟨by decide +kernel, fun o ho => ((loop_variables_never_shadow spiralContext).2.2.2 spiral o ho).1⟩

end ScratchExport.Compile
