import ScratchExport.Proofs.Assoc
import ScratchExport.Proofs.Identifier
import ScratchExport.Proofs.Render
import ScratchExport.Proofs.Texts

/-!
# The parts of plans

The part of a phrase that differs from project to project is small: names, effects and string
literals. A name is an identifier of the table or a local name (`IsName`), an effect is what the
effect menu says in lower case (`IsEffect`), and a string literal is the class of a target. The
helpers that plans are put together with give few phrases, and the lemmas here list them.
-/

namespace ScratchExport.Compile
open Outcome (FaultsIn Within)

variable {ctx : Context} {slots : Slots}

/-! ### Names -/

/-- The names of a context are those of its table. -/
structure Context.Named (ctx : Context) : Prop where
  target : ctx.targetNames ∈ ctx.names.targets
  params : ctx.params ∈ ctx.targetNames.params

theorem Context.named_of_make {project : Project} {names : Name.Table}
    {targetIndex scriptIndex : Nat} {warp : Bool}
    (h : make project names targetIndex scriptIndex warp = .ok ctx) : ctx.Named := by
  obtain ⟨-, hnames, -, hparams, -⟩ := make_eq_ok h
  rw [← (make_eq_ok_fields h).1] at hnames
  exact ⟨List.mem_of_getElem? hnames, List.mem_of_getElem? hparams⟩

/-- The names in a phrase: identifiers of the table, local names, and nothing where the table lacks
a script. -/
inductive IsName (ctx : Context) : String → Prop
  | identifier {s : String} (h : s ∈ ctx.names.identifiers) : IsName ctx s
  | counter (locals : Name.Space) : IsName ctx (locals.allocate "i").1
  | limit (locals : Name.Space) : IsName ctx (locals.allocate "times").1
  | absent : IsName ctx ""

/-- An effect is what the menu says, in lower case. -/
def IsEffect (slots : Slots) (s : String) : Prop :=
  ∃ t, slots.choice "EFFECT" = .ok (.text t) ∧ s = Text.lower t

theorem mem_identifiers {names : Name.TargetNames} (hnames : names ∈ ctx.names.targets) {s : String}
    (hs : s ∈ names.identifiers) : s ∈ ctx.names.identifiers :=
  List.mem_flatMap.2 ⟨names, hnames, hs⟩

theorem Context.property?_mem {kind : DataKind} {p : String → Value → Bool} {index owner : Nat}
    {property : String} (h : ctx.property? kind p index = some (owner, property)) :
    property ∈ ctx.names.identifiers := by
  unfold property? at h
  split at h
  · next hnames =>
    obtain ⟨⟨id, name⟩, -, hfound⟩ := List.exists_of_findSome?_eq_some h
    dsimp only at hfound
    split_ifs at hfound
    obtain ⟨found, hlookup, hfound⟩ := Option.map_eq_some_iff.1 hfound
    cases hfound
    refine mem_identifiers (List.mem_of_getElem? hnames) ?_
    have := List.mem_map_of_mem (f := Prod.snd) (Assoc.mem_of_lookup hlookup)
    simp only [Name.TargetNames.identifiers, List.cons_append, List.mem_cons, List.mem_append]
    exact .inr (.inl (.inl (.inl this)))
  · cases h

theorem Context.resolve_mem {kind : DataKind} {ref : DataRef} {owner : Nat} {property : String}
    (h : ctx.resolve kind ref = some (owner, property)) : property ∈ ctx.names.identifiers := by
  unfold resolve at h
  split at h
  · next hfound =>
    rw [h] at hfound
    obtain ⟨_, -, hproperty⟩ := List.exists_of_findSome?_eq_some hfound
    exact property?_mem hproperty
  · obtain ⟨_, -, hproperty⟩ := List.exists_of_findSome?_eq_some h
    exact property?_mem hproperty

theorem className_mem {names : Name.TargetNames} (h : names ∈ ctx.names.targets) :
    names.className ∈ ctx.names.identifiers :=
  mem_identifiers h
    (List.mem_append_left _
    (List.mem_append_left _ (List.mem_append_left _ (List.mem_cons_self ..))))

theorem sprite?_eq {author : Value} {p : Phrase} (h : sprite? ctx author = some p) :
    ∃ c ∈ ctx.names.identifiers, p = spritePhrase c := by
  obtain ⟨c, hc, rfl⟩ := Option.map_eq_some_iff.1 h
  obtain ⟨names, hnames, rfl⟩ := Option.map_eq_some_iff.1 hc
  exact ⟨_, className_mem (List.mem_of_mem_drop (List.mem_of_find?_eq_some hnames)), rfl⟩

theorem scriptName_isName (hctx : ctx.Named) (index : Nat) (warp : Bool) :
    IsName ctx (ctx.targetNames.scriptName index warp) := by
  unfold Name.TargetNames.scriptName
  split
  · next name hname =>
    split_ifs at hname
    have := List.mem_map_of_mem (f := Prod.snd) (Assoc.mem_of_lookup hname)
    exact .identifier
      (mem_identifiers hctx.target (List.mem_append_left _ (List.mem_append_right _ this)))
  · cases hname : ctx.targetNames.scripts[index]? with
    | none => exact .absent
    | some name =>
      have := List.mem_of_getElem? hname
      exact .identifier (mem_identifiers hctx.target
        (List.mem_append_left _ (List.mem_append_left _ (List.mem_append_right _ this))))

theorem IsName.isIdentifier (hidentifiers : ∀ s ∈ ctx.names.identifiers, Name.IsIdentifier s)
    {s : String} (h : IsName ctx s) : Name.IsIdentifier s ∨ s = "" := by
  have hlocal (locals : Name.Space) {candidate : String} (hc : Name.IsIdentifier candidate) :
      Name.IsIdentifier (locals.allocate candidate).1 :=
    locals.allocate_induction (P := Name.IsIdentifier) (fun _ => Name.isIdentifier_nextVariant) hc
  cases h with
  | identifier h => exact .inl (hidentifiers s h)
  | counter locals => exact .inl (hlocal locals (by decide))
  | limit locals => exact .inl (hlocal locals (by decide))
  | absent => exact .inr rfl

/-! ### What the helpers give -/

theorem dataPhrase?_eq {slot container : String} {kind : DataKind} {place : Option Phrase}
    (h : dataPhrase? ctx slots slot kind container = .ok place) :
    place = none ∨ ∃ owner, ∃ property ∈ ctx.names.identifiers,
      place = some (ownedPhrase ctx container owner property) := by
  obtain ⟨ref, -, h⟩ := Outcome.bind_eq_ok.1 h
  rw [← Outcome.pure_eq_ok.1 h]
  cases hfound : ref.bind (ctx.resolve kind) with
  | none => exact .inl rfl
  | some found =>
    obtain ⟨ref, -, hresolve⟩ := Option.bind_eq_some_iff.1 hfound
    exact .inr ⟨found.1, found.2, Context.resolve_mem hresolve, rfl⟩

/-- A place is counted up or down, or changed by a number or by what stands in the slot. -/
theorem changeBy_within {F : Fault → Prop} {place : Phrase} {slot : String} {cast : Bool}
    {R : Phrase → Prop} (hnumber : FaultsIn F (slots.literalNumber slot))
    (hincrement : R (place ++ "++")) (hdecrement : R (place ++ "--"))
    (hminus : ∀ x, R (place ++ " -= " ++ .number x)) (hplus : ∀ x, R (place ++ " += " ++ .number x))
    (hcast : R (place ++ " = this.toNumber(" ++ place ++ ") + " ++ .operand slot .numberNotNaN))
    (hplain : R (place ++ " += " ++ num slot)) : Within F (changeBy slots place slot cast) R := by
  refine .bind hnumber fun literal _ => ?_
  dsimp only
  split
  · split_ifs
    · exact .pure hincrement
    · exact .pure hdecrement
    · exact .pure (hminus _)
    · exact .pure (hplus _)
  · split_ifs
    · exact .pure hcast
    · exact .pure hplain

theorem pointOf_eq {choice : Value} {x y : Phrase} (h : pointOf ctx choice = some (x, y)) :
    (x = "this.mouse.x" ∧ y = "this.mouse.y") ∨
      ∃ c ∈ ctx.names.identifiers, x = spritePhrase c ++ ".x" ∧ y = spritePhrase c ++ ".y" := by
  unfold pointOf at h
  split_ifs at h
  · cases h; exact .inl ⟨rfl, rfl⟩
  · obtain ⟨sprite, hsprite, hpair⟩ := Option.map_eq_some_iff.1 h
    obtain ⟨c, hc, rfl⟩ := sprite?_eq hsprite
    cases hpair
    exact .inr ⟨c, hc, rfl, rfl⟩

theorem ownerOf_eq {choice : Value} {i : Nat} {owner : Phrase}
    (h : ownerOf ctx choice = some (i, owner)) :
    owner = "this.stage" ∨ ∃ c ∈ ctx.names.identifiers, owner = spritePhrase c := by
  unfold ownerOf at h
  split_ifs at h
  · cases h; exact .inl rfl
  · split at h
    · obtain ⟨names, hnames, hpair⟩ := Option.map_eq_some_iff.1 h
      cases hpair
      exact .inr ⟨_, className_mem (List.mem_of_getElem? hnames), rfl⟩
    · cases h

/-- At each position a call passes what its inputs hold there, or an empty text. -/
theorem passed_eq {given : Nat → Phrase} (h : passed slots = .ok given) (i : Nat) :
    given i = .argument i ∨ given i = .text "\"\"" ∨ ∃ fault, given i = .stop fault := by
  unfold passed at h
  split at h
  · cases h; exact .inl rfl
  · obtain ⟨plain, hplain, h⟩ := Outcome.bind_eq_ok.1 h
    rw [← Outcome.pure_eq_ok.1 h]
    dsimp only
    cases hp : plain[i]? with
    | none => exact .inr (.inl rfl)
    | some p =>
      refine .inr ?_
      rw [Option.getD_some]
      unfold plainArguments at hplain
      split_ifs at hplain
      · cases hplain; cases hp
      · obtain ⟨members, -, hplain⟩ := Outcome.bind_eq_ok.1 hplain
        rw [← Outcome.pure_eq_ok.1 hplain] at hp
        obtain ⟨item, -, rfl⟩ := List.mem_map.1 (List.mem_of_getElem? hp)
        split
        · exact .inl rfl
        · exact .inr ⟨_, rfl⟩

end ScratchExport.Compile
