import ScratchExport.Compile.Method
import ScratchExport.Proofs.Outcome

/-!
# Results of computations that take notes

Sequences of noted computations may be regrouped. The result of one does not depend on its notes, so
`.result` moves inside sequences: what is left is the same computation without notes. The lemmas
here are its equations for making contexts, for rendering phrases and for carrying out plans.
-/

namespace ScratchExport

instance : LawfulMonad Noted := by
  refine .mk' Noted (fun x => ?_) (fun a f => ?_) (fun x f g => ?_)
  · show Noted.bind x _ = x
    obtain ⟨result, notes⟩ := x
    cases result with
    | error fault => rfl
    | ok a => simp [Noted.bind]
  · rfl
  · show Noted.bind (Noted.bind x f) g = Noted.bind x fun a => Noted.bind (f a) g
    obtain ⟨result, notes⟩ := x
    cases result with
    | error fault => rfl
    | ok a =>
      cases hf : (f a).result with
      | error fault => simp [Noted.bind, hf]
      | ok b => simp [Noted.bind, hf]

namespace Noted
variable {α β : Type}

@[simp] theorem result_bind (x : Noted α) (f : α → Noted β) :
    (x >>= f).result = x.result >>= fun a => (f a).result := by
  cases hx : x.result with
  | error fault => rw [bind_of_error hx]; rfl
  | ok a => rw [bind_of_ok hx]; rfl

theorem bind_eq_ok {x : Noted α} {f : α → Noted β} {b : β} :
    (x >>= f).result = .ok b ↔ ∃ a, x.result = .ok a ∧ (f a).result = .ok b := by
  rw [result_bind, Outcome.bind_eq_ok]

theorem exists_of_map {φ : α → β} {x : Noted α} {b : β}
    (h : (do return φ (← x) : Noted β).result = .ok b) : ∃ a, b = φ a := by
  obtain ⟨a, -, hb⟩ := bind_eq_ok.1 h
  cases hb
  exact ⟨a, rfl⟩

theorem lift_bind_bind {γ : Type} (e : Except Fault α) (k : α → Except Fault β) (g : β → Noted γ) :
    (liftM (e >>= k) >>= g : Noted γ) = liftM e >>= fun a => liftM (k a) >>= g := by
  cases e <;> rfl

@[simp] theorem result_ofExcept (e : Except Fault α) : (ofExcept e).result = e := rfl

@[simp] theorem result_lift (e : Except Fault α) : (liftM e : Noted α).result = e := rfl

@[simp] theorem result_fail (fault : Fault) : (fail fault : Noted α).result = .error fault := rfl

@[simp] theorem result_note (origin : Origin) (severity : Severity) (message : String) :
    (note origin severity message).result = .ok () := rfl

end Noted

namespace Compile
variable {slots : Slots} {readers : Readers} {locals : Name.Space} {source : String}

namespace Phrase

theorem render_text (s : String) : ((text s).render slots readers locals).result = .ok s := rfl

theorem render_append {p q : Phrase} : ((p ++ q).render slots readers locals).result = .ok source ↔
    ∃ a b, (p.render slots readers locals).result = .ok a ∧
    (q.render slots readers locals).result = .ok b ∧
      source = a ++ b := by
  show ((append p q).render slots readers locals).result = .ok source ↔ _
  simp only [render, Noted.result_bind, Noted.result_pure, Outcome.bind_eq_ok, Except.ok.injEq]
  constructor
  · rintro ⟨a, ha, b, hb, rfl⟩; exact ⟨a, b, ha, hb, rfl⟩
  · rintro ⟨a, b, ha, hb, rfl⟩; exact ⟨a, ha, b, hb, rfl⟩

theorem render_after {p q : Phrase} :
    ((after p q).render slots readers locals).result = .ok source ↔
    ∃ a b, (p.render slots readers locals).result = .ok a ∧
    (q.render slots readers locals).result = .ok b ∧
      source = a ++ b := by
  simp only [render, Noted.result_bind, Noted.result_pure, Outcome.bind_eq_ok, Except.ok.injEq]
  constructor
  · rintro ⟨b, hb, a, ha, rfl⟩; exact ⟨a, b, ha, hb, rfl⟩
  · rintro ⟨a, b, ha, hb, rfl⟩; exact ⟨b, hb, a, ha, rfl⟩

end Phrase

theorem Context.make_eq_ok {project : Project} {names : Name.Table} {targetIndex scriptIndex : Nat}
    {warp : Bool} {ctx : Context}
    (h : Context.make project names targetIndex scriptIndex warp = .ok ctx) :
    project.targets[targetIndex]? = some ctx.target ∧
    names.targets[targetIndex]? = some ctx.targetNames ∧
      ctx.target.scripts[scriptIndex]? = some ctx.script ∧
      ctx.targetNames.params[scriptIndex]? = some ctx.params ∧
      ctx.scriptIndex = scriptIndex := by
  unfold Context.make at h
  split at h
  · split at h
    · cases h
      exact ⟨‹_›, ‹_›, ‹_›, ‹_›, rfl⟩
    · cases h
  · cases h

theorem Context.make_eq_ok_fields {project : Project} {names : Name.Table}
    {targetIndex scriptIndex : Nat} {warp : Bool} {ctx : Context}
    (h : Context.make project names targetIndex scriptIndex warp = .ok ctx) :
    ctx.names = names ∧ ctx.warp = warp := by
  unfold Context.make at h
  split at h
  · split at h
    · cases h
      exact ⟨rfl, rfl⟩
    · cases h
  · cases h

theorem blockFragment_eq_ok {ctx : Context} {kind : BlockKind} {inputs : Slots} {id : String}
    {desired : Shape} {f : Fragment} :
    (blockFragment ctx (.mk kind inputs id) desired locals).result = .ok f ↔
      ∃ p, plan ctx kind inputs desired locals = .ok p ∧
        (p.fragment ctx inputs (Compile.readers ctx inputs) desired locals).result = .ok f := by
  simp only [blockFragment, Noted.result_bind, Noted.result_lift, Outcome.bind_eq_ok]

theorem lookup_readers {ctx : Context} {inputs : Slots} (slot : String) :
    (Compile.readers ctx inputs).lookup slot =
    (inputs.lookup slot).map fun input => ⟨inputFragment ctx input, inputItems ctx input⟩ := by
  induction inputs with
  | nil => rw [Compile.readers]; rfl
  | cons entry rest ih =>
    rw [Compile.readers, List.lookup_cons, List.lookup_cons]
    cases slot == entry.1 with
    | true => rfl
    | false => exact ih

theorem itemReads_eq (ctx : Context) (items : List Input) :
    itemReads ctx items = items.map (inputFragment ctx) := by
  induction items with
  | nil => rw [itemReads]; rfl
  | cons x rest ih => rw [itemReads, ih]; rfl

theorem Plan.fragment_phrase_eq_ok {ctx : Context} {desired shape : Shape} {p : Phrase}
    {f : Fragment} :
    ((Plan.phrase p shape).fragment ctx slots readers desired locals).result = .ok f ↔
      ∃ source, (p.render slots readers locals).result = .ok source ∧ f = ⟨source, shape⟩ := by
  simp only [Plan.fragment, Noted.result_bind, Noted.result_pure, Outcome.bind_eq_ok,
    Except.ok.injEq, @eq_comm _ f]

end Compile

end ScratchExport
