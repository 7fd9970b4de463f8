import ScratchExport.Proofs.NameSpace
import ScratchExport.Proofs.Render

/-!
# Computations in a scope

A computation that changes the taken local names (`Scoped`). Leaving a body is a step that puts the
old scope back, also when there was a fault (`Scoped.within`). It keeps a list of the loops it is
in, and tells of each loop that it opens.

`Tracks` relates it to a computation that is handed the taken names instead and changes nothing:
both come to the same end with the same notes, the scope is afterwards what it was before, and the
loops that were opened are clear (`Opening.Clear`) if the scope covers what they must not shadow
(`Scope.Covers`). It has one rule for each way of putting computations together; the rule for a loop
is `Heading.Opens.tracks`.
-/

namespace ScratchExport.Compile

/-! ### Headings -/

/-- The heading of a loop with a counter: for a fixed number of rounds, for a number that a block
gives and that is kept in a variable, or for the numbers up to a limit. -/
inductive Heading where
  | fixed (counter count : String)
  | measured (counter limit count : String)
  | each (counter count : String)

namespace Heading

/-- The variables that a heading declares. -/
def names : Heading → List String
  | .fixed counter _ | .each counter _ => [counter]
  | .measured counter limit _ => [counter, limit]

/-- A heading that declares a counter with its start and counts while it is in relation to
a limit. -/
def counting (counter start relation limit : String) : String :=
  "for (let " ++ counter ++ " = " ++ start ++ "; " ++ counter ++ relation ++ limit ++ "; " ++
    counter ++ "++)"

/-- The source of a heading. -/
def source : Heading → String
  | .fixed counter count => counting counter "0" " < " count
  | .measured counter limit count =>
    counting counter ("0, " ++ limit ++ " = Math.round(" ++ count ++ ")") " < " limit
  | .each counter count => counting counter "1" " <= " count

end Heading

/-! ### Computations in a scope -/

/-- Where a block is compiled: the local names that are taken, and the loops around it, the
innermost first. -/
structure Scope where
  locals : Name.Space
  around : List Heading

/-- The scope of a script. -/
def Scope.start (ctx : Context) : Scope := ⟨ctx.locals, []⟩

/-- A loop that has been opened inside other loops. -/
structure Opening where
  heading : Heading
  around : List Heading

/-- The end of a computation in a scope: what it gives, the scope it leaves behind, and the loops it
has opened. -/
structure Ending (α : Type) where
  outcome : Noted α
  scope : Scope
  opened : List Opening

/-- A computation that may change the scope. -/
def Scoped (α : Type) : Type := Scope → Ending α

namespace Scoped
variable {α β : Type}

/-- Continue with `f` in the scope that is left behind, unless there was a fault. -/
def bind (x : Scoped α) (f : α → Scoped β) : Scoped β := fun scope =>
  match (x scope).outcome.result with
  | .error fault => ⟨⟨.error fault, (x scope).outcome.notes⟩, (x scope).scope, (x scope).opened⟩
  | .ok a =>
    let next := f a (x scope).scope
    ⟨⟨next.outcome.result, (x scope).outcome.notes ++ next.outcome.notes⟩, next.scope,
      (x scope).opened ++ next.opened⟩

instance : Monad Scoped where
  pure a := fun scope => ⟨pure a, scope, []⟩
  bind := bind

/-- A computation that does not look at the scope. -/
def lift (x : Noted α) : Scoped α := fun scope => ⟨x, scope, []⟩

/-- The local names that are taken. -/
def locals : Scoped Name.Space := fun scope => ⟨pure scope.locals, scope, []⟩

/-- Take a local name. -/
def allocate (candidate : String) : Scoped String := fun scope =>
  ⟨pure (scope.locals.allocate candidate).1,
    { scope with locals := (scope.locals.allocate candidate).2 }, []⟩

/-- Go into a loop. -/
def enter (heading : Heading) : Scoped Unit := fun scope =>
  ⟨pure (), { scope with around := heading :: scope.around }, [⟨heading, scope.around⟩]⟩

/-- A computation in a scope of its own: the old one is put back however it ends. -/
def within (x : Scoped α) : Scoped α := fun scope => { x scope with scope := scope }

end Scoped

/-! ### What a computation in a scope tracks -/

/-- The scope takes what is reserved, the parameters, and the names of the loops around. -/
structure Scope.Covers (ctx : Context) (scope : Scope) : Prop where
  reserved : ∀ name ∈ Name.parameterSeed, name ∈ scope.locals.taken
  params : ∀ name ∈ ctx.params.map (·.2), name ∈ scope.locals.taken
  around : ∀ heading ∈ scope.around, ∀ name ∈ heading.names, name ∈ scope.locals.taken

/-- The variables of a loop are distinct from each other, from those of the loops around it, from
the parameters and from what is reserved. -/
structure Opening.Clear (ctx : Context) (o : Opening) : Prop where
  nodup : o.heading.names.Nodup
  around : ∀ outer ∈ o.around, ∀ name ∈ o.heading.names, name ∉ outer.names
  params : ∀ name ∈ o.heading.names, name ∉ ctx.params.map (·.2)
  reserved : ∀ name ∈ o.heading.names, name ∉ Name.parameterSeed

variable {α β : Type} {ctx : Context} {scope : Scope}

/-- In the scope, `x` ends as `y` does and leaves the scope as it was. The loops it opens are clear,
and their headings stand in the text that it gives. -/
structure Tracks (ctx : Context) (text : α → String) (x : Scoped α) (scope : Scope) (y : Noted α) :
    Prop where
  outcome : (x scope).outcome = y
  scope_eq : (x scope).scope = scope
  clear : scope.Covers ctx → ∀ o ∈ (x scope).opened, o.Clear ctx
  shown : ∀ a, y.result = .ok a → ∀ o ∈ (x scope).opened,
    o.heading.source.toList <:+: (text a).toList

theorem Scoped.bind_of_ok {x : Scoped α} {f : α → Scoped β} {a : α}
    (h : (x scope).outcome.result = .ok a) :
    (x >>= f) scope = ⟨⟨(f a (x scope).scope).outcome.result,
      (x scope).outcome.notes ++ (f a (x scope).scope).outcome.notes⟩, (f a (x scope).scope).scope,
      (x scope).opened ++ (f a (x scope).scope).opened⟩ := by
  show Scoped.bind x f scope = _
  rw [Scoped.bind, h]

theorem Scoped.bind_of_error {x : Scoped α} {f : α → Scoped β} {fault : Fault}
    (h : (x scope).outcome.result = .error fault) :
    (x >>= f) scope = ⟨⟨.error fault, (x scope).outcome.notes⟩, (x scope).scope,
      (x scope).opened⟩ := by
  show Scoped.bind x f scope = _
  rw [Scoped.bind, h]

namespace Tracks
variable {text : α → String} {text' : β → String} {x : Scoped α} {y : Noted α}

theorem lift (y : Noted α) : Tracks ctx text (.lift y) scope y :=
  ⟨rfl, rfl, fun _ => List.forall_mem_nil _, fun _ _ => List.forall_mem_nil _⟩

theorem pure (a : α) : Tracks ctx text (Pure.pure a) scope (Pure.pure a) :=
  lift _

theorem bind {f : α → Scoped β} {g : α → Noted β} (hx : Tracks ctx text x scope y)
    (hf : ∀ a, y.result = .ok a → Tracks ctx text' (f a) scope (g a))
    (htext : ∀ a b, (g a).result = .ok b → (text a).toList <:+: (text' b).toList) :
    Tracks ctx text' (x >>= f) scope (y >>= g) := by
  obtain ⟨rfl, hscope, hclear, hshown⟩ := hx
  cases hresult : (x scope).outcome.result with
  | error fault =>
    have hend := Scoped.bind_of_error (f := f) hresult
    refine ⟨?_, ?_, ?_, fun b hb => ?_⟩
    · rw [hend, Noted.bind_of_error hresult]
    · rw [hend]; exact hscope
    · rw [hend]; exact hclear
    · rw [Noted.bind_of_error hresult] at hb
      cases hb
  | ok a =>
    have hend := Scoped.bind_of_ok (f := f) hresult
    rw [hscope] at hend
    have hnext := hf a hresult
    refine ⟨?_, ?_, fun hcovers => ?_, fun b hb => ?_⟩
    · rw [hend, Noted.bind_of_ok hresult, ← hnext.outcome]
    · rw [hend]; exact hnext.scope_eq
    · rw [hend]
      exact List.forall_mem_append.2 ⟨hclear hcovers, hnext.clear hcovers⟩
    · rw [Noted.bind_of_ok hresult] at hb
      rw [hend]
      refine List.forall_mem_append.2 ⟨fun o ho => ?_, hnext.shown b hb⟩
      exact (hshown a hresult o ho).trans (htext a b hb)

theorem lift_bind {f : α → Scoped β} {g : α → Noted β}
    (hf : ∀ a, y.result = .ok a → Tracks ctx text' (f a) scope (g a)) :
    Tracks ctx text' (.lift y >>= f) scope (y >>= g) :=
  (lift y : Tracks ctx (fun _ => "") _ scope y).bind hf fun _ _ _ => List.nil_infix

theorem map {φ : α → β} (hx : Tracks ctx text x scope y)
    (htext : ∀ a, (text a).toList <:+: (text' (φ a)).toList) :
    Tracks ctx text' (do return φ (← x)) scope (do return φ (← y)) := by
  refine hx.bind (fun a _ => pure _) fun a b hb => ?_
  cases hb
  exact htext a

theorem locals {f : Name.Space → Scoped α} (hf : Tracks ctx text (f scope.locals) scope y) :
    Tracks ctx text (Scoped.locals >>= f) scope y :=
  ⟨hf.outcome, hf.scope_eq, hf.clear, hf.shown⟩

theorem within (hx : Tracks ctx text x scope y) : Tracks ctx text (.within x) scope y :=
  ⟨hx.outcome, rfl, hx.clear, hx.shown⟩

end Tracks

/-- Moreover, statements that `x` gives begin with the heading of a loop that it has opened. -/
structure TracksLoop (ctx : Context) (x : Scoped Fragment) (scope : Scope) (y : Noted Fragment) :
    Prop
    extends Tracks ctx (·.source) x scope y where
  told : ∀ f, y.result = .ok f → f.shape = .stack →
    ∃ heading, ⟨heading, scope.around⟩ ∈ (x scope).opened ∧
    heading.source.toList <+: f.source.toList

namespace TracksLoop
variable {text : α → String} {x : Scoped α} {y : Noted α} {f : α → Scoped Fragment} {g : α →
  Noted Fragment}

theorem bind (hx : Tracks ctx text x scope y)
    (hf : ∀ a, y.result = .ok a → TracksLoop ctx (f a) scope (g a))
    (htext : ∀ a b, (g a).result = .ok b → (text a).toList <:+: b.source.toList) :
    TracksLoop ctx (x >>= f) scope (y >>= g) := by
  refine ⟨hx.bind (fun a ha => (hf a ha).toTracks) htext, fun b hb hshape => ?_⟩
  obtain ⟨a, ha, hb⟩ := Noted.bind_eq_ok.1 hb
  obtain ⟨heading, hmem, hprefix⟩ := (hf a ha).told b hb hshape
  refine ⟨heading, ?_, hprefix⟩
  rw [Scoped.bind_of_ok (hx.outcome.symm ▸ ha), hx.scope_eq]
  exact List.mem_append_right _ hmem

theorem lift_bind (hf : ∀ a, y.result = .ok a → TracksLoop ctx (f a) scope (g a)) :
    TracksLoop ctx (.lift y >>= f) scope (y >>= g) :=
  bind (.lift y : Tracks ctx (fun _ => "") _ scope y) hf fun _ _ _ => List.nil_infix

end TracksLoop

/-! ### Going into a loop -/

/-- A heading takes new names: `inner` is what is taken in the body. -/
structure Heading.Opens (heading : Heading) (locals inner : Name.Space) : Prop where
  nodup : heading.names.Nodup
  fresh : ∀ name ∈ heading.names, name ∉ locals.taken
  taken : ∀ name, name ∈ inner.taken ↔ name ∈ heading.names ∨ name ∈ locals.taken

theorem Heading.opens_one {heading : Heading} {locals : Name.Space} {candidate : String}
    (h : heading.names = [(locals.allocate candidate).1]) :
    heading.Opens locals (locals.allocate candidate).2 := by
  refine ⟨by simp [h], ?_, by simp [h]⟩
  rw [h, List.forall_mem_singleton]
  exact locals.allocate_not_mem candidate

theorem Heading.opens_two {heading : Heading} {locals : Name.Space} {first second : String}
    (h : heading.names = [(locals.allocate first).1,
      ((locals.allocate first).2.allocate second).1]) :
    heading.Opens locals ((locals.allocate first).2.allocate second).2 := by
  have hfirst := locals.allocate_not_mem first
  have hsecond := (locals.allocate first).2.allocate_not_mem second
  rw [Name.Space.allocate_taken, List.mem_cons, not_or] at hsecond
  refine ⟨?_, ?_, fun name => ?_⟩
  · rw [h]
    exact List.nodup_cons.2 ⟨by simpa using Ne.symm hsecond.1, List.nodup_singleton _⟩
  · rw [h, List.forall_mem_cons, List.forall_mem_singleton]
    exact ⟨hfirst, hsecond.2⟩
  · rw [h, Name.Space.allocate_taken, Name.Space.allocate_taken]
    simp only [List.mem_cons, List.not_mem_nil, or_false]
    tauto

namespace Heading.Opens
variable {heading : Heading} {inner : Name.Space}

theorem covers (h : heading.Opens scope.locals inner) (hcovers : scope.Covers ctx) :
    (⟨inner, heading :: scope.around⟩ : Scope).Covers ctx := by
  refine ⟨fun name hname => ?_, fun name hname => ?_, fun outer houter name hname => ?_⟩
  · exact (h.taken name).2 (.inr (hcovers.reserved name hname))
  · exact (h.taken name).2 (.inr (hcovers.params name hname))
  · rcases List.mem_cons.1 houter with rfl | houter
    · exact (h.taken name).2 (.inl hname)
    · exact (h.taken name).2 (.inr (hcovers.around outer houter name hname))

theorem clear (h : heading.Opens scope.locals inner) (hcovers : scope.Covers ctx) :
    (⟨heading, scope.around⟩ : Opening).Clear ctx :=
  ⟨h.nodup, fun outer houter name hname hin =>
    h.fresh name hname (hcovers.around outer houter name hin),
    fun name hname hin => h.fresh name hname (hcovers.params name hin),
    fun name hname hin => h.fresh name hname (hcovers.reserved name hin)⟩

/-- The step of a loop: its names are clear, and they are covered in its body. -/
theorem tracks {x z : Scoped Fragment} {y : Noted Fragment} (h : heading.Opens scope.locals inner)
    (hz : z scope = (do Scoped.enter heading; x) ⟨inner, scope.around⟩)
    (hx : Tracks ctx (·.source) x ⟨inner, heading :: scope.around⟩ y)
    (hsource : ∀ f, y.result = .ok f → heading.source.toList <+: f.source.toList) :
    TracksLoop ctx (.within z) scope y := by
  have hend : (do Scoped.enter heading; x : Scoped Fragment) ⟨inner, scope.around⟩ =
      ⟨(x ⟨inner, heading :: scope.around⟩).outcome, (x ⟨inner, heading :: scope.around⟩).scope,
        ⟨heading, scope.around⟩ :: (x ⟨inner, heading :: scope.around⟩).opened⟩ := rfl
  have hopened : (Scoped.within z scope).opened =
      ⟨heading, scope.around⟩ :: (x ⟨inner, heading :: scope.around⟩).opened := by
    show (z scope).opened = _
    rw [hz, hend]
  refine ⟨⟨?_, rfl, fun hcovers => ?_, fun f hf => ?_⟩, fun f hf _ => ⟨heading, ?_, hsource f hf⟩⟩
  · show (z scope).outcome = y
    rw [hz, hend]
    exact hx.outcome
  · rw [hopened]
    exact List.forall_mem_cons.2 ⟨h.clear hcovers, hx.clear (h.covers hcovers)⟩
  · rw [hopened]
    exact List.forall_mem_cons.2 ⟨(hsource f hf).isInfix, hx.shown f hf⟩
  · rw [hopened]
    exact List.mem_cons_self ..

end Heading.Opens

end ScratchExport.Compile
