import ScratchExport.Fault

/-!
# Computations that take notes

`Noted α` is a result or a fault together with the notes taken on the way; a fault keeps the notes
that came before it. Notes are data, so what a computation reports can be compared with what it
produces.
-/

namespace ScratchExport

/-- Which part of the program takes a note. -/
inductive Origin where
  | loader
  | generator
  | exporter
  | command
  deriving DecidableEq

/-- How a note is passed on. -/
inductive Severity where
  /-- For the log only. -/
  | trace
  /-- For the log, and to the caller as a warning about the output. -/
  | degraded
  /-- A warning of the log. -/
  | warning
  deriving DecidableEq

/-- A message about the run. -/
structure Note where
  origin : Origin
  severity : Severity
  message : String
  deriving DecidableEq

/-- A result or a fault, and the notes taken on the way. -/
structure Noted (α : Type) where
  result : Except Fault α
  notes : List Note

namespace Noted

variable {α β : Type}

/-- Continue with `f`, unless there was a fault. -/
def bind (x : Noted α) (f : α → Noted β) : Noted β :=
  match x.result with
  | .error fault => ⟨.error fault, x.notes⟩
  | .ok a => ⟨(f a).result, x.notes ++ (f a).notes⟩

instance : Monad Noted where
  pure a := ⟨.ok a, []⟩
  bind := bind

/-- A result or fault without notes. -/
def ofExcept (result : Except Fault α) : Noted α :=
  ⟨result, []⟩

instance : MonadLift (Except Fault) Noted where
  monadLift := ofExcept

/-- Stop with a fault. -/
def fail (fault : Fault) : Noted α :=
  ⟨.error fault, []⟩

/-- Take a note. -/
def note (origin : Origin) (severity : Severity) (message : String) : Noted Unit :=
  ⟨.ok (), [⟨origin, severity, message⟩]⟩

/-- The warnings for the caller, in order. -/
def warnings (x : Noted α) : List String :=
  (x.notes.filter (·.severity == .degraded)).map (·.message)

@[simp] theorem result_pure (a : α) : (pure a : Noted α).result = .ok a := rfl

@[simp] theorem notes_pure (a : α) : (pure a : Noted α).notes = [] := rfl

theorem bind_of_ok {x : Noted α} {a : α} (h : x.result = .ok a) (f : α → Noted β) :
    x >>= f = ⟨(f a).result, x.notes ++ (f a).notes⟩ := by
  show bind x f = _
  rw [bind, h]

theorem bind_of_error {x : Noted α} {fault : Fault} (h : x.result = .error fault)
    (f : α → Noted β) : x >>= f = ⟨.error fault, x.notes⟩ := by
  show bind x f = _
  rw [bind, h]

/-- A sequence that ends well ended well at its first step, and its notes are those of
both steps. -/
theorem bind_result_eq_ok {x : Noted α} {f : α → Noted β} {b : β} (h : (x >>= f).result = .ok b) :
    ∃ a, x.result = .ok a ∧ (f a).result = .ok b ∧ (x >>= f).notes = x.notes ++ (f a).notes := by
  cases hx : x.result with
  | error fault => rw [bind_of_error hx] at h; cases h
  | ok a => rw [bind_of_ok hx] at h ⊢; exact ⟨a, rfl, h, rfl⟩

end Noted

end ScratchExport
