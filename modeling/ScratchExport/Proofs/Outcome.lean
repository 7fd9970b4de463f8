import Mathlib.Data.List.Forall2
import ScratchExport.Fault

/-!
# Computations that may stop with a fault

What a computation that ended well tells about its steps: a sequence ended well at each of its
steps, and a computation that was done for every member of a list has one result per member.
`Ensures` is a property of the result that follows the same steps, `FaultsIn` says with which faults
the computation can stop, and `Within` is both.
-/

namespace ScratchExport.Outcome

variable {α β : Type}

theorem bind_eq_ok {x : Except Fault α} {f : α → Except Fault β} {b : β} :
    x >>= f = .ok b ↔ ∃ a, x = .ok a ∧ f a = .ok b := by
  cases x with
  | error fault =>
    constructor
    · intro h; cases h
    · rintro ⟨_, h, -⟩; cases h
  | ok a =>
    constructor
    · exact fun h => ⟨a, rfl, h⟩
    · rintro ⟨_, ha, hb⟩; cases ha; exact hb

theorem pure_eq_ok {a b : α} : (pure a : Except Fault α) = .ok b ↔ a = b := by
  constructor
  · intro h; cases h; rfl
  · intro h; rw [h]; rfl

theorem toOption_eq_some {e : Except Fault α} {a : α} : e.toOption = some a ↔ e = .ok a := by
  cases e <;> simp [Except.toOption]

theorem mapM_eq_ok {f : α → Except Fault β} {as : List α} {bs : List β} (h : as.mapM f = .ok bs) :
    List.Forall₂ (fun a b => f a = .ok b) as bs := by
  induction as generalizing bs with
  | nil => rw [List.mapM_nil, pure_eq_ok] at h; subst h; exact .nil
  | cons a rest ih =>
    rw [List.mapM_cons, bind_eq_ok] at h
    obtain ⟨b, hb, h⟩ := h
    obtain ⟨others, hothers, h⟩ := bind_eq_ok.1 h
    rw [pure_eq_ok] at h; subst h
    exact .cons hb (ih hothers)

theorem mem_of_mapM_eq_ok {f : α → Except Fault β} {as : List α} {bs : List β}
    (h : as.mapM f = .ok bs) {b : β} (hb : b ∈ bs) : ∃ a ∈ as, f a = .ok b := by
  have hall := mapM_eq_ok h
  clear h
  induction hall with
  | nil => simp at hb
  | cons ha _ ih =>
    rcases List.mem_cons.1 hb with rfl | hb
    · exact ⟨_, by simp, ha⟩
    · obtain ⟨a, hmem, hfa⟩ := ih hb
      exact ⟨a, by simp [hmem], hfa⟩

theorem mapM_ok {f : α → Except Fault β} {as : List α} (h : ∀ a ∈ as, ∃ b, f a = .ok b) :
    ∃ bs, as.mapM f = .ok bs := by
  induction as with
  | nil => exact ⟨[], rfl⟩
  | cons a rest ih =>
    obtain ⟨b, hb⟩ := h a (by simp)
    obtain ⟨bs, hbs⟩ := ih fun a ha => h a (by simp [ha])
    exact ⟨b :: bs, by rw [List.mapM_cons, hb, hbs]; rfl⟩

/-- If a computation ends well, its result has a property. -/
def Ensures (x : Except Fault α) (Q : α → Prop) : Prop :=
  ∀ a, x = .ok a → Q a

namespace Ensures
variable {x : Except Fault α} {P Q : α → Prop}

theorem ok {a : α} (h : Q a) : Ensures (.ok a) Q := by
  intro b hb
  rw [← Except.ok.inj hb]
  exact h

theorem pure {a : α} (h : Q a) : Ensures (Pure.pure a) Q :=
  ok h

theorem error (fault : Fault) : Ensures (.error fault) Q :=
  fun _ h => nomatch h

theorem bind {f : α → Except Fault β} {R : β → Prop} (h : ∀ a, x = .ok a → Ensures (f a) R) :
    Ensures (x >>= f) R := by
  intro b hb
  obtain ⟨a, ha, hb⟩ := bind_eq_ok.1 hb
  exact h a ha b hb

end Ensures

/-- If the computation stops, then with a fault in `F`. -/
def FaultsIn (F : Fault → Prop) (x : Except Fault α) : Prop :=
  ∀ fault, x = .error fault → F fault

namespace FaultsIn
variable {F : Fault → Prop} {x : Except Fault α}

theorem ok (a : α) : FaultsIn F (.ok a) :=
  fun _ h => by cases h

theorem pure (a : α) : FaultsIn F (Pure.pure a : Except Fault α) :=
  ok a

theorem error {fault : Fault} (h : F fault) : FaultsIn F (.error fault : Except Fault α) := by
  intro other hother
  cases hother
  exact h

theorem bind {f : α → Except Fault β} (hx : FaultsIn F x) (hf : ∀ a, x = .ok a → FaultsIn F (f a)) :
    FaultsIn F (x >>= f) := by
  cases x with
  | error fault => exact error (hx fault rfl)
  | ok a => exact hf a rfl

theorem mapM {f : α → Except Fault β} {as : List α} (h : ∀ a ∈ as, FaultsIn F (f a)) :
    FaultsIn F (as.mapM f) := by
  induction as with
  | nil => exact pure []
  | cons a rest ih =>
    obtain ⟨ha, hrest⟩ := List.forall_mem_cons.1 h
    rw [List.mapM_cons]
    exact ha.bind fun _ _ => (ih hrest).bind fun _ _ => pure _

end FaultsIn

/-- The computation ends well with a result as in `Q`, or stops with a fault in `F`. -/
structure Within (F : Fault → Prop) (x : Except Fault α) (Q : α → Prop) : Prop where
  result : Ensures x Q
  faults : FaultsIn F x

namespace Within
variable {F : Fault → Prop} {x : Except Fault α} {Q : α → Prop}

theorem ok {a : α} (h : Q a) : Within F (.ok a) Q :=
  ⟨.ok h, .ok a⟩

theorem pure {a : α} (h : Q a) : Within F (Pure.pure a) Q :=
  ok h

theorem bind {f : α → Except Fault β} {R : β → Prop} (hx : FaultsIn F x)
    (hf : ∀ a, x = .ok a → Within F (f a) R) : Within F (x >>= f) R :=
  ⟨.bind fun a ha => (hf a ha).result, hx.bind fun a ha => (hf a ha).faults⟩

end Within

end ScratchExport.Outcome
