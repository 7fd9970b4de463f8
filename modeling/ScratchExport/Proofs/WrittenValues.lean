import ScratchExport.Literal.Source
import ScratchExport.Proofs.Outcome

/-!
# Values as they are written

A value is written as JSON (`Value.json`) or as an initial value (`Literal.initial`): words, numbers
and literals, put together to lists and records. What holds of all these and is kept by lists and
records holds of every value (`ValueLaw.ofJson`, `ValueLaw.ofInitial`). Initial values have the keys
of their records as they stand, so there the keys have to be asked for something.
-/

namespace ScratchExport
open Outcome (Ensures)

mutual
/-- The keys of the records in a value. -/
def Value.keys : Value → List String
  | .list items => Value.itemKeys items
  | .record fields => Value.fieldKeys fields
  | .null | .bool _ | .int _ | .float _ | .text _ | .rgb .. | .described _ => []

def Value.itemKeys : List Value → List String
  | [] => []
  | v :: rest => v.keys ++ Value.itemKeys rest

def Value.fieldKeys : List (String × Value) → List String
  | [] => []
  | (key, v) :: rest => key :: v.keys ++ Value.fieldKeys rest
end

/-- A property of source that every value has if the keys of its records have another one. -/
structure ValueLaw (P K : String → Prop) : Prop where
  word : ∀ s ∈ ["null", "true", "false", "NaN", "Infinity", "-Infinity"], P s
  integer : ∀ i : Int, P (toString i)
  double : ∀ x : Binary64, P x.text
  number : ∀ x : Binary64, P (Literal.numberLiteral x)
  literal : ∀ s : String, P (Text.literal s)
  key : ∀ s : String, K (Text.literal s)
  field : ∀ {key s : String}, K key → P s → P (key ++ ": " ++ s)
  list : ∀ {items : List String}, (∀ s ∈ items, P s) → P ("[" ++ ", ".intercalate items ++ "]")
  json : ∀ {fields : List String}, (∀ s ∈ fields, P s) →
    P ("\x7b" ++ ", ".intercalate fields ++ "\x7d")
  record : ∀ {fields : List String}, (∀ s ∈ fields, P s) →
    P ("\x7b " ++ ", ".intercalate fields ++ " \x7d")

namespace ValueLaw
variable {P K : String → Prop}

theorem triple (law : ValueLaw P K) {r g b : String} (hr : P r) (hg : P g) (hb : P b) :
    P ("[" ++ r ++ ", " ++ g ++ ", " ++ b ++ "]") := by
  have hlist : P ("[" ++ ", ".intercalate [r, g, b] ++ "]") := by
    refine law.list fun s hs => ?_
    simp only [List.mem_cons, List.not_mem_nil, or_false] at hs
    rcases hs with rfl | rfl | rfl <;> assumption
  simpa only [String.intercalate_cons_cons, String.intercalate_singleton, String.append_assoc]
    using hlist

mutual
theorem ofJson (law : ValueLaw P K) : ∀ v : Value, P v.json
  | .null => law.word _ (by decide)
  | .bool b => by cases b <;> exact law.word _ (by decide)
  | .int i => law.integer i
  | .float x => by
    cases x with
    | nan => exact law.word _ (by decide)
    | infinite negative => cases negative <;> exact law.word _ (by decide)
    | finite negative units => exact law.double (.finite negative units)
  | .text s | .described s => law.literal s
  | .list items => law.list (law.ofJsonItems items)
  | .record fields => law.json (law.ofJsonFields fields)
  | .rgb r g b => law.triple (law.integer r) (law.integer g) (law.integer b)

theorem ofJsonItems (law : ValueLaw P K) : ∀ items : List Value, ∀ s ∈ Value.jsonItems items, P s
  | [] => fun _ h => nomatch h
  | v :: rest => List.forall_mem_cons.2 ⟨law.ofJson v, law.ofJsonItems rest⟩

theorem ofJsonFields (law : ValueLaw P K) :
    ∀ fields : List (String × Value), ∀ s ∈ Value.jsonFields fields, P s
  | [] => fun _ h => nomatch h
  | (key, v) :: rest =>
    List.forall_mem_cons.2 ⟨law.field (law.key key) (law.ofJson v), law.ofJsonFields rest⟩
end

theorem ofInitialScalar (law : ValueLaw P K) {v : Value} : Ensures (Literal.initialScalar v) P := by
  unfold Literal.initialScalar
  refine .bind fun number _ => ?_
  split
  · split
    · exact .pure (law.number _)
    · exact .bind fun s _ => .pure (law.literal s)
  · exact .bind fun s _ => .pure (law.literal s)

mutual
theorem ofInitial (law : ValueLaw P K) :
    ∀ v : Value, (∀ key ∈ v.keys, K key) → Ensures (Literal.initial v) P
  | .null, _ => by rw [Literal.initial]; exact .ok (law.word _ (by decide))
  | .bool b, _ => by rw [Literal.initial]; cases b <;> exact .ok (law.word _ (by decide))
  | .list items, h => by
    rw [Literal.initial]
    exact .bind fun written hwritten => .pure (law.list (law.ofInitialItems items h _ hwritten))
  | .record fields, h => by
    rw [Literal.initial]
    exact .bind fun written hwritten => .pure (law.record (law.ofInitialFields fields h _ hwritten))
  | .rgb r g b, _ => by
    rw [Literal.initial]
    refine .bind fun red hred => .bind fun green hgreen => .bind fun blue hblue => .pure ?_
    exact law.triple (law.ofInitialScalar _ hred) (law.ofInitialScalar _ hgreen)
      (law.ofInitialScalar _ hblue)
  | .int i, _ | .float x, _ | .text t, _ | .described t, _ => by
    rw [Literal.initial]
    exact law.ofInitialScalar

theorem ofInitialItems (law : ValueLaw P K) :
    ∀ items : List Value, (∀ key ∈ Value.itemKeys items, K key) →
      Ensures (Literal.initialItems items) fun written => ∀ s ∈ written, P s
  | [], _ => by rw [Literal.initialItems]; exact .ok fun _ h => nomatch h
  | v :: rest, h => by
    rw [Value.itemKeys, List.forall_mem_append] at h
    rw [Literal.initialItems]
    refine .bind fun first hfirst => .bind fun others hothers => .pure ?_
    exact List.forall_mem_cons.2
      ⟨law.ofInitial v h.1 first hfirst, law.ofInitialItems rest h.2 others hothers⟩

theorem ofInitialFields (law : ValueLaw P K) :
    ∀ fields : List (String × Value), (∀ key ∈ Value.fieldKeys fields, K key) →
      Ensures (Literal.initialFields fields) fun written => ∀ s ∈ written, P s
  | [], _ => by rw [Literal.initialFields]; exact .ok fun _ h => nomatch h
  | (key, v) :: rest, h => by
    rw [Value.fieldKeys, List.cons_append, List.forall_mem_cons, List.forall_mem_append] at h
    obtain ⟨hkey, hv, hrest⟩ := h
    rw [Literal.initialFields]
    refine .bind fun first hfirst => .bind fun others hothers => .pure ?_
    exact List.forall_mem_cons.2
      ⟨law.field hkey (law.ofInitial v hv first hfirst), law.ofInitialFields rest hrest _ hothers⟩
end

end ValueLaw

end ScratchExport
