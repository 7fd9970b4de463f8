import ScratchExport.Proofs.Render
import ScratchExport.Proofs.Texts

/-!
# From the parts of a block to the whole

The compiler goes through a block once: inputs become readers, and the plan of the block is carried
out with them. So a property of fragments holds of everything that is compiled as soon as each of
these steps carries it from the parts to the whole. `Carried` collects the steps, under an
assumption on the texts in the block, and `Carried.block` is the induction over blocks, inputs and
stacks.
-/

namespace ScratchExport.Compile
open Outcome (Ensures)

/-- Whatever is read has the property. -/
def Read.Gives (G : Fragment → Prop) (read : Read) : Prop :=
  ∀ desired locals, Ensures (read desired locals).result G

/-- Every input, and every input that a call passes, has the property. -/
def Readers.Give (G : Fragment → Prop) (readers : Readers) : Prop :=
  ∀ entry ∈ readers, Read.Gives G entry.2.read ∧ ∀ read ∈ entry.2.items, Read.Gives G read

/-- Each step of compiling carries the property `G` from the parts to the whole, when all texts
satisfy `P`. -/
structure Carried (ctx : Context) (P : String → Prop) (G : Fragment → Prop) : Prop where
  literal : ∀ v : Value, (∀ s ∈ v.texts, P s) → ∀ desired, Ensures (literalFragment v desired) G
  content : ∀ input : Input, (∀ s ∈ input.texts, P s) → ∀ s ∈ input.content.texts, P s
  color : ∀ v : Value, (∀ s ∈ v.texts, P s) → Ensures (Literal.Color.source v) fun s => G ⟨s, .any⟩
  join : ∀ fs : List Fragment, (∀ f ∈ fs, G f) → G ⟨joinStatements (fs.map (·.source)), .stack⟩
  plan : ∀ kind slots readers, (∀ s ∈ kind.texts ++ slotTexts slots, P s) → Readers.Give G readers →
    ∀ desired locals p, plan ctx kind slots desired locals = .ok p →
      Ensures (p.fragment ctx slots readers desired locals).result G

theorem coerce_stack (source : String) (shape : Shape) :
    Source.coerce source shape .stack = source := by
  cases shape <;> rfl

namespace Carried
variable {ctx : Context} {P : String → Prop} {G : Fragment → Prop}

mutual
theorem block (h : Carried ctx P G) :
    ∀ b : Block, (∀ s ∈ b.texts, P s) → Read.Gives G (blockFragment ctx b)
  | .mk kind inputs id, ht, desired, locals, f, hf => by
    obtain ⟨p, hplan, hf⟩ := blockFragment_eq_ok.1 hf
    rw [Block.texts, ← List.append_assoc] at ht
    have htexts := (List.forall_mem_append.1 ht).1
    have hreaders := readers h inputs (List.forall_mem_append.1 htexts).2
    exact h.plan kind inputs _ htexts hreaders desired locals p hplan f hf

theorem readers (h : Carried ctx P G) : ∀ inputs : Slots, (∀ s ∈ slotTexts inputs, P s) →
    Readers.Give G (Compile.readers ctx inputs)
  | [], _ => by rw [Compile.readers]; exact fun _ h => nomatch h
  | (slot, x) :: rest, ht => by
    rw [slotTexts] at ht
    have hinput := (List.forall_mem_append.1 (List.forall_mem_cons.1 ht).2).1
    have hrest := (List.forall_mem_append.1 (List.forall_mem_cons.1 ht).2).2
    rw [Compile.readers]
    exact List.forall_mem_cons.2 ⟨⟨input h x hinput, items h x hinput⟩, readers h rest hrest⟩

theorem input (h : Carried ctx P G) :
    ∀ x : Input, (∀ s ∈ x.texts, P s) → Read.Gives G (inputFragment ctx x)
  | .block (some b), ht => by rw [inputFragment]; exact block h b ht
  | .block none, _ => by
    rw [inputFragment]
    exact fun desired _ => h.literal .null (fun _ h => nomatch h) desired
  | .stack (some bs), ht => by
    rw [inputFragment]
    intro desired locals
    rw [Noted.result_bind]
    refine .bind fun sources hsources => .pure ?_
    obtain ⟨fs, hfs, rfl⟩ := stack h bs ht locals sources hsources
    exact h.join fs hfs
  | .stack none, _ => by
    rw [inputFragment]
    exact fun _ _ => .ok (h.join [] fun _ h => nomatch h)
  | .plain kind v, ht => by
    rw [inputFragment]
    have hv := (List.forall_mem_cons.1 ht).2
    intro desired locals
    dsimp only
    split_ifs
    · rw [Noted.result_bind]
      exact .bind fun s hs => .pure (h.color v hv s hs)
    · exact h.literal v hv desired
  | .reference kind ref, ht => by
    rw [inputFragment]
    exact fun desired _ => h.literal ref.name (List.forall_mem_append.1 ht).2 desired
  | .arguments items, ht => by
    rw [inputFragment]
    exact fun desired _ => h.literal _ (h.content _ ht) desired
  | .values items, ht => by
    rw [inputFragment]
    exact fun desired _ => h.literal _ (h.content _ ht) desired

theorem items (h : Carried ctx P G) : ∀ x : Input, (∀ s ∈ x.texts, P s) →
    ∀ read ∈ inputItems ctx x, Read.Gives G read
  | .values items, ht => by rw [inputItems]; exact reads h items ht
  | .plain .., _ | .reference .., _ | .block _, _ | .stack _, _ | .arguments _, _ => by
    rw [inputItems]
    exact fun _ h => nomatch h

theorem reads (h : Carried ctx P G) : ∀ xs : List Input, (∀ s ∈ passedTexts xs, P s) →
    ∀ read ∈ itemReads ctx xs, Read.Gives G read
  | [], _ => by rw [itemReads]; exact fun _ h => nomatch h
  | x :: rest, ht => by
    rw [passedTexts, List.forall_mem_append] at ht
    rw [itemReads]
    exact List.forall_mem_cons.2 ⟨input h x ht.1, reads h rest ht.2⟩

theorem stack (h : Carried ctx P G) : ∀ bs : List Block, (∀ s ∈ stackTexts bs, P s) → ∀ locals,
    Ensures (stackSources ctx bs locals).result fun sources =>
      ∃ fs : List Fragment, (∀ f ∈ fs, G f) ∧
      sources = fs.map (·.source)
  | [], _, locals => by rw [stackSources]; exact .ok ⟨[], (fun _ h => nomatch h), rfl⟩
  | b :: rest, ht, locals => by
    rw [stackTexts, List.forall_mem_append] at ht
    rw [stackSources, Noted.result_bind]
    refine .bind fun f hf => ?_
    rw [Noted.result_bind]
    refine .bind fun others hothers => .pure ?_
    obtain ⟨fs, hfs, rfl⟩ := stack h rest ht.2 locals others hothers
    rw [coerce_stack]
    exact ⟨f :: fs, List.forall_mem_cons.2 ⟨block h b ht.1 .stack locals f hf, hfs⟩, rfl⟩
end

end Carried

end ScratchExport.Compile
