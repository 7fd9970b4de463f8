import Mathlib.Data.List.Nodup
import Mathlib.Logic.Relation
import Mathlib.Order.WellFoundedSet
import ScratchExport.Archive.Blocks
import ScratchExport.Proofs.Assoc

/-!
# Tables of blocks as graphs

An entry of a table refers to the entries in its slots and to the one below it. `Trace` follows
references as the reader of a table does: what a slot refers to is taken over into the parent if it
is a shadow, and is a block otherwise. It collects all entries that are met, and among them those
that become blocks.

If no entry is referred to twice, those at top level never, and nothing refers to itself in the end,
then a trace from the entries at top level meets no entry twice (`Trace.nodup`). The argument
counts: an entry is met as often as the one entry that refers to it (`Trace.count_le`), and
referring is well-founded.
-/

namespace ScratchExport.Archive

/-! ### Entries -/

/-- The slots of an entry as they are written. -/
def rawSlots (entry : Value) : List (String × Value) :=
  ((entry.get "inputs" (.record [])).toOption.bind fun v => v.fields.toOption).getD []

/-- The slots of an entry with what they hold at present. -/
def slotsOf (entry : Value) : List (String × Value) :=
  (rawSlots entry).filterMap fun s => (s.2.itemOrNull 1).toOption.map (s.1, ·)

/-- The id that a value is, if it is one. -/
def idOf? : Value → Option String
  | .text id => some id
  | _ => none

theorem idOf?_eq_none {v : Value} (h : ∀ id, v = .text id → False) : idOf? v = none := by
  cases v with
  | text id => exact (h id rfl).elim
  | _ => rfl

/-- The ids in the slots of an entry. -/
def slotIds (entry : Value) : List String :=
  (slotsOf entry).filterMap fun s => idOf? s.2

/-- The id of the entry below. -/
def nextIds (entry : Value) : List String :=
  ((entry.get "next" .null).toOption.bind idOf?).toList

/-- The ids that an entry refers to. -/
def idsIn (entry : Value) : List String :=
  slotIds entry ++ nextIds entry

def hasKind (op : Opcode) (entry : Value) : Bool :=
  match entry.require "opcode" with
  | .ok label => (BlockKind.ofLabel label).is op
  | .error _ => false

namespace Blocks

variable (table : Blocks)

/-- The object that an id refers to. -/
def object? (id : String) : Option Value :=
  match table.entries.lookup id with
  | some (.record fields) => some (.record fields)
  | _ => none

/-- All references in a table. -/
def references : List String :=
  table.entries.flatMap fun e => idsIn e.2

/-- One entry refers to another. -/
def Refers (a b : String) : Prop :=
  ∃ entry, table.object? a = some entry ∧ b ∈ idsIn entry

/-- The same, unless the entry is a prototype, which only describes its parent. -/
def Leads (a b : String) : Prop :=
  ∃ entry, table.object? a = some entry ∧ b ∈ idsIn entry ∧
    ¬ ((table.shadow? a).isSome = true ∧ hasKind (.procedure .prototype) entry = true)

/-- No entry refers to itself in the end. -/
def Acyclic : Prop :=
  ∀ id, ¬ Relation.TransGen table.Refers id id

/-- An object at top level that is no shadow. -/
def isRoot : Value → Bool
  | .record fields =>
    ((fields.lookup "topLevel").getD .null).truthy && !((fields.lookup "shadow").getD .null).truthy
  | _ => false

def roots : List (String × Value) :=
  table.entries.filter fun e => isRoot e.2

/-- Scripts hang from the entries at top level as trees do. -/
structure IsForest : Prop where
  ids : (table.entries.map (·.1)).Nodup
  acyclic : table.Acyclic
  once : (table.references.filter fun id => (table.object? id).isSome).Nodup
  top : ∀ root ∈ table.roots, root.1 ∉ table.references

variable {table}

theorem rawSlots_eq {entry content : Value} {slots : List (String × Value)}
    (hcontent : entry.get "inputs" (.record []) = .ok content)
    (hslots : content.fields = .ok slots) : rawSlots entry = slots := by
  unfold rawSlots
  rw [hcontent]
  show content.fields.toOption.getD [] = slots
  rw [hslots]
  rfl

theorem mem_slotsOf {entry content v : Value} {slots : List (String × Value)} {s : String × Value}
    (hcontent : entry.get "inputs" (.record []) = .ok content) (hslots : content.fields = .ok slots)
    (hs : s ∈ slots) (hv : s.2.itemOrNull 1 = .ok v) : (s.1, v) ∈ slotsOf entry := by
  rw [slotsOf, rawSlots_eq hcontent hslots]
  exact List.mem_filterMap.2 ⟨s, hs, by rw [hv]; rfl⟩

theorem mem_slotIds {entry : Value} {slot id : String} (h : (slot, .text id) ∈ slotsOf entry) :
    id ∈ slotIds entry :=
  List.mem_filterMap.2 ⟨_, h, rfl⟩

theorem mem_nextIds {entry : Value} {id : String} (h : entry.get "next" .null = .ok (.text id)) :
    id ∈ nextIds entry := by
  rw [nextIds, h]
  exact List.mem_singleton.2 rfl

theorem refers_next {id below : String} {entry : Value} (hid : table.object? id = some entry)
    (h : entry.get "next" .null = .ok (.text below)) : table.Refers id below :=
  ⟨entry, hid, List.mem_append_right _ (mem_nextIds h)⟩

theorem object?_of_shadow? {id : String} {shadow : Value} (h : table.shadow? id = some shadow) :
    table.object? id = some shadow := by
  unfold shadow? at h
  unfold object?
  cases hlookup : table.entries.lookup id with
  | none =>
    rw [hlookup] at h
    cases h
  | some entry =>
    rw [hlookup] at h
    cases entry with
    | record fields =>
      dsimp only at h ⊢
      split_ifs at h
      exact h
    | _ => cases h

theorem nextIds_of_shadow? {id : String} {shadow : Value} (h : table.shadow? id = some shadow) :
    nextIds shadow = [] := by
  unfold shadow? at h
  split at h
  · next fields _ =>
    split_ifs at h with hshadow
    cases h
    rw [isShadow, Bool.and_eq_true] at hshadow
    have hnext : (fields.lookup "next").getD .null = .null := by
      cases hvalue : (fields.lookup "next").getD .null with
      | null => rfl
      | _ =>
        rw [hvalue] at hshadow
        exact absurd hshadow.2 (by simp)
    show ((some ((fields.lookup "next").getD .null)).bind idOf?).toList = []
    rw [hnext]
    rfl
  · cases h

theorem mem_entries_of_object? {id : String} {entry : Value} (h : table.object? id = some entry) :
    (id, entry) ∈ table.entries := by
  unfold object? at h
  split at h
  · next hlookup =>
    cases h
    exact Assoc.mem_of_lookup hlookup
  · cases h

theorem length_le_of_objects {ids : List String} (hnodup : ids.Nodup)
    (hobjects : ∀ id ∈ ids, (table.object? id).isSome = true) :
    ids.length ≤ table.entries.length := by
  have hsubset : ids ⊆ table.entries.map (·.1) := by
    intro id hid
    obtain ⟨entry, hentry⟩ := Option.isSome_iff_exists.1 (hobjects id hid)
    exact List.mem_map.2 ⟨(id, entry), mem_entries_of_object? hentry, rfl⟩
  have hlength := (List.subperm_of_subset hnodup hsubset).length_le
  rwa [List.length_map] at hlength

/-! ### Following references -/

variable (table) in
/-- Following references meets the entries `all`, and those in `kept` become blocks. -/
inductive Trace : (refs all kept : List String) → Prop
  | nil : Trace [] [] []
  | dangling {id : String} {rest all kept : List String} (hid : table.object? id = none)
      (hrest : Trace rest all kept) : Trace (id :: rest) all kept
  | prototype {id : String} {entry : Value} {rest all kept : List String}
      (hshadow : table.shadow? id = some entry)
      (hkind : hasKind (.procedure .prototype) entry = true)
      (hrest : Trace rest all kept) : Trace (id :: rest) (id :: all) kept
  | inlined {id : String} {entry : Value} {rest all kept all' kept' : List String}
      (hshadow : table.shadow? id = some entry) (hinner : Trace (idsIn entry) all kept)
      (hrest : Trace rest all' kept') : Trace (id :: rest) (id :: (all ++ all')) (kept ++ kept')
  | block {id : String} {entry : Value} {rest all kept all' kept' : List String}
      (hid : table.object? id = some entry) (hinner : Trace (idsIn entry) all kept)
      (hrest : Trace rest all' kept') :
      Trace (id :: rest) (id :: (all ++ all')) (id :: (kept ++ kept'))

namespace Trace
variable {refs refs' all kept all' kept' : List String} {z : String}

theorem append (h : table.Trace refs all kept) (h' : table.Trace refs' all' kept') :
    table.Trace (refs ++ refs') (all ++ all') (kept ++ kept') := by
  induction h with
  | nil => exact h'
  | dangling hid _ ih => exact .dangling hid ih
  | prototype hshadow hkind _ ih => exact .prototype hshadow hkind ih
  | inlined hshadow hinner _ _ ih =>
    simp only [List.cons_append, List.append_assoc]
    exact .inlined hshadow hinner ih
  | block hid hinner _ _ ih =>
    simp only [List.cons_append, List.append_assoc]
    exact .block hid hinner ih

theorem kept_sublist (h : table.Trace refs all kept) : List.Sublist kept all := by
  induction h with
  | nil => exact .slnil
  | dangling _ _ ih => exact ih
  | prototype _ _ _ ih => exact ih.cons _
  | inlined _ _ _ ih ih' => exact (ih.append ih').cons _
  | block _ _ _ ih ih' => exact (ih.append ih').cons_cons _

theorem object?_isSome (h : table.Trace refs all kept) (hz : z ∈ all) :
    (table.object? z).isSome = true := by
  induction h with
  | nil => cases hz
  | dangling _ _ ih => exact ih hz
  | prototype hshadow _ _ ih =>
    rcases List.mem_cons.1 hz with rfl | hz
    · rw [object?_of_shadow? hshadow]; rfl
    · exact ih hz
  | inlined hshadow _ _ ih ih' =>
    rcases List.mem_cons.1 hz with rfl | hz
    · rw [object?_of_shadow? hshadow]; rfl
    · exact (List.mem_append.1 hz).elim ih ih'
  | block hid _ _ ih ih' =>
    rcases List.mem_cons.1 hz with rfl | hz
    · rw [hid]; rfl
    · exact (List.mem_append.1 hz).elim ih ih'

theorem reached (h : table.Trace refs all kept) (hz : z ∈ all) :
    ∃ r ∈ refs, Relation.ReflTransGen table.Refers r z := by
  have hstep {id : String} {entry : Value} {rest : List String}
      (hid : table.object? id = some entry)
      (hinner : ∃ r ∈ idsIn entry, Relation.ReflTransGen table.Refers r z) :
      ∃ r ∈ id :: rest, Relation.ReflTransGen table.Refers r z := by
    obtain ⟨r, hr, hreach⟩ := hinner
    exact ⟨id, List.mem_cons_self .., .head ⟨entry, hid, hr⟩ hreach⟩
  have hlater {first : String} {rest : List String} (hrest : ∃ r ∈ rest,
      Relation.ReflTransGen table.Refers r z) :
      ∃ r ∈ first :: rest, Relation.ReflTransGen table.Refers r z :=
    hrest.imp fun r hr => ⟨List.mem_cons_of_mem _ hr.1, hr.2⟩
  induction h with
  | nil => cases hz
  | dangling _ _ ih => exact hlater (ih hz)
  | prototype _ _ _ ih =>
    rcases List.mem_cons.1 hz with rfl | hz
    · exact ⟨_, List.mem_cons_self .., .refl⟩
    · exact hlater (ih hz)
  | inlined hshadow _ _ ih ih' =>
    rcases List.mem_cons.1 hz with rfl | hz
    · exact ⟨_, List.mem_cons_self .., .refl⟩
    · exact (List.mem_append.1 hz).elim (fun hz => hstep (object?_of_shadow? hshadow) (ih hz))
        fun hz => hlater (ih' hz)
  | block hid _ _ ih ih' =>
    rcases List.mem_cons.1 hz with rfl | hz
    · exact ⟨_, List.mem_cons_self .., .refl⟩
    · exact (List.mem_append.1 hz).elim (fun hz => hstep hid (ih hz)) fun hz => hlater (ih' hz)

/-- Everything but a shadow that is reached without going through a prototype becomes a block. -/
theorem mem_kept (h : table.Trace refs all kept) {r : String} (hr : r ∈ refs)
    (hreach : Relation.ReflTransGen table.Leads r z) (hobject : (table.object? z).isSome = true)
    (hshadow : table.shadow? z = none) : z ∈ kept := by
  induction h generalizing r with
  | nil => cases hr
  | dangling hid _ ih =>
    rcases List.mem_cons.1 hr with rfl | hr
    · rcases Relation.ReflTransGen.cases_head hreach with rfl | ⟨_, ⟨_, hfirst, -⟩, -⟩
      · rw [hid] at hobject
        cases hobject
      · rw [hid] at hfirst
        cases hfirst
    · exact ih hr hreach
  | prototype hentry hkind _ ih =>
    rcases List.mem_cons.1 hr with rfl | hr
    · rcases Relation.ReflTransGen.cases_head hreach with rfl | ⟨_, ⟨_, hfirst, -, hprototype⟩, -⟩
      · rw [hentry] at hshadow
        cases hshadow
      · rw [object?_of_shadow? hentry] at hfirst
        cases hfirst
        exact absurd ⟨by rw [hentry]; rfl, hkind⟩ hprototype
    · exact ih hr hreach
  | inlined hentry _ _ ih ih' =>
    rcases List.mem_cons.1 hr with rfl | hr
    · rcases Relation.ReflTransGen.cases_head hreach with rfl | ⟨_, ⟨_, hfirst, hin, -⟩, hreach⟩
      · rw [hentry] at hshadow
        cases hshadow
      · rw [object?_of_shadow? hentry] at hfirst
        cases hfirst
        exact List.mem_append_left _ (ih hin hreach)
    · exact List.mem_append_right _ (ih' hr hreach)
  | block hid _ _ ih ih' =>
    rcases List.mem_cons.1 hr with rfl | hr
    · rcases Relation.ReflTransGen.cases_head hreach with rfl | ⟨_, ⟨_, hfirst, hin, -⟩, hreach⟩
      · exact List.mem_cons_self ..
      · rw [hid] at hfirst
        cases hfirst
        exact List.mem_cons_of_mem _ (List.mem_append_left _ (ih hin hreach))
    · exact List.mem_cons_of_mem _ (List.mem_append_right _ (ih' hr hreach))

end Trace

/-! ### Meeting entries once -/

/-- The ids in the entry of an id. -/
def idsAt (table : Blocks) (id : String) : List String :=
  ((table.object? id).map idsIn).getD []

theorem mem_idsAt {a b : String} : b ∈ table.idsAt a ↔ table.Refers a b := by
  unfold idsAt Refers
  cases table.object? a with
  | none => simp
  | some entry => simp

/-- An entry is met once for each reference at the start and each reference in an entry that
is met. -/
theorem Trace.count_le {refs all kept : List String} (h : table.Trace refs all kept) (z : String) :
    all.count z ≤ refs.count z + (all.flatMap table.idsAt).count z := by
  have hstep {id : String} {entry : Value} {rest all all' : List String}
      (hid : table.object? id = some entry)
      (hinner : all.count z ≤ (idsIn entry).count z + (all.flatMap table.idsAt).count z)
      (hrest : all'.count z ≤ rest.count z + (all'.flatMap table.idsAt).count z) :
      (id :: (all ++ all')).count z ≤ (id :: rest).count z +
        ((id :: (all ++ all')).flatMap table.idsAt).count z := by
    have hat : table.idsAt id = idsIn entry := by
      unfold idsAt
      rw [hid]
      rfl
    simp only [List.count_cons, List.count_append, List.flatMap_cons, List.flatMap_append, hat]
    omega
  induction h with
  | nil => exact Nat.zero_le _
  | dangling _ _ ih =>
    rw [List.count_cons]
    omega
  | prototype _ _ _ ih =>
    simp only [List.count_cons, List.flatMap_cons, List.count_append]
    omega
  | inlined hshadow _ _ ih ih' => exact hstep (object?_of_shadow? hshadow) ih ih'
  | block hid _ _ ih ih' => exact hstep hid ih ih'

namespace IsForest

theorem mem_references {a b : String} (h : table.Refers a b) : b ∈ table.references := by
  obtain ⟨entry, hentry, hb⟩ := h
  exact List.mem_flatMap.2 ⟨(a, entry), mem_entries_of_object? hentry, hb⟩

theorem parent_unique (h : table.IsForest) {a b z : String} (hz : (table.object? z).isSome = true)
    (ha : table.Refers a z) (hb : table.Refers b z) : a = b := by
  obtain ⟨first, hfirst, hzfirst⟩ := ha
  obtain ⟨second, hsecond, hzsecond⟩ := hb
  have hpairwise := h.once
  rw [references, List.filter_flatMap, List.nodup_flatMap] at hpairwise
  by_contra hne
  have hdistinct : ((a, first) : String × Value) ≠ (b, second) := fun heq =>
    hne (congrArg Prod.fst heq)
  have : Std.Symm (Function.onFun List.Disjoint fun e : String × Value =>
      (idsIn e.2).filter fun id => (table.object? id).isSome) := ⟨fun _ _ hab => hab.symm⟩
  have hdisjoint :=
    hpairwise.2.forall (mem_entries_of_object? hfirst) (mem_entries_of_object? hsecond) hdistinct
  exact hdisjoint (List.mem_filter.2 ⟨hzfirst, hz⟩) (List.mem_filter.2 ⟨hzsecond, hz⟩)

theorem count_idsAt_le (h : table.IsForest) {p z : String} (hz : (table.object? z).isSome = true) :
    (table.idsAt p).count z ≤ 1 := by
  unfold idsAt
  cases hp : table.object? p with
  | none => exact Nat.zero_le _
  | some entry =>
    have hnodup := h.once
    rw [references, List.filter_flatMap, List.nodup_flatMap] at hnodup
    have hentry := hnodup.1 _ (mem_entries_of_object? hp)
    rw [List.nodup_iff_count_le_one] at hentry
    have hcount := hentry z
    rwa [List.count_filter (p := fun id => (table.object? id).isSome) hz] at hcount

/-- A list of entries refers to an object as often as the entry that refers to it is in the list. -/
theorem count_flatMap_le (h : table.IsForest) {p z : String} (hz : (table.object? z).isSome = true)
    (hp : table.Refers p z) (l : List String) : (l.flatMap table.idsAt).count z ≤ l.count p := by
  induction l with
  | nil => exact Nat.zero_le _
  | cons id rest ih =>
    rw [List.flatMap_cons, List.count_append, List.count_cons]
    by_cases hid : id = p
    · have := h.count_idsAt_le (p := id) hz
      simp only [hid, beq_self_eq_true, ↓reduceIte] at *
      omega
    · have hnone : (table.idsAt id).count z = 0 :=
        List.count_eq_zero.2 fun hin => hid (h.parent_unique hz (mem_idsAt.1 hin) hp)
      rw [hnone]
      omega

theorem wellFoundedOn (h : table.IsForest) :
    {id | (table.object? id).isSome = true}.WellFoundedOn (Relation.TransGen table.Refers) := by
  have hfinite : {id | (table.object? id).isSome = true}.Finite := by
    refine (List.finite_toSet (table.entries.map (·.1))).subset fun id hid => ?_
    obtain ⟨entry, hentry⟩ := Option.isSome_iff_exists.1 hid
    exact List.mem_map.2 ⟨(id, entry), mem_entries_of_object? hentry, rfl⟩
  have : IsStrictOrder String (Relation.TransGen table.Refers) :=
    { irrefl := h.acyclic, trans := fun _ _ _ => .trans }
  exact hfinite.wellFoundedOn

end IsForest

theorem Trace.nodup (h : table.IsForest) {refs all kept : List String}
    (ht : table.Trace refs all kept) (hdistinct : refs.Nodup)
    (htop : ∀ r ∈ refs, r ∉ table.references) : all.Nodup := by
  rw [List.nodup_iff_count_le_one]
  have hobjects (z : String) (hz : (table.object? z).isSome = true) : all.count z ≤ 1 := by
    refine h.wellFoundedOn.induction (P := fun z => all.count z ≤ 1) hz fun z hz ih => ?_
    have hcount := ht.count_le z
    by_cases hstart : z ∈ refs
    · -- An entry at the start is met there and nowhere else.
      have hnone : (all.flatMap table.idsAt).count z = 0 := by
        refine List.count_eq_zero.2 fun hin => ?_
        obtain ⟨a, -, ha⟩ := List.mem_flatMap.1 hin
        exact htop z hstart (IsForest.mem_references (mem_idsAt.1 ha))
      have := List.nodup_iff_count_le_one.1 hdistinct z
      omega
    · rw [List.count_eq_zero.2 hstart, Nat.zero_add] at hcount
      by_cases hparent : ∃ p, table.Refers p z
      · -- Any other entry is met as often as the one that refers to it.
        obtain ⟨p, hp⟩ := hparent
        have hobject : (table.object? p).isSome = true := by
          obtain ⟨entry, hentry, -⟩ := hp
          rw [hentry]
          rfl
        have hmet := h.count_flatMap_le hz hp all
        have := ih p hobject (.single hp)
        omega
      · have hnone : (all.flatMap table.idsAt).count z = 0 := by
          refine List.count_eq_zero.2 fun hin => hparent ?_
          obtain ⟨a, -, ha⟩ := List.mem_flatMap.1 hin
          exact ⟨a, mem_idsAt.1 ha⟩
        omega
  intro z
  by_cases hz : z ∈ all
  · exact hobjects z (ht.object?_isSome hz)
  · rw [List.count_eq_zero.2 hz]
    exact Nat.zero_le 1

end Blocks

end ScratchExport.Archive
