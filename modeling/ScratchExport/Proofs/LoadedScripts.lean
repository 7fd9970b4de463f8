import ScratchExport.Proofs.BlockReading
import ScratchExport.Proofs.Render

/-!
# The scripts of a table

The reader neither loses blocks nor makes two of one (`walk_scripts_perm`). In a table whose scripts
hang together as trees and whose blocks are written to once under each name, there is one script for
each entry at top level, and a walk through all scripts visits each entry that it should exactly
once, together with the new blocks that primitives make. The budget plays no part in this: more of
it gives the same chains (`chain_budget_add`), since a path that exhausts it would hold more ids
than the table.
-/

namespace ScratchExport

namespace Archive

/-! ### The budget -/

theorem Reading.lift_bind_congr {α β : Type} {e : Except Fault α} {f g : α → Reading β}
    (h : ∀ a, e = .ok a → f a = g a) :
    (liftM e : Reading α) >>= f = (liftM e : Reading α) >>= g := by
  cases e with
  | error fault => rfl
  | ok a =>
    show (pure a : Reading α) >>= f = (pure a : Reading α) >>= g
    funext n
    have hrun (f : α → Reading β) : ((pure a : Reading α) >>= f) n = f a n := rfl
    rw [hrun, hrun, h a rfl]

namespace Blocks
variable {table : Blocks}

variable (table) in
/-- Distinct entries from which references lead to `v`. -/
structure Path (path : List String) (v : Value) : Prop where
  nodup : path.Nodup
  objects : ∀ p ∈ path, (table.object? p).isSome = true
  leads : ∀ p ∈ path, ∀ id, v = .text id → Relation.TransGen table.Refers p id

namespace Path
variable {path : List String} {v : Value}

theorem nil (v : Value) : table.Path [] v :=
  ⟨List.nodup_nil, List.forall_mem_nil _, List.forall_mem_nil _⟩

theorem room (h : table.Path path v) {budget : Nat} (hroom : table.budget ≤ path.length + budget) :
    ∃ left, budget = left + 1 := by
  have hlength := length_le_of_objects h.nodup h.objects
  rw [Blocks.budget] at hroom
  exact ⟨budget - 1, by omega⟩

/-- A path goes on, since it does not lead back. -/
theorem step (hacyclic : table.Acyclic) {id : String} {entry : Value}
    (h : table.Path path (.text id)) (hid : table.object? id = some entry)
    (hnext : ∀ below, v = .text below → below ∈ idsIn entry) : table.Path (id :: path) v where
  nodup := List.nodup_cons.2 ⟨fun hin => hacyclic id (h.leads id hin id rfl), h.nodup⟩
  objects := List.forall_mem_cons.2 ⟨by rw [hid]; rfl, h.objects⟩
  leads p hp below hbelow := by
    have hlast : table.Refers id below := ⟨entry, hid, hnext below hbelow⟩
    rcases List.mem_cons.1 hp with rfl | hp
    · exact .single hlast
    · exact (h.leads p hp id rfl).tail hlast

theorem step_slot (hacyclic : table.Acyclic) {id below : String} {entry : Value}
    (h : table.Path path (.text id)) (hid : table.object? id = some entry)
    (hbelow : below ∈ slotIds entry) : table.Path (id :: path) (.text below) := by
  refine h.step hacyclic hid fun below' hbelow' => ?_
  cases hbelow'
  exact List.mem_append_left _ hbelow

theorem step_next (hacyclic : table.Acyclic) {id : String} {entry : Value}
    (h : table.Path path (.text id)) (hid : table.object? id = some entry)
    (hnext : entry.get "next" .null = .ok v) : table.Path (id :: path) v :=
  h.step hacyclic hid fun _ hbelow => List.mem_append_right _ (mem_nextIds (hbelow ▸ hnext))

end Path

theorem readSlots_congr {chain chain' : Value → Reading (List Block)}
    {inline inline' : Value → List (String × Input) → Reading (List (String × Input))}
    {entry : Value} (hchain : ∀ id ∈ slotIds entry, chain (.text id) = chain' (.text id))
    (hinline : ∀ id ∈ slotIds entry, ∀ shadow, table.shadow? id = some shadow →
      inline shadow = inline' shadow)
    (inputs : List (String × Input)) :
    table.readSlots chain inline entry inputs = table.readSlots chain' inline' entry inputs := by
  unfold readSlots
  refine Reading.lift_bind_congr fun content hcontent => Reading.lift_bind_congr fun slots hslots =>
    ?_
  have hslot (s : String × Value) (hs : s ∈ slots) (v : Value) (hv : s.2.itemOrNull 1 = .ok v)
      (inputs : List (String × Input)) :
      table.readSlot chain inline s.1 v inputs = table.readSlot chain' inline' s.1 v inputs := by
    cases v with
    | text id =>
      have hid : id ∈ slotIds entry := mem_slotIds (mem_slotsOf hcontent hslots hs hv)
      unfold readSlot
      dsimp only
      cases hshadow : table.shadow? id with
      | some shadow => simp only [hinline id hid shadow hshadow]
      | none => simp only [hchain id hid]
    | list items =>
      cases items with
      | nil => rfl
      | cons first rest => rfl
    | _ => rfl
  clear hslots
  induction slots generalizing inputs with
  | nil => rfl
  | cons s rest ih =>
    obtain ⟨slot, written⟩ := s
    have hfirst :
        (do table.readSlot chain inline slot (← written.itemOrNull 1) inputs : Reading _) =
        (do table.readSlot chain' inline' slot (← written.itemOrNull 1) inputs : Reading _) :=
      Reading.lift_bind_congr fun v hv => hslot _ (List.mem_cons_self ..) v hv inputs
    rw [List.foldlM_cons, List.foldlM_cons]
    dsimp only
    rw [hfirst]
    refine bind_congr fun inputs => ih inputs ?_
    exact fun s hs => hslot s (List.mem_cons_of_mem _ hs)

variable (table) in
/-- Two budgets give the same at the end of a path. -/
structure Agree (path : List String) (budget budget' : Nat) : Prop where
  chain : ∀ v, table.Path path v → table.chain budget v = table.chain budget' v
  inline : ∀ id shadow, table.shadow? id = some shadow → table.Path path (.text id) →
    table.inline budget shadow = table.inline budget' shadow

theorem Agree.readSlots {id : String} {entry : Value} {path : List String} {budget budget' : Nat}
    (h : table.Agree (id :: path) budget budget') (hacyclic : table.Acyclic)
    (hpath : table.Path path (.text id)) (hid : table.object? id = some entry)
    (inputs : List (String × Input)) :
    table.readSlots (table.chain budget) (table.inline budget) entry inputs =
      table.readSlots (table.chain budget') (table.inline budget') entry inputs := by
  refine readSlots_congr (fun below hbelow => ?_) (fun below hbelow shadow hshadow => ?_) inputs
  · exact h.chain _ (hpath.step_slot hacyclic hid hbelow)
  · exact h.inline below shadow hshadow (hpath.step_slot hacyclic hid hbelow)

theorem agree_of_room (hacyclic : table.Acyclic) {path : List String} {budget budget' : Nat}
    (hroom : table.budget ≤ path.length + budget) (hroom' : table.budget ≤ path.length + budget') :
    table.Agree path budget budget' := by
  induction budget generalizing budget' path with
  | zero =>
    constructor
    · intro v hpath
      obtain ⟨_, hleft⟩ := hpath.room hroom
      cases hleft
    · intro id shadow _ hpath
      obtain ⟨_, hleft⟩ := hpath.room hroom
      cases hleft
  | succ budget ih =>
    have hdeeper (id : String) {budget' : Nat}
        (hroom' : table.budget ≤ path.length + (budget' + 1)) :
        table.Agree (id :: path) budget budget' :=
      ih (by rw [List.length_cons]; omega) (by rw [List.length_cons]; omega)
    constructor
    · intro v hpath
      obtain ⟨budget', rfl⟩ := hpath.room hroom'
      by_cases hnull : v = .null
      · subst hnull
        rw [chain, chain]
      rw [chain, chain]
      · refine Reading.lift_bind_congr fun key hkey => ?_
        cases asKey_eq hkey
        cases hentry : table.entry? v with
        | none => rfl
        | some found =>
          obtain ⟨id, entry⟩ := found
          obtain ⟨rfl, hid⟩ := entry?_eq_some hentry
          have hagree := hdeeper id hroom'
          have hrest (k : List Block → Reading (List Block)) :
              (do
                let rest ← table.chain budget (← entry.get "next" .null)
                k rest : Reading (List Block)) =
              (do
                let rest ← table.chain budget' (← entry.get "next" .null)
                k rest : Reading (List Block)) := by
            refine Reading.lift_bind_congr fun next hnext => ?_
            rw [hagree.chain next (hpath.step_next hacyclic hid hnext)]
          simp only [hagree.readSlots hacyclic hpath hid, hrest]
      · exact hnull
      · exact hnull
    · intro id shadow hshadow hpath
      obtain ⟨budget', rfl⟩ := hpath.room hroom'
      funext inputs
      have hagree := hdeeper id hroom'
      rw [inline, inline]
      simp only [hagree.readSlots hacyclic hpath (object?_of_shadow? hshadow)]

theorem chain_budget_add (hforest : table.IsForest) (v : Value) (k : Nat) :
    table.chain (table.budget + k) v = table.chain table.budget v := by
  have hagree : table.Agree [] (table.budget + k) table.budget :=
    agree_of_room hforest.acyclic (by rw [List.length_nil]; omega) (by rw [List.length_nil]; omega)
  exact hagree.chain v (.nil v)

/-! ### Scripts -/

namespace IsForest

theorem lookup_of_mem (hforest : table.IsForest) {id : String} {entry : Value}
    (h : (id, entry) ∈ table.entries) : table.entries.lookup id = some entry :=
  Assoc.lookup_of_mem hforest.ids h

theorem object?_of_mem (hforest : table.IsForest) {id : String} {fields : List (String × Value)}
    (h : (id, .record fields) ∈ table.entries) : table.object? id = some (.record fields) := by
  rw [object?, hforest.lookup_of_mem h]

theorem shadow?_eq_none (hforest : table.IsForest) {id : String} {entry : Value}
    (h : (id, entry) ∈ table.entries) (hroot : isRoot entry = true) : table.shadow? id = none := by
  unfold shadow?
  rw [hforest.lookup_of_mem h]
  cases entry with
  | record fields =>
    rw [isRoot, Bool.and_eq_true, Bool.not_eq_true'] at hroot
    simp only
    rw [isShadow, hroot.2, Bool.false_and, if_neg Bool.false_ne_true]
  | _ => rfl

end IsForest

variable (table) in
/-- The entries `roots` become the scripts `scripts`. -/
structure ScriptsRead (roots : List (String × Value)) (scripts : List Script) (n m : Nat) :
    Prop where
  le : n ≤ m
  starts : List.Forall₂ (fun root s => s.blocks.head?.map Block.id = some root.1) roots scripts
  fine : ∀ s ∈ scripts, stackWalkFault? s.blocks = none
  walked : ∃ all kept, table.Trace (roots.map (·.1)) all kept ∧
    (idsOf (scripts.flatMap Script.nested)).Perm (kept ++ freshIds n m)

theorem ScriptsRead.nil (n : Nat) : table.ScriptsRead [] [] n n where
  le := Nat.le_refl n
  starts := .nil
  fine := nofun
  walked := ⟨[], [], .nil, by rw [freshIds_self]; exact .refl _⟩

theorem ScriptsRead.cons {root : String × Value} {roots : List (String × Value)} {s : Script}
    {scripts : List Script} {n k m : Nat} (hobject : (table.object? root.1).isSome = true)
    (hfirst : table.ChainReads (.text root.1) s.blocks n k)
    (h : table.ScriptsRead roots scripts k m) :
    table.ScriptsRead (root :: roots) (s :: scripts) n m := by
  obtain ⟨all, kept, htrace, hperm⟩ := hfirst.walked
  obtain ⟨all', kept', htrace', hperm'⟩ := h.walked
  refine ⟨hfirst.le.trans h.le, .cons (hfirst.head root.1 rfl hobject) h.starts, ?_, ?_⟩
  · exact List.forall_mem_cons.2 ⟨hfirst.fine, h.fine⟩
  · refine ⟨all ++ all', kept ++ kept', htrace.append htrace', ?_⟩
    rw [List.flatMap_cons, idsOf, List.map_append, ← freshIds_append hfirst.le h.le]
    exact perm_fresh_append hperm hperm'

theorem script?_eq_ok (hforest : table.IsForest) (hwritten : table.WellWritten)
    (hstacks : table.NoStackArguments) {id : String} {entry : Value}
    (hmem : (id, entry) ∈ table.entries) {n m : Nat} {result : Option Script}
    (h : ((table.script? id entry).run n).result = .ok (result, m)) :
    (isRoot entry = false ∧ result = none ∧ n = m) ∨
    (isRoot entry = true ∧ ∃ s, result = some s ∧ (table.object? id).isSome = true ∧
      table.ChainReads (.text id) s.blocks n m) := by
  unfold script? at h
  split at h
  · next fields =>
    have hobject := hforest.object?_of_mem hmem
    obtain ⟨top, htop, h⟩ := Reading.lift_bind_eq_ok h
    obtain ⟨shadow, hshadow, h⟩ := Reading.lift_bind_eq_ok h
    cases htop
    cases hshadow
    have hroot : isRoot (.record fields) = !(!((fields.lookup "topLevel").getD .null).truthy ||
        ((fields.lookup "shadow").getD .null).truthy) := by
      rw [Bool.not_or, Bool.not_not]
      rfl
    split_ifs at h with hskip
    · obtain ⟨rfl, rfl⟩ := Reading.pure_eq_ok h
      exact .inl ⟨by rw [hroot, hskip]; rfl, rfl, rfl⟩
    · obtain ⟨blocks, k, hblocks, h⟩ := Reading.bind_eq_ok h
      obtain ⟨x, -, h⟩ := Reading.lift_bind_eq_ok h
      obtain ⟨y, -, h⟩ := Reading.lift_bind_eq_ok h
      obtain ⟨s, hs, h⟩ := Reading.lift_bind_eq_ok h
      obtain ⟨rfl, rfl⟩ := Reading.pure_eq_ok h
      obtain ⟨name, -, hs⟩ := Outcome.bind_eq_ok.1 hs
      cases hs
      rw [Bool.not_eq_true] at hskip
      rw [hskip] at hroot
      refine .inr ⟨hroot, _, rfl, by rw [hobject]; rfl, ?_⟩
      refine (reads_of_budget hwritten hstacks (Nat.le_refl _)).1 _ _ _ _ ?_ hblocks
      intro id' entry hid hentry
      cases hid
      exact mem_blockEntries hentry (.inl (hforest.shadow?_eq_none hmem hroot))
  · next hrecord =>
    obtain ⟨_, k, htrace, h⟩ := Reading.bind_eq_ok h
    obtain ⟨rfl, rfl⟩ := Reading.pure_eq_ok h
    cases htrace
    refine .inl ⟨?_, rfl, rfl⟩
    unfold isRoot
    split
    · exact (hrecord _ rfl).elim
    · rfl

theorem mapM_script?_reads (hforest : table.IsForest) (hwritten : table.WellWritten)
    (hstacks : table.NoStackArguments) {entries : List (String × Value)}
    (hsub : ∀ e ∈ entries, e ∈ table.entries) {n m : Nat} {results : List (Option Script)}
    (h : ((entries.mapM fun (id, entry) => table.script? id entry : Reading _).run n).result =
      .ok (results, m)) :
    table.ScriptsRead (entries.filter fun e => isRoot e.2) (results.filterMap id) n m := by
  induction entries generalizing n results with
  | nil =>
    cases h
    exact .nil _
  | cons e rest ih =>
    obtain ⟨hmem, hrest⟩ := List.forall_mem_cons.1 hsub
    rw [List.mapM_cons] at h
    obtain ⟨result, k, hfirst, h⟩ := Reading.bind_eq_ok h
    obtain ⟨later, k', hlater, h⟩ := Reading.bind_eq_ok h
    obtain ⟨rfl, rfl⟩ := Reading.pure_eq_ok h
    have hread := ih hrest hlater
    rcases script?_eq_ok hforest hwritten hstacks hmem hfirst with ⟨hroot, rfl, rfl⟩
      | ⟨hroot, s, rfl, hobject, hchain⟩
    · rw [List.filter_cons, if_neg (by rw [hroot]; decide)]
      exact hread
    · rw [List.filter_cons, if_pos hroot]
      exact .cons hobject hchain hread

theorem walk_of_fine {s : Script} (h : stackWalkFault? s.blocks = none) :
    s.walk = .ok s.nested := by
  rw [Script.walk, h]

theorem mapM_walk {scripts : List Script} (h : ∀ s ∈ scripts, stackWalkFault? s.blocks = none) :
    scripts.mapM Script.walk = .ok (scripts.map Script.nested) := by
  induction scripts with
  | nil => rfl
  | cons s rest ih =>
    obtain ⟨hs, hrest⟩ := List.forall_mem_cons.1 h
    rw [List.mapM_cons, walk_of_fine hs, ih hrest]
    rfl

/-- In a forest the budget does not matter. What is read has one script for each root, and a walk
through the scripts visits entries that the roots reach, none of them twice and none but shadows
left out, and new blocks. -/
theorem walk_scripts_perm (table : Blocks) (hforest : table.IsForest) (hwritten : table.WellWritten)
    (hstacks : table.NoStackArguments) :
    (∀ v k, table.chain (table.budget + k) v = table.chain table.budget v) ∧
    ∀ n m scripts, (table.scripts.run n).result = .ok (scripts, m) →
      List.Forall₂ (fun root s => s.blocks.head?.map Block.id = some root.1) table.roots scripts ∧
      ∃ walks visited, scripts.mapM Script.walk = .ok walks ∧
        (idsOf walks.flatten).Perm (visited ++ freshIds n m) ∧ visited.Nodup ∧
        (∀ id ∈ visited, (table.object? id).isSome = true ∧
          ∃ root ∈ table.roots, Relation.ReflTransGen table.Refers root.1 id) ∧
        ∀ root ∈ table.roots, ∀ id, Relation.ReflTransGen table.Leads root.1 id →
          (table.object? id).isSome = true → table.shadow? id = none → id ∈ visited := by
  refine ⟨chain_budget_add hforest, fun n m scripts h => ?_⟩
  obtain ⟨results, k, hresults, h⟩ := Reading.bind_eq_ok h
  obtain ⟨rfl, rfl⟩ := Reading.pure_eq_ok h
  have hread := mapM_script?_reads hforest hwritten hstacks (fun e he => he) hresults
  obtain ⟨all, kept, htrace, hperm⟩ := hread.walked
  have hnodup : all.Nodup := by
    refine htrace.nodup hforest (hforest.ids.sublist (List.filter_sublist.map _)) fun r hr => ?_
    obtain ⟨root, hroot, rfl⟩ := List.mem_map.1 hr
    exact hforest.top root hroot
  refine ⟨hread.starts, _, kept, mapM_walk hread.fine, ?_, hnodup.sublist htrace.kept_sublist, ?_,
    ?_⟩
  · rw [← List.flatMap_def]
    exact hperm
  · intro id hid
    have hall := htrace.kept_sublist.subset hid
    obtain ⟨r, hr, hreach⟩ := htrace.reached hall
    obtain ⟨root, hroot, rfl⟩ := List.mem_map.1 hr
    exact ⟨htrace.object?_isSome hall, root, hroot, hreach⟩
  · intro root hroot id hreach hobject hshadow
    exact htrace.mem_kept (List.mem_map.2 ⟨root, hroot, rfl⟩) hreach hobject hshadow

/-! ### Tables with calls -/

/-- References that only lead forward never lead back. -/
theorem acyclic_of_forward (rank : String → Nat)
    (h : ∀ e ∈ table.entries, ∀ below ∈ idsIn e.2, rank e.1 < rank below) (id : String) :
    ¬ Relation.TransGen table.Refers id id := by
  have hlt {a b : String} (hab : Relation.TransGen table.Refers a b) : rank a < rank b := by
    induction hab with
    | single hstep =>
      obtain ⟨entry, hentry, hb⟩ := hstep
      exact h _ (mem_entries_of_object? hentry) _ hb
    | tail _ hstep ih =>
      obtain ⟨entry, hentry, hb⟩ := hstep
      exact ih.trans (h _ (mem_entries_of_object? hentry) _ hb)
  exact fun hcycle => Nat.lt_irrefl _ (hlt hcycle)

variable (table) in
/-- What is left to decide of a forest where all references lead to higher ranks. -/
def IsRanked (rank : String → Nat) : Prop :=
  (table.entries.map (·.1)).Nodup ∧
    (∀ e ∈ table.entries, ∀ below ∈ idsIn e.2, rank e.1 < rank below) ∧
    (table.references.filter fun id => (table.object? id).isSome).Nodup ∧
    ∀ root ∈ table.roots, root.1 ∉ table.references

instance (rank : String → Nat) : Decidable (table.IsRanked rank) :=
  inferInstanceAs (Decidable (_ ∧ _))

theorem IsRanked.isForest {rank : String → Nat} (h : table.IsRanked rank) : table.IsForest where
  ids := h.1
  acyclic := acyclic_of_forward rank h.2.1
  once := h.2.2.1
  top := h.2.2.2

def place (table : Blocks) (id : String) : Nat :=
  table.entries.findIdx (·.1 == id)

def entryOf (opcode : String) (top shadow : Bool) (next : Value)
    (inputs fields mutation : List (String × Value)) : Value :=
  .record [("opcode", .text opcode), ("next", next), ("inputs", .record inputs),
    ("fields", .record fields),
    ("shadow", .bool shadow), ("topLevel", .bool top), ("mutation", .record mutation)]

/-- A slot that refers to an entry. -/
def slotTo (id : String) : Value :=
  .list [.int 2, .text id]

/-- A procedure of two parameters, and a script that calls it below a loop. -/
def greeting : Blocks where
  owner := .text "Cat"
  entries :=
    [("def", entryOf "procedures_definition" true false .null
        [("custom_block", slotTo "proto")] [] []),
      ("proto", entryOf "procedures_prototype" false true .null
        [("p", slotTo "left"), ("q", slotTo "right")] []
        [("proccode", .text "greet %s %s"), ("argumentnames", .text "[\"a\", \"b\"]"),
          ("argumentdefaults", .text "[\"\", \"\"]")]),
      ("left", entryOf "argument_reporter_string_number" false true .null []
        [("VALUE", .list [.text "a"])] []),
      ("right", entryOf "argument_reporter_string_number" false true .null []
        [("VALUE", .list [.text "b"])] []),
      ("flag", entryOf "event_whenflagclicked" true false (.text "loop") [] [] []),
      ("loop", entryOf "control_repeat" false false (.text "call")
        [("TIMES", .list [.int 1, .list [.int 6, .text "10"]]), ("SUBSTACK", slotTo "go")] [] []),
      ("go", entryOf "motion_goto" false false (.text "say") [("TO", slotTo "menu")] [] []),
      ("menu", entryOf "motion_goto_menu" false true .null []
        [("TO", .list [.text "_random_"])] []),
      ("say", entryOf "looks_say" false false .null
        [("MESSAGE", .list [.int 3, .list [.int 12, .text "score", .text "v"]])] [] []),
      ("call", entryOf "procedures_call" false false .null
        [("p", slotTo "join"), ("q", .list [.int 1, .list [.int 10, .text "!"]])] []
        [("proccode", .text "greet %s %s"), ("argumentids", .text "[\"p\", \"q\"]")]),
      ("join", entryOf "operator_join" false false (.text "gone") [] [] []),
      ("loose", .list [.int 12, .text "score", .text "v"])]

/-- The block in the call is visited, and so is the new block of the primitive in the loop. -/
theorem greeting_visits : greeting.IsForest ∧ greeting.WellWritten ∧ greeting.NoStackArguments ∧
    ∃ scripts walks visited, (greeting.scripts.run 1).result = .ok (scripts, 2) ∧
    scripts.length = 2 ∧
      scripts.mapM Script.walk = .ok walks ∧ (idsOf walks.flatten).Perm (visited ++ ["block_1"]) ∧
      visited.Nodup ∧
      "join" ∈ visited := by
  obtain ⟨hranked, hwritten, hstacks, hrun⟩ : greeting.IsRanked greeting.place ∧
      greeting.WellWritten ∧ greeting.NoStackArguments ∧
      ((greeting.scripts.run 1).result.toOption.map fun r => (r.1.length, r.2)) = some (2, 2) := by
    decide +kernel
  have hforest := hranked.isForest
  obtain ⟨⟨scripts, m⟩, hresult, hshape⟩ := Option.map_eq_some_iff.1 hrun
  obtain ⟨hlength, hm⟩ := Prod.mk.injEq .. ▸ hshape
  cases hm
  have hread := Outcome.toOption_eq_some.1 hresult
  obtain ⟨-, walks, visited, hwalks, hperm, hnodup, -, hall⟩ :=
    (walk_scripts_perm greeting hforest hwritten hstacks).2 1 2 scripts hread
  refine ⟨hforest, hwritten, hstacks, scripts, walks, visited, hread, hlength, hwalks, hperm,
    hnodup, ?_⟩
  have hloop : greeting.Leads "flag" "loop" := ⟨_, rfl, by decide, by decide⟩
  have hcall : greeting.Leads "loop" "call" := ⟨_, rfl, by decide, by decide⟩
  have hjoin : greeting.Leads "call" "join" := ⟨_, rfl, by decide, by decide⟩
  have hroot : ∃ root ∈ greeting.roots, root.1 = "flag" := by decide
  obtain ⟨root, hroot, hflag⟩ := hroot
  refine hall root hroot "join" ?_ (by decide) rfl
  rw [hflag]
  exact .head hloop (.head hcall (.single hjoin))

/-- A call that passes a block under the name of a slot for stacks. -/
def stackCall : Blocks where
  owner := .text "Cat"
  entries :=
    [("def", entryOf "procedures_definition" true false .null
        [("custom_block", slotTo "proto")] [] []),
      ("proto", entryOf "procedures_prototype" false true .null [] []
        [("proccode", .text "f %s"), ("argumentnames", .text "[\"n\"]"),
          ("argumentdefaults", .text "[\"\"]")]),
      ("flag", entryOf "event_whenflagclicked" true false (.text "call") [] [] []),
      ("call", entryOf "procedures_call" false false .null [("SUBSTACK", slotTo "show")] []
        [("proccode", .text "f %s"), ("argumentids", .text "[\"SUBSTACK\"]")]),
      ("show", entryOf "data_showvariable" false false .null []
        [("VARIABLE", .list [.text "score", .text "v"])] [])]

/-- The block is read, and no walk visits it. -/
theorem stackCall_loses : stackCall.IsForest ∧ stackCall.WellWritten ∧
    (∃ root ∈ stackCall.roots, Relation.ReflTransGen stackCall.Leads root.1 "show") ∧
    (stackCall.object? "show").isSome = true ∧ stackCall.shadow? "show" = none ∧
    ∃ scripts m walks, (stackCall.scripts.run 1).result = .ok (scripts, m) ∧
      scripts.mapM Script.walk = .ok walks ∧ "show" ∉ idsOf walks.flatten := by
  obtain ⟨hranked, hwritten, hrun⟩ : stackCall.IsRanked stackCall.place ∧ stackCall.WellWritten ∧
      ((stackCall.scripts.run 1).result.toOption.bind fun r =>
        (r.1.mapM Script.walk).toOption.map fun walks => idsOf walks.flatten) =
          some ["def", "flag", "call"] := by
    decide +kernel
  refine ⟨hranked.isForest, hwritten, ?_, by decide, rfl, ?_⟩
  · have hroot : ∃ root ∈ stackCall.roots, root.1 = "flag" := by decide
    obtain ⟨root, hroot, hflag⟩ := hroot
    have hcall : stackCall.Leads "flag" "call" := ⟨_, rfl, by decide, by decide⟩
    have hshow : stackCall.Leads "call" "show" := ⟨_, rfl, by decide, by decide⟩
    refine ⟨root, hroot, ?_⟩
    rw [hflag]
    exact .head hcall (.single hshow)
  · obtain ⟨⟨scripts, m⟩, hresult, hwalk⟩ := Option.bind_eq_some_iff.1 hrun
    obtain ⟨walks, hwalks, hids⟩ := Option.map_eq_some_iff.1 hwalk
    refine ⟨scripts, m, walks, Outcome.toOption_eq_some.1 hresult,
      Outcome.toOption_eq_some.1 hwalks, ?_⟩
    rw [hids]
    decide

end Blocks

end Archive

end ScratchExport
