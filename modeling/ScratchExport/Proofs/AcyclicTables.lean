import ScratchExport.Proofs.DataFaults
import ScratchExport.Proofs.LoadedScripts

/-!
# Tables without circles

Whatever else is in a table, if nothing in it refers to itself in the end then its scripts are read
to the end (`scripts_complete`). An id may be referred to from many places and is then read as
often, and references may dangle. The budget of the reader is never used up, since each unit of it
is spent on an entry that is not on the path so far. So the reader stops early only at an entry that
is wrong by itself: `Flaw` lists the parts of an entry that can be, each with the fault that reading
it gives, and `Flawed` adds the names of scripts.

A chain is a list of ids each of which is below the one before it (`Below`), so that none comes
twice.
-/

namespace ScratchExport.Archive

/-! ### Flaws -/

/-- A part of an entry cannot be read, whatever its references lead to, and this is the fault. -/
inductive Flaw (entry : Value) : Fault → Prop
  | opcode {fault : Fault} (h : entry.require "opcode" = .error fault) : Flaw entry fault
  | slots {fault : Fault} {content : Value}
      (hcontent : entry.get "inputs" (.record []) = .ok content)
      (h : content.fields = .error fault) : Flaw entry fault
  | slot {fault : Fault} {s : String × Value} (hs : s ∈ rawSlots entry)
      (h : s.2.itemOrNull 1 = .error fault) : Flaw entry fault
  | primitive {fault : Fault} {slot : String} {kind : Value} {parts : List Value} {n : Nat}
      (hs : (slot, .list (kind :: parts)) ∈ slotsOf entry)
      (h : ((primitive (.list (kind :: parts))).run n).result = .error fault) : Flaw entry fault
  | fields {fault : Fault} (h : fieldInputs entry = .error fault) : Flaw entry fault
  | call {fault : Fault} {inputs : List (String × Input)}
      (hkind : hasKind (.procedure .call) entry = true)
      (h : callInputs entry inputs = .error fault) : Flaw entry fault
  | prototype {fault : Fault} {mutation : Value}
      (hkind : hasKind (.procedure .prototype) entry = true)
      (hmutation : entry.get "mutation" (.record []) = .ok mutation)
      (h : prototypeInputs mutation = .error fault) :
      Flaw entry fault
  | next {fault : Fault} {below : Value} (hbelow : entry.get "next" .null = .ok below)
      (h : below.asKey = .error fault) : Flaw entry fault

theorem Flaw.ofData {entry : Value} {fault : Fault} (h : Flaw entry fault) : fault.OfData := by
  cases h with
  | opcode h => exact entry.require_faults _ _ h
  | slots _ h => exact Value.fields_faults _ _ h
  | slot _ h => exact Value.itemOrNull_faults _ _ _ h
  | primitive _ h => exact primitive_faults _ _ _ h
  | fields h => exact fieldInputs_faults _ _ h
  | call _ h => exact callInputs_faults _ _ _ h
  | prototype _ _ h => exact prototypeInputs_faults _ _ h
  | next _ h => exact Value.asKey_faults _ _ h

namespace Blocks
variable {table : Blocks}

variable (table) in
/-- The fault of a flaw in an entry, or of naming the script that starts at one. -/
inductive Flawed : Fault → Prop
  | entry {id : String} {entry : Value} {fault : Fault} (hid : table.object? id = some entry)
      (h : Flaw entry fault) : Flawed fault
  | name {root : String × Value} {n m : Nat} {blocks : List Block} {fault : Fault}
      (hroot : root ∈ table.roots)
      (hblocks : ((table.chain table.budget (.text root.1)).run n).result = .ok (blocks, m))
      (h : Script.defaultName blocks = .error fault) : Flawed fault

theorem Flawed.ofData {fault : Fault} (h : table.Flawed fault) : fault.OfData := by
  cases h with
  | entry _ h => exact h.ofData
  | name _ _ h => exact Script.defaultName_faults _ _ h

theorem get_of_object? {id : String} {entry : Value} (hid : table.object? id = some entry)
    (key : String) (default : Value) (F : Fault → Prop) :
    Outcome.FaultsIn F (entry.get key default) := by
  unfold object? at hid
  split at hid
  · cases hid
    exact .ok _
  · cases hid

section
variable {chain : Value → Reading (List Block)}
  {inline : Value → List (String × Input) → Reading (List (String × Input))} {id : String}
  {entry : Value}

theorem readSlots_faults (hid : table.object? id = some entry)
    (hchain : ∀ below ∈ slotIds entry, (chain (.text below)).FaultsIn table.Flawed)
    (hinline : ∀ below ∈ slotIds entry, ∀ shadow, table.shadow? below = some shadow →
      ∀ inputs, (inline shadow inputs).FaultsIn table.Flawed) (inputs : List (String × Input)) :
    (table.readSlots chain inline entry inputs).FaultsIn table.Flawed := by
  unfold readSlots
  refine .lift_bind (get_of_object? hid _ _ _) fun content hcontent => ?_
  refine .lift_bind (fun fault h => .entry hid (.slots hcontent h)) fun slots hslots => ?_
  refine .foldlM (fun s hs inputs => ?_) inputs
  have hraw : s ∈ rawSlots entry := rawSlots_eq hcontent hslots ▸ hs
  refine .lift_bind (fun fault h => .entry hid (.slot hraw h)) fun v hv => ?_
  have hin := mem_slotsOf hcontent hslots hs hv
  unfold readSlot
  split
  · next below =>
    have hbelow := mem_slotIds hin
    cases hshadow : table.shadow? below with
    | some shadow => exact hinline below hbelow shadow hshadow inputs
    | none => exact (hchain below hbelow).bind fun _ _ _ _ => .pure _
  · exact .pure _
  · exact .bind (fun n fault h => .entry hid (.primitive hin h)) fun _ _ _ _ => .pure _
  · exact .pure _

end

variable (table) in
/-- At the end of a path a budget covers what is left, so that only flaws can stop the reader. -/
structure StopsAtFlaws (path : List String) (budget : Nat) : Prop where
  chain : ∀ v, table.Path path v → Outcome.FaultsIn table.Flawed v.asKey →
    (table.chain budget v).FaultsIn table.Flawed
  inline : ∀ id shadow, table.shadow? id = some shadow → table.Path path (.text id) → ∀ inputs,
    (table.inline budget shadow inputs).FaultsIn table.Flawed

theorem StopsAtFlaws.readSlots {id : String} {entry : Value} {path : List String} {budget : Nat}
    (h : table.StopsAtFlaws (id :: path) budget) (hacyclic : table.Acyclic)
    (hpath : table.Path path (.text id)) (hid : table.object? id = some entry)
    (inputs : List (String × Input)) :
    (table.readSlots (table.chain budget) (table.inline budget) entry inputs).FaultsIn
    table.Flawed := by
  refine readSlots_faults hid (fun below hbelow => ?_) (fun below hbelow shadow hshadow =>
    ?_) inputs
  · exact h.chain _ (hpath.step_slot hacyclic hid hbelow) (.ok _)
  · exact h.inline below shadow hshadow (hpath.step_slot hacyclic hid hbelow)

theorem chain_succ_faults (hacyclic : table.Acyclic) {path : List String} {budget : Nat}
    (h : ∀ id, table.StopsAtFlaws (id :: path) budget) {v : Value} (hpath : table.Path path v)
    (hkey : Outcome.FaultsIn table.Flawed v.asKey) :
    (table.chain (budget + 1) v).FaultsIn table.Flawed := by
  by_cases hnull : v = .null
  · subst hnull
    rw [chain]
    exact .pure _
  rw [chain]
  swap
  · exact hnull
  refine .lift_bind hkey fun key hv => ?_
  cases asKey_eq hv
  cases hentry : table.entry? v with
  | none => exact .bind (fun _ => .ok _) fun _ _ _ _ => .pure _
  | some found =>
    obtain ⟨id, entry⟩ := found
    obtain ⟨rfl, hid⟩ := entry?_eq_some hentry
    -- The last step is the same for a call, which passes its inputs, and any other block, which
    -- keeps them.
    have hbelow (held : List (String × Input)) (kind : BlockKind) : (do
        let rest ← table.chain budget (← entry.get "next" .null)
        return .mk kind held id :: rest : Reading (List Block)).FaultsIn table.Flawed := by
      refine .lift_bind (get_of_object? hid _ _ _) fun below hget => ?_
      have hnext := hpath.step_next hacyclic hid hget
      exact .bind ((h id).chain below hnext fun fault h => .entry hid (.next hget h)) fun _ _ _ _ =>
        .pure _
    refine .lift_bind (fun fault h => .entry hid (.opcode h)) fun label hlabel => ?_
    refine .bind ((h id).readSlots hacyclic hpath hid []) fun _ middle _ _ => ?_
    refine .lift_bind (fun fault h => .entry hid (.fields h)) fun fields _ => ?_
    dsimp only
    rw [← hasKind_eq hlabel]
    split_ifs with hcall
    · exact .lift_bind (fun fault h => .entry hid (.call hcall h)) fun held _ => hbelow held _
    · exact hbelow _ _

theorem inline_succ_faults (hacyclic : table.Acyclic) {path : List String} {budget : Nat}
    (h : ∀ id, table.StopsAtFlaws (id :: path) budget) {id : String} {shadow : Value}
    (hshadow : table.shadow? id = some shadow) (hpath : table.Path path (.text id))
    (inputs : List (String × Input)) :
    (table.inline (budget + 1) shadow inputs).FaultsIn table.Flawed := by
  have hid := object?_of_shadow? hshadow
  rw [inline]
  refine .lift_bind (fun fault h => .entry hid (.opcode h)) fun label hlabel => ?_
  dsimp only
  rw [← hasKind_eq hlabel]
  split_ifs with hkind
  · refine .lift_bind (get_of_object? hid _ _ _) fun mutation hmutation => ?_
    exact .lift_bind (fun fault h => .entry hid (.prototype hkind hmutation h)) fun _ _ => .pure _
  · refine .bind ((h id).readSlots hacyclic hpath hid inputs) fun _ _ _ _ => ?_
    exact .lift_bind (fun fault h => .entry hid (.fields h)) fun _ _ => .pure _

/-- A budget that covers what a path leaves of the table is not used up behind it. -/
theorem stopsAtFlaws_of_room (hacyclic : table.Acyclic) {path : List String} {budget : Nat}
    (hroom : table.budget ≤ path.length + budget) : table.StopsAtFlaws path budget := by
  induction budget generalizing path with
  | zero =>
    -- The path would hold more ids than the table.
    constructor
    · intro v hpath
      obtain ⟨_, hleft⟩ := hpath.room hroom
      cases hleft
    · intro id shadow _ hpath
      obtain ⟨_, hleft⟩ := hpath.room hroom
      cases hleft
  | succ budget ih =>
    have hdeeper (id : String) : table.StopsAtFlaws (id :: path) budget :=
      ih (by rw [List.length_cons]; omega)
    exact ⟨fun _ hpath hkey => chain_succ_faults hacyclic hdeeper hpath hkey,
      fun _ _ hshadow hpath inputs => inline_succ_faults hacyclic hdeeper hshadow hpath inputs⟩

theorem script?_faults (hacyclic : table.Acyclic) {id : String} {entry : Value}
    (hroot : (id, entry) ∈ table.entries) : (table.script? id entry).FaultsIn table.Flawed := by
  unfold script?
  split
  · next fields =>
    refine .lift_bind (.ok _) fun top htop => .lift_bind (.ok _) fun shadow hshadow => ?_
    cases htop
    cases hshadow
    split_ifs with hskip
    · exact .pure _
    have hstops : table.StopsAtFlaws [] table.budget :=
      stopsAtFlaws_of_room hacyclic (by rw [List.length_nil]; omega)
    refine (hstops.chain (.text id) (.nil _) (.ok _)).bind fun n blocks m hblocks => ?_
    refine .lift_bind (.ok _) fun x _ => .lift_bind (.ok _) fun y _ => .lift_bind ?_ fun _ _ =>
      .pure _
    refine .bind (fun fault h => .name (List.mem_filter.2 ⟨hroot, ?_⟩) hblocks h) fun _ _ => .pure _
    simpa [isRoot] using hskip
  · exact .bind (fun _ => .ok _) fun _ _ _ _ => .pure _

theorem scripts_faults (hacyclic : table.Acyclic) : table.scripts.FaultsIn table.Flawed :=
  .bind (.mapM fun _ hroot => script?_faults hacyclic hroot) fun _ _ _ _ => .pure _

/-! ### Chains -/

variable (table) in
/-- The ids of a chain from a value on. -/
inductive Below : Value → List String → Prop
  | nil (v : Value) : Below v []
  | cons {id : String} {entry below : Value} {ids : List String}
      (hid : table.object? id = some entry)
      (hbelow : entry.get "next" .null = .ok below) (h : Below below ids) :
        Below (.text id) (id :: ids)

namespace Below
variable {v : Value} {ids : List String}

theorem object?_isSome (h : table.Below v ids) {id : String} (hid : id ∈ ids) :
    (table.object? id).isSome = true := by
  induction h with
  | nil v => cases hid
  | cons hfirst _ _ ih =>
    rcases List.mem_cons.1 hid with rfl | hid
    · rw [hfirst]
      rfl
    · exact ih hid

theorem reached (h : table.Below v ids) {id : String} (hid : id ∈ ids) :
    ∃ start, v = .text start ∧ Relation.ReflTransGen table.Refers start id := by
  induction h with
  | nil v => cases hid
  | @cons start entry below ids hstart hbelow _ ih =>
    refine ⟨start, rfl, ?_⟩
    rcases List.mem_cons.1 hid with rfl | hid
    · exact .refl
    · obtain ⟨next, rfl, hreach⟩ := ih hid
      exact .head (refers_next hstart hbelow) hreach

/-- No id comes twice, since it would refer to itself in the end. -/
theorem nodup (hacyclic : table.Acyclic) (h : table.Below v ids) : ids.Nodup := by
  induction h with
  | nil v => exact List.nodup_nil
  | @cons start entry below ids hstart hbelow hrest ih =>
    refine List.nodup_cons.2 ⟨fun hin => ?_, ih⟩
    obtain ⟨next, rfl, hreach⟩ := hrest.reached hin
    exact hacyclic start (.head' (refers_next hstart hbelow) hreach)

theorem length_le (hacyclic : table.Acyclic) (h : table.Below v ids) :
    ids.length ≤ table.entries.length :=
  length_le_of_objects (h.nodup hacyclic) fun _ => h.object?_isSome

end Below

theorem below_of_chain {budget : Nat} {v : Value} {n m : Nat} {blocks : List Block}
    (h : ((table.chain budget v).run n).result = .ok (blocks, m)) :
    table.Below v (idsOf blocks) := by
  induction budget generalizing v n m blocks with
  | zero =>
    cases v with
    | null =>
      rw [chain] at h
      obtain ⟨rfl, -⟩ := Reading.pure_eq_ok h
      exact .nil _
    | _ => cases h
  | succ budget ih =>
    by_cases hnull : v = .null
    · subst hnull
      rw [chain] at h
      obtain ⟨rfl, -⟩ := Reading.pure_eq_ok h
      exact .nil _
    rw [chain] at h
    swap
    · exact hnull
    obtain ⟨key, hkey, h⟩ := Reading.lift_bind_eq_ok h
    cases asKey_eq hkey
    cases hentry : table.entry? v with
    | none =>
      rw [hentry] at h
      obtain ⟨_, k, -, h⟩ := Reading.bind_eq_ok h
      obtain ⟨rfl, -⟩ := Reading.pure_eq_ok h
      exact .nil _
    | some found =>
      obtain ⟨id, entry⟩ := found
      obtain ⟨rfl, hid⟩ := entry?_eq_some hentry
      rw [hentry] at h
      -- What the block holds plays no part, only what is below it.
      have hrest {held : List (String × Input)} {kind : BlockKind} {n : Nat} (h : ((do
          let rest ← table.chain budget (← entry.get "next" .null)
          return .mk kind held id :: rest : Reading (List Block)).run n).result = .ok (blocks, m)) :
          table.Below (.text id) (idsOf blocks) := by
        obtain ⟨below, hbelow, h⟩ := Reading.lift_bind_eq_ok h
        obtain ⟨rest, k, hrest, h⟩ := Reading.bind_eq_ok h
        obtain ⟨rfl, -⟩ := Reading.pure_eq_ok h
        exact .cons hid hbelow (ih hrest)
      obtain ⟨label, -, h⟩ := Reading.lift_bind_eq_ok h
      obtain ⟨middle, k, -, h⟩ := Reading.bind_eq_ok h
      obtain ⟨fields, -, h⟩ := Reading.lift_bind_eq_ok h
      dsimp only at h
      split_ifs at h
      · obtain ⟨held, -, h⟩ := Reading.lift_bind_eq_ok h
        exact hrest h
      · exact hrest h

/-- The scripts of a table without circles are read to the end, or up to a flaw of the table; the
budget is not what ends it, and more of it changes nothing. No chain that is read on the way has an
id twice or is longer than the table. -/
theorem scripts_complete (table : Blocks) (hacyclic : table.Acyclic) :
    (∀ n, (∃ scripts m, (table.scripts.run n).result = .ok (scripts, m)) ∨
      ∃ fault, (table.scripts.run n).result = .error fault ∧ fault ≠ .cyclicBlocks ∧
      table.Flawed fault) ∧
    (∀ budget v, table.budget ≤ budget → table.chain budget v = table.chain table.budget v) ∧
    ∀ budget v n blocks m, ((table.chain budget v).run n).result = .ok (blocks, m) →
      (idsOf blocks).Nodup ∧ blocks.length ≤ table.entries.length := by
  refine ⟨fun n => ?_, fun budget v hbudget => ?_, fun budget v n blocks m h => ?_⟩
  · cases hrun : (table.scripts.run n).result with
    | ok read => exact .inl ⟨read.1, read.2, rfl⟩
    | error fault =>
      have hflawed := scripts_faults hacyclic n fault hrun
      exact .inr ⟨fault, rfl, hflawed.ofData, hflawed⟩
  · have hagree : table.Agree [] budget table.budget :=
      agree_of_room hacyclic (by rw [List.length_nil]; omega) (by rw [List.length_nil]; omega)
    exact hagree.chain v (.nil v)
  · have hbelow := below_of_chain h
    have hlength := hbelow.length_le hacyclic
    rw [idsOf, List.length_map] at hlength
    exact ⟨hbelow.nodup hacyclic, hlength⟩

/-- Three references to one block, and one from there to nothing. -/
def sharedSay : Blocks where
  owner := .text "Cat"
  entries :=
    [("flag", entryOf "event_whenflagclicked" true false (.text "if") [] [] []),
      ("if", entryOf "control_if_else" false false (.text "say") [("SUBSTACK", slotTo "say"),
        ("SUBSTACK2", slotTo "say")]
        [] []),
      ("say", entryOf "looks_say" false false (.text "gone") [("MESSAGE", slotTo "name")] [] []),
      ("name", entryOf "looks_costumenumbername" false false .null []
        [("NUMBER_NAME", .list [.text "name"])] [])]

theorem sharedSay_complete : sharedSay.Acyclic ∧
    (∃ scripts m, (sharedSay.scripts.run 1).result = .ok (scripts, m)) ∧
    sharedSay.chain 100 (.text "flag") = sharedSay.chain 5 (.text "flag") ∧
    ∃ blocks m, ((sharedSay.chain 5 (.text "flag")).run 1).result = .ok (blocks, m) ∧
      idsOf blocks = ["flag", "if", "say"] ∧ (idsOf blocks).Nodup ∧ blocks.length ≤ 4 := by
  have hacyclic : sharedSay.Acyclic := acyclic_of_forward sharedSay.place (by decide +kernel)
  obtain ⟨hends, hbudget, hchains⟩ := scripts_complete sharedSay hacyclic
  have hread : (sharedSay.scripts.run 1).result.toOption.isSome = true := by decide +kernel
  have hids : ((sharedSay.chain 5 (.text "flag")).run 1).result.toOption.map (fun r => idsOf r.1) =
      some ["flag", "if", "say"] := by decide +kernel
  obtain ⟨⟨blocks, m⟩, hresult, hids⟩ := Option.map_eq_some_iff.1 hids
  have hchain := Outcome.toOption_eq_some.1 hresult
  refine ⟨hacyclic, ?_, hbudget 100 _ (by decide), blocks, m, hchain, hids,
    hchains _ _ _ _ _ hchain⟩
  rcases hends 1 with hok | ⟨fault, hfault, -⟩
  · exact hok
  · rw [hfault] at hread
    cases hread

end Blocks

end ScratchExport.Archive
