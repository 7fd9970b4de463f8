import ScratchExport.Proofs.BlockWrites

/-!
# Reading a table of blocks

What a run of the reader gives is described by the trace of the references that it follows. `Reads`
says so of inputs that are added to those of a block and `ChainReads` of a chain: a walk through
what was read finds the entries that the trace keeps, and blocks with new ids. Both hold for every
budget (`reads_of_budget`), by induction on it.
-/

namespace ScratchExport.Archive

namespace Reading
variable {α β : Type} {n m : Nat}

theorem bind_eq_ok {x : Reading α} {f : α → Reading β} {b : β}
    (h : ((x >>= f).run n).result = .ok (b, m)) :
    ∃ a k, (x.run n).result = .ok (a, k) ∧ ((f a).run k).result = .ok (b, m) := by
  obtain ⟨⟨a, k⟩, hx, hf, -⟩ := Noted.bind_result_eq_ok h
  exact ⟨a, k, hx, hf⟩

theorem bind_of_ok {x : Reading α} {a : α} {k : Nat} (h : (x.run n).result = .ok (a, k))
    (f : α → Reading β) : ((x >>= f).run n).result = ((f a).run k).result := by
  show (x.run n >>= fun p => (f p.1).run p.2).result = _
  rw [Noted.bind_of_ok h]

theorem pure_eq_ok {a b : α} (h : ((pure a : Reading α).run n).result = .ok (b, m)) :
    a = b ∧ n = m := by
  cases h
  exact ⟨rfl, rfl⟩

theorem lift_eq_ok {e : Except Fault α} {a : α}
    (h : ((liftM e : Reading α).run n).result = .ok (a, m)) : e = .ok a ∧ n = m := by
  cases e with
  | error fault => cases h
  | ok b =>
    cases h
    exact ⟨rfl, rfl⟩

theorem lift_bind_eq_ok {e : Except Fault α} {f : α → Reading β} {b : β}
    (h : (((liftM e : Reading α) >>= f).run n).result = .ok (b, m)) :
    ∃ a, e = .ok a ∧ ((f a).run n).result = .ok (b, m) := by
  obtain ⟨a, k, he, hf⟩ := bind_eq_ok h
  obtain ⟨rfl, rfl⟩ := lift_eq_ok he
  exact ⟨a, rfl, hf⟩

end Reading

/-- The ids of new blocks while the counter goes from `n` to `m`. -/
def freshIds (n m : Nat) : List String :=
  (List.range' n (m - n)).map fun i => "block_" ++ toString i

theorem freshIds_self (n : Nat) : freshIds n n = [] := by
  rw [freshIds, Nat.sub_self]
  rfl

theorem freshIds_append {n k m : Nat} (hnk : n ≤ k) (hkm : k ≤ m) :
    freshIds n k ++ freshIds k m = freshIds n m := by
  obtain ⟨i, rfl⟩ := Nat.exists_eq_add_of_le hnk
  obtain ⟨j, rfl⟩ := Nat.exists_eq_add_of_le hkm
  have hsub : n + i + j - (n + i) = j ∧ n + i - n = i ∧ n + i + j - n = i + j := by omega
  rw [freshIds, freshIds, freshIds, hsub.1, hsub.2.1, hsub.2.2, ← List.map_append,
    List.range'_append_1]

/-- The ids of blocks. -/
def idsOf (blocks : List Block) : List String :=
  blocks.map Block.id

namespace Blocks
variable {table : Blocks}

/-- Two walks one after the other, with the new ids put last. -/
theorem perm_fresh_append {a b kept kept' fresh fresh' : List String} (h : a.Perm (kept ++ fresh))
    (h' : b.Perm (kept' ++ fresh')) : (a ++ b).Perm (kept ++ kept' ++ (fresh ++ fresh')) := by
  refine (h.append h').trans ?_
  rw [List.append_assoc, List.append_assoc]
  exact (List.perm_append_comm_assoc ..).append_left kept

/-! ### Inputs -/

variable (table) in
/-- The input that a write makes. -/
def Made (slot : String) : Option Value → Input → Prop
  | none, x => x.Blockless
  | some (.text id), x => ∃ blocks, x = chainInput slot blocks ∧
    (blocks ≠ [] → (table.object? id).isSome = true) ∧
    (1 < blocks.length → table.continues id = true)
  | some _, x => x.shown = x.nested

variable (table) in
/-- Following `refs` adds the inputs `added`, which are those of the writes `ws`. -/
structure Reads (refs : List String) (ws : List Write) (added : List (String × Input)) (n m : Nat) :
    Prop where
  le : n ≤ m
  made : List.Forall₂ (fun w e => w.1 = e.1 ∧ table.Made w.1 w.2 e.2) ws added
  fine : ∀ e ∈ added, e.2.walkFault? = none
  walked : ∃ all kept, table.Trace refs all kept ∧
    (idsOf (added.flatMap fun e => e.2.nested)).Perm (kept ++ freshIds n m)

namespace Reads
variable {refs refs' : List String} {ws ws' : List Write} {added added' : List (String × Input)}
  {n k m : Nat}

theorem nil (n : Nat) : table.Reads [] [] [] n n where
  le := Nat.le_refl n
  made := .nil
  fine := nofun
  walked := ⟨[], [], .nil, by rw [freshIds_self]; exact .refl _⟩

theorem append (h : table.Reads refs ws added n k) (h' : table.Reads refs' ws' added' k m) :
    table.Reads (refs ++ refs') (ws ++ ws') (added ++ added') n m := by
  obtain ⟨all, kept, htrace, hperm⟩ := h.walked
  obtain ⟨all', kept', htrace', hperm'⟩ := h'.walked
  refine ⟨h.le.trans h'.le, List.rel_append h.made h'.made, ?_, all ++ all', kept ++ kept',
    htrace.append htrace', ?_⟩
  · intro e he
    exact (List.mem_append.1 he).elim (h.fine e) (h'.fine e)
  · rw [List.flatMap_append, idsOf, List.map_append, ← freshIds_append h.le h'.le]
    exact perm_fresh_append hperm hperm'

theorem blockless (h : ∀ e ∈ added, e.2.Blockless) (n : Nat) :
    table.Reads [] ((added.map (·.1)).map (·, none)) added n n where
  le := Nat.le_refl n
  made := by
    rw [List.map_map, List.forall₂_map_left_iff]
    exact List.forall₂_same.2 fun e he => ⟨rfl, h e he⟩
  fine e he := (h e he).fine
  walked := by
    refine ⟨[], [], .nil, ?_⟩
    rw [List.flatMap_eq_nil_iff.2 fun e he => (h e he).nested, freshIds_self]
    exact .refl _

theorem retrace (h : table.Reads refs ws added n m)
    (htrace : ∀ all kept, table.Trace refs all kept → ∃ all', table.Trace refs' all' kept) :
    table.Reads refs' ws added n m := by
  obtain ⟨all, kept, hall, hperm⟩ := h.walked
  obtain ⟨all', hall'⟩ := htrace all kept hall
  exact ⟨h.le, h.made, h.fine, all', kept, hall', hperm⟩

theorem names_eq (h : table.Reads refs ws added n m) : added.map (·.1) = ws.map (·.1) := by
  obtain ⟨-, hmade, -, -⟩ := h
  induction hmade with
  | nil => rfl
  | cons hfirst _ ih => rw [List.map_cons, List.map_cons, ih, hfirst.1]

theorem single {slot : String} {content : Value} {x : Input} {all kept : List String} (hle : n ≤ m)
    (hmade : table.Made slot (some content) x) (hfine : x.walkFault? = none)
    (htrace : table.Trace refs all kept) (hperm : (idsOf x.nested).Perm (kept ++ freshIds n m)) :
    table.Reads refs [(slot, some content)] [(slot, x)] n m where
  le := hle
  made := .cons ⟨rfl, hmade⟩ .nil
  fine e he := by
    rw [List.mem_singleton.1 he]
    exact hfine
  walked := ⟨all, kept, htrace, by simpa using hperm⟩

end Reads

/-! ### Chains -/

variable (table) in
/-- A reference leads to the chain `blocks`. -/
structure ChainReads (v : Value) (blocks : List Block) (n m : Nat) : Prop where
  le : n ≤ m
  fine : stackWalkFault? blocks = none
  walked : ∃ all kept, table.Trace (idOf? v).toList all kept ∧
    (idsOf (nestedStack blocks)).Perm (kept ++ freshIds n m)
  object : blocks ≠ [] → ∃ id, v = .text id ∧ (table.object? id).isSome = true
  head : ∀ id, v = .text id → (table.object? id).isSome = true → blocks.head?.map Block.id = some id
  long : ∀ id, v = .text id → 1 < blocks.length → table.continues id = true

theorem ChainReads.nil {v : Value} (h : ∀ id, v = .text id → table.object? id = none) (n : Nat) :
    table.ChainReads v [] n n where
  le := Nat.le_refl n
  fine := rfl
  walked := by
    refine ⟨[], [], ?_, by rw [freshIds_self]; exact .refl _⟩
    cases v with
    | text id => exact .dangling (h id rfl) .nil
    | _ => exact .nil
  object hne := absurd rfl hne
  head id hid hobject := by
    rw [h id hid] at hobject
    cases hobject
  long _ _ hlong := absurd hlong (Nat.not_lt_zero 1)

theorem ChainReads.cons {id : String} {entry next : Value} {kind : BlockKind}
    {inputs : List (String × Input)} {rest : List Block} {n k m : Nat}
    (hid : table.object? id = some entry) (hle : n ≤ k) (hfine : inputsWalkFault? inputs = none)
    (hslots : ∃ all kept, table.Trace (slotIds entry) all kept ∧
      (idsOf (nestedInputs inputs)).Perm (kept ++ freshIds n k))
    (hnext : entry.get "next" .null = .ok next) (hrest : table.ChainReads next rest k m) :
    table.ChainReads (.text id) (.mk kind inputs id :: rest) n m := by
  have hbelow : nextIds entry = (idOf? next).toList := by
    rw [nextIds, hnext]
    rfl
  obtain ⟨all, kept, htrace, hperm⟩ := hslots
  obtain ⟨all', kept', htrace', hperm'⟩ := hrest.walked
  have hinner : table.Trace (idsIn entry) (all ++ all') (kept ++ kept') := by
    rw [idsIn, hbelow]
    exact htrace.append htrace'
  refine ⟨hle.trans hrest.le, ?_, ⟨_, _, .block hid hinner .nil, ?_⟩, ?_, ?_, ?_⟩
  · rw [stackWalkFault?, Block.walkFault?, hfine]
    exact hrest.fine
  · rw [nestedStack, Block.nested, List.cons_append, idsOf, List.map_cons, List.map_append,
      List.append_nil, ← freshIds_append hle hrest.le]
    exact (perm_fresh_append hperm hperm').cons id
  · intro _
    exact ⟨id, rfl, by rw [hid]; rfl⟩
  · intro id' hid' _
    cases hid'
    rfl
  · intro id' hid' hlong
    cases hid'
    obtain ⟨below, rfl, hobject⟩ := hrest.object (by rintro rfl; simp at hlong)
    rw [continues, hid]
    show (nextIds entry).any _ = true
    rw [hbelow]
    exact List.any_eq_true.2 ⟨below, List.mem_singleton.2 rfl, hobject⟩

theorem chainInput_nested (slot : String) (blocks : List Block) :
    (chainInput slot blocks).nested = nestedStack blocks := by
  unfold chainInput
  split
  · rw [Input.nested]
  · next hshort =>
    cases blocks with
    | nil => rfl
    | cons b rest =>
      cases rest with
      | nil => simp [Input.nested, nestedStack]
      | cons b' rest => simp at hshort

theorem chainInput_walkFault? {slot : String} {blocks : List Block}
    (h : stackWalkFault? blocks = none) : (chainInput slot blocks).walkFault? = none := by
  unfold chainInput
  split
  · rw [Input.walkFault?, h]
  · cases blocks with
    | nil => rfl
    | cons b rest =>
      rw [stackWalkFault?] at h
      show Input.walkFault? (.block (some b)) = none
      rw [Input.walkFault?]
      split at h
      · cases h
      · assumption

theorem ChainReads.reads_slot {id : String} {blocks : List Block} {n m : Nat}
    (h : table.ChainReads (.text id) blocks n m) (slot : String) :
    table.Reads [id] [(slot, some (.text id))] [(slot, chainInput slot blocks)] n m := by
  obtain ⟨all, kept, htrace, hperm⟩ := h.walked
  refine .single h.le ⟨blocks, rfl, ?_, h.long id rfl⟩ (chainInput_walkFault? h.fine) htrace ?_
  · intro hne
    obtain ⟨id', hid, hobject⟩ := h.object hne
    cases hid
    exact hobject
  · rw [chainInput_nested]
    exact hperm

/-- A call shows all of a chain that is passed as a single block. -/
theorem chainInput_shown {slot : String} {blocks : List Block}
    (hslot : blocks ≠ [] → isStackSlot slot = false) (hshort : ¬ 1 < blocks.length) :
    (chainInput slot blocks).shown = (chainInput slot blocks).nested := by
  cases blocks with
  | nil =>
    unfold chainInput
    split
    · simp [Input.shown, nestedItems, Input.nested, nestedStack]
    · simp [Input.shown, nestedItems, Input.nested]
  | cons b rest =>
    have hplace := hslot (List.cons_ne_nil b rest)
    unfold isStackSlot at hplace
    rw [chainInput, hplace, Bool.false_or, if_neg (by simpa using hshort)]
    simp [Input.shown, nestedItems, Input.nested]

/-! ### Slots -/

variable (table) in
/-- Following chains as `ChainReads` says. -/
def ChainSpec (chain : Value → Reading (List Block)) : Prop :=
  ∀ v n blocks m, (∀ id entry, v = .text id → table.object? id = some entry →
    (id, entry) ∈ table.blockEntries) →
    ((chain v).run n).result = .ok (blocks, m) → table.ChainReads v blocks n m

variable (table) in
/-- Taking over shadows as `Reads` says, if they write `inlined` and that is new. -/
def InlineSpec (inline : Value → List (String × Input) → Reading (List (String × Input)))
    (inlined : Value → List Write) : Prop :=
  ∀ id shadow inputs n inputs' m, table.shadow? id = some shadow →
    ((inline shadow inputs).run n).result = .ok (inputs', m) →
    (inputs.map (·.1) ++ (inlined shadow).map (·.1)).Nodup →
    ∃ added, inputs' = inputs ++ added ∧ table.Reads [id] (inlined shadow) added n m

theorem primitive_reads {v : Value} {x : Input} {n m : Nat}
    (h : ((primitive v).run n).result = .ok (x, m)) :
    n ≤ m ∧ x.shown = x.nested ∧ x.walkFault? = none ∧ idsOf x.nested = freshIds n m := by
  have hplain {e : Except Fault Value} {kind : String} {f : Value → Value}
      (hkind : kind ≠ "customBlockInputValues")
      (h : ((do return .plain kind (f (← e)) : Reading Input).run n).result = .ok (x, m)) :
      n ≤ m ∧ x.shown = x.nested ∧ x.walkFault? = none ∧ idsOf x.nested = freshIds n m := by
    obtain ⟨w, -, h⟩ := Reading.lift_bind_eq_ok h
    obtain ⟨rfl, rfl⟩ := Reading.pure_eq_ok h
    have hblockless := Input.Blockless.plain hkind (f w)
    refine ⟨Nat.le_refl n, ?_, hblockless.fine, ?_⟩
    · rw [hblockless.shown, hblockless.nested]
    · rw [hblockless.nested, freshIds_self]
      rfl
  have hblock {kind : BlockKind} {slot : String} {data : DataKind}
      (h : ((do
        let ref ← primitiveRef v
        return .block (some (.mk kind [(slot, .reference data ref)] (← Reading.freshId))) :
          Reading Input).run n).result
          = .ok (x, m)) :
      n ≤ m ∧ x.shown = x.nested ∧ x.walkFault? = none ∧ idsOf x.nested = freshIds n m := by
    obtain ⟨ref, -, h⟩ := Reading.lift_bind_eq_ok h
    obtain ⟨id, k, hid, h⟩ := Reading.bind_eq_ok h
    obtain ⟨rfl, rfl⟩ := Reading.pure_eq_ok h
    cases hid
    refine ⟨Nat.le_succ n, ?_, ?_, ?_⟩
    · simp [Input.shown, nestedItems, Input.nested]
    · simp [Input.walkFault?, Block.walkFault?, inputsWalkFault?]
    · simp [Input.nested, Block.nested, nestedInputs, idsOf, freshIds, Block.id]
  unfold primitive at h
  obtain ⟨first, -, h⟩ := Reading.lift_bind_eq_ok h
  obtain ⟨kind, -, h⟩ := Reading.lift_bind_eq_ok h
  dsimp only at h
  split_ifs at h
  · exact hplain (f := fun w => w) (by decide) h
  · exact hplain (f := fun w => w) (by decide) h
  · exact hplain (by decide) h
  · exact hplain (f := fun w => w) (by decide) h
  · exact hblock h
  · exact hblock h
  · exact hplain (f := fun w => w) (by decide) h

section
variable {chain : Value → Reading (List Block)}
  {inline : Value → List (String × Input) → Reading (List (String × Input))} {inlined : Value →
    List Write}
  {inputs inputs' : List (String × Input)} {n m : Nat}

theorem readSlot_reads (hchain : table.ChainSpec chain) (hinline : table.InlineSpec inline inlined)
    {slot : String} {content : Value}
    (h : ((table.readSlot chain inline slot content inputs).run n).result = .ok (inputs', m))
    (hnodup : (inputs.map (·.1) ++ (table.slotWrite inlined slot content).map (·.1)).Nodup) :
    ∃ added, inputs' = inputs ++ added ∧
      table.Reads (idOf? content).toList (table.slotWrite inlined slot content) added n m := by
  have hset {x : Input} {written : Option Value}
      (hnodup : (inputs.map (·.1) ++ [(slot, written)].map (·.1)).Nodup) :
      Assoc.set slot x inputs = inputs ++ [(slot, x)] := by
    refine Assoc.set_of_not_mem fun hin => ?_
    exact (List.nodup_append'.1 hnodup).2.2 hin (List.mem_singleton.2 rfl)
  unfold readSlot at h
  split at h
  · next id =>
    unfold slotWrite at hnodup ⊢
    cases hshadow : table.shadow? id with
    | some shadow =>
      simp only [hshadow] at h hnodup ⊢
      exact hinline id shadow inputs n inputs' m hshadow h hnodup
    | none =>
      simp only [hshadow] at h hnodup ⊢
      obtain ⟨blocks, k, hblocks, h⟩ := Reading.bind_eq_ok h
      obtain ⟨rfl, rfl⟩ := Reading.pure_eq_ok h
      have hread : table.ChainReads (.text id) blocks n k := by
        refine hchain _ n blocks k ?_ hblocks
        intro id' entry hid hentry
        cases hid
        exact mem_blockEntries hentry (.inl hshadow)
      exact ⟨_, hset hnodup, hread.reads_slot slot⟩
  · obtain ⟨rfl, rfl⟩ := Reading.pure_eq_ok h
    have hblockless : (Input.plain "string" .null).Blockless := .plain (by decide) _
    refine ⟨_, hset hnodup, .single (Nat.le_refl n) ?_ hblockless.fine .nil ?_⟩
    · rw [Made, hblockless.shown, hblockless.nested]
      nofun
    · rw [hblockless.nested, freshIds_self]
      exact .refl _
  · obtain ⟨x, k, hx, h⟩ := Reading.bind_eq_ok h
    obtain ⟨rfl, rfl⟩ := Reading.pure_eq_ok h
    obtain ⟨hle, hshown, hfine, hids⟩ := primitive_reads hx
    refine ⟨_, hset hnodup, .single hle ?_ hfine .nil (by rw [hids]; exact .refl _)⟩
    rw [Made]
    · exact hshown
    · nofun
  · next htext hnull hlist =>
    obtain ⟨rfl, rfl⟩ := Reading.pure_eq_ok h
    have hwrite : table.slotWrite inlined slot content = [] := by
      unfold slotWrite
      split
      · exact (htext _ rfl).elim
      · exact (hnull rfl).elim
      · exact (hlist _ _ rfl).elim
      · rfl
    rw [idOf?_eq_none htext, hwrite]
    exact ⟨[], (List.append_nil _).symm, .nil n⟩

theorem foldlM_readSlot_reads (hchain : table.ChainSpec chain)
    (hinline : table.InlineSpec inline inlined) {slots : List (String × Value)}
    (h : ((slots.foldlM (fun inputs s => table.readSlot chain inline s.1 s.2 inputs)
      inputs : Reading _).run n).result = .ok (inputs', m))
    (hnodup : (inputs.map (·.1) ++ (slots.flatMap fun s => table.slotWrite inlined s.1 s.2).map
        (·.1)).Nodup) :
    ∃ added, inputs' = inputs ++ added ∧ table.Reads (slots.filterMap fun s => idOf? s.2)
      (slots.flatMap fun s => table.slotWrite inlined s.1 s.2) added n m := by
  induction slots generalizing inputs n with
  | nil =>
    obtain ⟨rfl, rfl⟩ := Reading.pure_eq_ok h
    exact ⟨[], (List.append_nil _).symm, .nil n⟩
  | cons s rest ih =>
    rw [List.foldlM_cons] at h
    obtain ⟨middle, k, hfirst, h⟩ := Reading.bind_eq_ok h
    rw [List.flatMap_cons, List.map_append, ← List.append_assoc] at hnodup
    obtain ⟨added, rfl, hread⟩ := readSlot_reads hchain hinline hfirst hnodup.of_append_left
    rw [← hread.names_eq, ← List.map_append] at hnodup
    obtain ⟨added', rfl, hread'⟩ := ih h hnodup
    refine ⟨added ++ added', List.append_assoc .., ?_⟩
    have hrefs : ((s :: rest).filterMap fun s => idOf? s.2) =
        (idOf? s.2).toList ++ rest.filterMap fun s => idOf? s.2 := by
      rw [List.filterMap_cons]
      cases idOf? s.2 with
      | none => rfl
      | some id => rfl
    rw [hrefs, List.flatMap_cons]
    exact hread.append hread'

/-- The active contents of slots can be looked up before the slots are read. -/
theorem foldlM_active {f : List (String × Input) → String → Value → Reading (List (String × Input))}
    {slots : List (String × Value)} (h : ((slots.foldlM (fun inputs (s : String × Value) => do
      f inputs s.1 (← s.2.itemOrNull 1)) inputs : Reading _).run n).result = .ok (inputs', m)) :
    (((slots.filterMap fun s => (s.2.itemOrNull 1).toOption.map (s.1, ·)).foldlM
      (fun inputs s => f inputs s.1 s.2) inputs : Reading _).run n).result = .ok (inputs', m) := by
  induction slots generalizing inputs n with
  | nil => exact h
  | cons s rest ih =>
    rw [List.foldlM_cons] at h
    obtain ⟨middle, k, hfirst, h⟩ := Reading.bind_eq_ok h
    obtain ⟨content, hcontent, hfirst⟩ := Reading.lift_bind_eq_ok hfirst
    rw [List.filterMap_cons, hcontent]
    show ((List.foldlM _ inputs ((s.1, content) :: _) : Reading _).run n).result = _
    rw [List.foldlM_cons, Reading.bind_of_ok hfirst]
    exact ih h

theorem readSlots_reads (hchain : table.ChainSpec chain) (hinline : table.InlineSpec inline inlined)
    {entry : Value}
    (h : ((table.readSlots chain inline entry inputs).run n).result = .ok (inputs', m))
    (hnodup : (inputs.map (·.1) ++ ((slotsOf entry).flatMap fun s =>
      table.slotWrite inlined s.1 s.2).map (·.1)).Nodup) :
    ∃ added, inputs' = inputs ++ added ∧ table.Reads (slotIds entry)
      ((slotsOf entry).flatMap fun s => table.slotWrite inlined s.1 s.2) added n m := by
  unfold readSlots at h
  obtain ⟨content, hcontent, h⟩ := Reading.lift_bind_eq_ok h
  obtain ⟨slots, hslots, h⟩ := Reading.lift_bind_eq_ok h
  rw [slotIds]
  unfold slotsOf at hnodup ⊢
  rw [rawSlots_eq hcontent hslots] at hnodup ⊢
  exact foldlM_readSlot_reads hchain hinline
    (foldlM_active (f := fun inputs slot v => table.readSlot chain inline slot v inputs) h) hnodup

end

/-! ### Fields, prototypes and calls -/

theorem field?_ne {op : Opcode} {field word : String} (h : op.field? = some (field, word)) :
    word ≠ "customBlockInputValues" := by
  unfold Opcode.field? at h
  split at h <;> cases h <;> decide

theorem fieldKind_ne (kind : BlockKind) (name : String) :
    fieldKind kind name ≠ "customBlockInputValues" := by
  unfold fieldKind
  split
  · split
    · next hfield =>
      split
      · exact field?_ne hfield
      · decide
    · decide
  · decide

theorem fieldInput_blockless {word : String} (hword : word ≠ "customBlockInputValues")
    {content : Value} {x : Input} (h : fieldInput word content = .ok x) : x.Blockless := by
  unfold fieldInput at h
  dsimp only at h
  split_ifs at h
  · obtain ⟨id, -, h⟩ := Outcome.bind_eq_ok.1 h
    obtain ⟨name, -, h⟩ := Outcome.bind_eq_ok.1 h
    cases h
    exact .reference ..
  · obtain ⟨id, -, h⟩ := Outcome.bind_eq_ok.1 h
    obtain ⟨name, -, h⟩ := Outcome.bind_eq_ok.1 h
    cases h
    exact .reference ..
  · obtain ⟨w, -, h⟩ := Outcome.bind_eq_ok.1 h
    cases h
    exact .plain hword w

theorem mapM_fieldInput_blockless {kind : BlockKind} {fields : List (String × Value)}
    {added : List (String × Input)}
    (h : (fields.mapM fun (name, content) => do
      return (name, ← fieldInput (fieldKind kind name) content)) = .ok added) :
    added.map (·.1) = fields.map (·.1) ∧ ∀ e ∈ added, e.2.Blockless := by
  induction fields generalizing added with
  | nil =>
    cases h
    exact ⟨rfl, nofun⟩
  | cons field rest ih =>
    rw [List.mapM_cons] at h
    obtain ⟨e, he, h⟩ := Outcome.bind_eq_ok.1 h
    obtain ⟨later, hlater, h⟩ := Outcome.bind_eq_ok.1 h
    obtain ⟨x, hx, he⟩ := Outcome.bind_eq_ok.1 he
    cases he
    cases h
    obtain ⟨hkeys, hblockless⟩ := ih hlater
    refine ⟨?_, List.forall_mem_cons.2 ⟨fieldInput_blockless (fieldKind_ne _ _) hx, hblockless⟩⟩
    rw [List.map_cons, hkeys, List.map_cons]

theorem fieldInputs_blockless {entry : Value} {added : List (String × Input)}
    (h : fieldInputs entry = .ok added) :
    added.map (·.1) = fieldNames entry ∧ ∀ e ∈ added, e.2.Blockless := by
  unfold fieldInputs at h
  obtain ⟨label, -, h⟩ := Outcome.bind_eq_ok.1 h
  obtain ⟨key, -, h⟩ := Outcome.bind_eq_ok.1 h
  obtain ⟨content, hcontent, h⟩ := Outcome.bind_eq_ok.1 h
  obtain ⟨fields, hfields, h⟩ := Outcome.bind_eq_ok.1 h
  have hnames : fieldNames entry = fields.map (·.1) := by
    unfold fieldNames
    rw [hcontent]
    show (content.fields.toOption.getD []).map _ = _
    rw [hfields]
    rfl
  rw [hnames]
  exact mapM_fieldInput_blockless h

theorem prototypeInputs_blockless {mutation : Value} {added : List (String × Input)}
    (h : prototypeInputs mutation = .ok added) :
    added.map (·.1) = ["PROCCODE", "ARGUMENTS", "WARP"] ∧ ∀ e ∈ added, e.2.Blockless := by
  unfold prototypeInputs at h
  obtain ⟨code, -, h⟩ := Outcome.bind_eq_ok.1 h
  obtain ⟨names, -, h⟩ := Outcome.bind_eq_ok.1 h
  obtain ⟨defaults, -, h⟩ := Outcome.bind_eq_ok.1 h
  split at h
  · obtain ⟨warp, -, h⟩ := Outcome.bind_eq_ok.1 h
    cases h
    refine ⟨rfl, ?_⟩
    simp only [List.forall_mem_cons]
    exact ⟨.plain (by decide) _, .arguments _, .plain (by decide) _, nofun⟩
  · cases h

theorem asKey_eq {v key : Value} (h : v.asKey = .ok key) : key = v := by
  unfold Value.asKey at h
  split_ifs at h
  cases h
  rfl

theorem callArgument_shown {inputs : List (String × Input)} {id : Value} {x : Input}
    (h : callArgument inputs id = .ok x) (hfine : ∀ e ∈ inputs, e.2.walkFault? = none) :
    x.shown = (idOf? id).toList.flatMap (shownAt inputs) ∧ x.walkFault? = none := by
  have hnull : (Input.plain "string" .null).Blockless := .plain (by decide) _
  unfold callArgument at h
  obtain ⟨key, hkey, hx⟩ := Outcome.bind_eq_ok.1 h
  cases asKey_eq hkey
  split at hx
  · next s =>
    cases hx
    rw [idOf?, Option.toList_some, List.flatMap_singleton, shownAt]
    cases hlookup : inputs.lookup s with
    | none => exact ⟨hnull.shown, hnull.fine⟩
    | some x => exact ⟨rfl, hfine _ (Assoc.mem_of_lookup hlookup)⟩
  · next htext =>
    cases hx
    rw [idOf?_eq_none htext]
    exact ⟨hnull.shown, hnull.fine⟩

theorem mapM_callArgument_shown {inputs : List (String × Input)} {ids : List Value}
    {values : List Input} (h : ids.mapM (callArgument inputs) = .ok values)
    (hfine : ∀ e ∈ inputs, e.2.walkFault? = none) :
    values.flatMap Input.shown = (ids.filterMap idOf?).flatMap (shownAt inputs) ∧
      ∀ x ∈ values, x.walkFault? = none := by
  induction ids generalizing values with
  | nil =>
    cases h
    exact ⟨rfl, nofun⟩
  | cons id rest ih =>
    rw [List.mapM_cons] at h
    obtain ⟨x, hx, h⟩ := Outcome.bind_eq_ok.1 h
    obtain ⟨later, hlater, h⟩ := Outcome.bind_eq_ok.1 h
    cases h
    obtain ⟨hfirst, hxfine⟩ := callArgument_shown hx hfine
    obtain ⟨hrest, hlaterfine⟩ := ih hlater
    refine ⟨?_, List.forall_mem_cons.2 ⟨hxfine, hlaterfine⟩⟩
    rw [List.flatMap_cons, hfirst, hrest, List.filterMap_cons]
    cases idOf? id with
    | none => rfl
    | some s => simp

/-- A call shows what it holds under the names that it lists. -/
theorem callInputs_nested {entry : Value} {inputs passed : List (String × Input)}
    (h : callInputs entry inputs = .ok passed) (hfine : ∀ e ∈ inputs, e.2.walkFault? = none) :
    nestedInputs passed = (argumentNames entry).flatMap (shownAt inputs) ∧
    inputsWalkFault? passed = none := by
  unfold callInputs at h
  obtain ⟨mutation, hmutation, h⟩ := Outcome.bind_eq_ok.1 h
  obtain ⟨ids, hids, h⟩ := Outcome.bind_eq_ok.1 h
  obtain ⟨values, hvalues, h⟩ := Outcome.bind_eq_ok.1 h
  obtain ⟨code, -, h⟩ := Outcome.bind_eq_ok.1 h
  cases h
  have hnames : argumentNames entry = ids.filterMap idOf? := by
    unfold argumentNames
    rw [hmutation]
    show ((jsonMembers mutation "argumentids").toOption.getD []).filterMap idOf? = _
    rw [hids]
    rfl
  obtain ⟨hshown, hvaluesfine⟩ := mapM_callArgument_shown hvalues hfine
  constructor
  · rw [hnames, ← hshown, ← nestedItems_eq_flatMap]
    simp [nestedInputs, Input.nested]
  · simp [inputsWalkFault?, Input.walkFault?, itemsWalkFault?_eq_none hvaluesfine]

/-! ### Budgets -/

theorem Reads.exists_write {refs : List String} {ws : List Write} {added : List (String × Input)}
    {n m : Nat} (h : table.Reads refs ws added n m) {e : String × Input} (he : e ∈ added) :
    ∃ w ∈ ws, w.1 = e.1 ∧ table.Made w.1 w.2 e.2 := by
  obtain ⟨-, hmade, -, -⟩ := h
  induction hmade with
  | nil => cases he
  | @cons w _ _ _ hfirst _ ih =>
    rcases List.mem_cons.1 he with rfl | he
    · exact ⟨w, List.mem_cons_self .., hfirst⟩
    · obtain ⟨w', hw', hmade⟩ := ih he
      exact ⟨w', List.mem_cons_of_mem _ hw', hmade⟩

/-- The inputs of a call show the same blocks as those that it read. -/
theorem Reads.perm_call (hwritten : table.WellWritten) (hstacks : table.NoStackArguments)
    {id : String} {entry : Value} (hcall : (id, entry) ∈ table.callEntries) {depth n m : Nat}
    (hdepth : depth ≤ table.budget) {refs : List String} {inputs : List (String × Input)}
    (h : table.Reads refs (table.slotWrites depth entry ++ (fieldNames entry).map (·, none)) inputs
      n m)
    (hnodup : (inputs.map (·.1)).Nodup) :
    ((argumentNames entry).flatMap (shownAt inputs)).Perm (inputs.flatMap fun e => e.2.nested) := by
  have hcases (e : String × Input) (he : e ∈ inputs) : e.2.Blockless ∨
      (e.2.shown = e.2.nested ∧ (argumentNames entry).count e.1 = 1) := by
    obtain ⟨⟨slot, written⟩, hw, hslot, hmade⟩ := h.exists_write he
    cases hslot
    cases written with
    | none => exact .inl hmade
    | some content =>
      have hin : (e.1, some content) ∈ table.slotWrites table.budget entry := by
        rcases List.mem_append.1 hw with hw | hw
        · exact (slotWrites_sublist hdepth entry).subset hw
        · obtain ⟨name, -, hname⟩ := List.mem_map.1 hw
          cases hname
      refine .inr ⟨?_, hwritten.passes _ hcall _ hin rfl⟩
      cases content with
      | text below =>
        obtain ⟨blocks, hx, hobject, hlong⟩ := hmade
        rw [hx]
        refine chainInput_shown (fun hne => ?_) fun hlength => ?_
        · exact hstacks _ hcall _ hin below rfl (hobject hne)
        · exact absurd (hlong hlength) (by rw [hwritten.single _ hcall _ hin below rfl]; decide)
      | _ => exact hmade
  have hshown (e : String × Input) (he : e ∈ inputs) : e.2.shown = e.2.nested := by
    rcases hcases e he with hblockless | ⟨heq, -⟩
    · rw [hblockless.shown, hblockless.nested]
    · exact heq
  rw [← List.flatMap_congr hshown]
  exact perm_passed hnodup fun e he => (hcases e he).imp (·.shown) (·.2)

theorem hasKind_eq {entry label : Value} (h : entry.require "opcode" = .ok label) (op : Opcode) :
    hasKind op entry = (BlockKind.ofLabel label).is op := by
  rw [hasKind, h]

theorem slots_fields_reads {budget : Nat} (hchain : table.ChainSpec (table.chain budget))
    (hinline : table.InlineSpec (table.inline budget) (table.inlineWrites budget)) {entry : Value}
    {inputs middle fields : List (String × Input)} {n m : Nat}
    (hslots : ((table.readSlots (table.chain budget) (table.inline budget) entry inputs).run
      n).result = .ok (middle, m))
    (hfields : fieldInputs entry = .ok fields)
    (hnodup : (inputs.map (·.1) ++
        ((table.slotWrites budget entry).map (·.1) ++ fieldNames entry)).Nodup) :
    ∃ added, Assoc.update middle fields = inputs ++ added ∧ table.Reads (slotIds entry)
      (table.slotWrites budget entry ++ (fieldNames entry).map (·, none)) added n m := by
  rw [← List.append_assoc] at hnodup
  obtain ⟨added, rfl, hread⟩ := readSlots_reads hchain hinline hslots hnodup.of_append_left
  obtain ⟨hkeys, hblockless⟩ := fieldInputs_blockless hfields
  have hfieldsRead : table.Reads [] ((fields.map (·.1)).map (·, none)) fields m m :=
    .blockless hblockless m
  rw [hkeys] at hfieldsRead
  refine ⟨added ++ fields, ?_, ?_⟩
  · rw [← List.append_assoc]
    refine Assoc.update_of_nodup ?_
    rw [List.map_append, List.map_append, hread.names_eq, hkeys]
    exact hnodup
  · rw [← List.append_nil (slotIds entry)]
    exact hread.append hfieldsRead

theorem inlineSpec_succ {budget : Nat} (hchain : table.ChainSpec (table.chain budget))
    (hinline : table.InlineSpec (table.inline budget) (table.inlineWrites budget)) :
    table.InlineSpec (table.inline (budget + 1)) (table.inlineWrites (budget + 1)) := by
  intro id shadow inputs n inputs' m hshadow h hnodup
  rw [inline] at h
  obtain ⟨label, hlabel, h⟩ := Reading.lift_bind_eq_ok h
  dsimp only at h
  rw [← hasKind_eq hlabel] at h
  rw [inlineWrites] at hnodup ⊢
  split_ifs at h hnodup ⊢ with hkind
  · -- A prototype describes its parent and is not followed.
    obtain ⟨mutation, -, h⟩ := Reading.lift_bind_eq_ok h
    obtain ⟨added, hadded, h⟩ := Reading.lift_bind_eq_ok h
    obtain ⟨rfl, rfl⟩ := Reading.pure_eq_ok h
    obtain ⟨hkeys, hblockless⟩ := prototypeInputs_blockless hadded
    have hread : table.Reads [] ((added.map (·.1)).map (·, none)) added n n :=
      .blockless hblockless n
    rw [hkeys] at hread
    refine ⟨added, Assoc.update_of_nodup ?_, hread.retrace fun all kept htrace => ?_⟩
    · rw [List.map_append, hkeys]
      exact hnodup
    · cases htrace
      exact ⟨_, .prototype hshadow hkind .nil⟩
  · obtain ⟨middle, k, hslots, h⟩ := Reading.bind_eq_ok h
    obtain ⟨fields, hfields, h⟩ := Reading.lift_bind_eq_ok h
    obtain ⟨rfl, rfl⟩ := Reading.pure_eq_ok h
    rw [List.map_append, List.map_map, Function.comp_def, List.map_id'] at hnodup
    obtain ⟨added, hupdate, hread⟩ := slots_fields_reads hchain hinline hslots hfields hnodup
    refine ⟨added, hupdate, hread.retrace fun all kept htrace => ?_⟩
    have hids : idsIn shadow = slotIds shadow := by
      rw [idsIn, nextIds_of_shadow? hshadow, List.append_nil]
    rw [← hids] at htrace
    have hinlined := Trace.inlined hshadow htrace .nil
    rw [List.append_nil kept] at hinlined
    exact ⟨_, hinlined⟩

theorem entry?_eq_none {v : Value} (h : table.entry? v = none) (id : String) (hid : v = .text id) :
    table.object? id = none := by
  subst hid
  unfold entry? at h
  unfold object?
  cases hlookup : table.entries.lookup id with
  | none => rfl
  | some entry =>
    dsimp only at h
    rw [hlookup] at h
    cases entry with
    | record fields => cases h
    | _ => rfl

theorem entry?_eq_some {v entry : Value} {id : String} (h : table.entry? v = some (id, entry)) :
    v = .text id ∧ table.object? id = some entry := by
  unfold entry? at h
  split at h
  · split at h
    · next hlookup =>
      cases h
      refine ⟨rfl, ?_⟩
      rw [object?, hlookup]
    · cases h
  · cases h

theorem chainSpec_succ (hwritten : table.WellWritten) (hstacks : table.NoStackArguments)
    {budget : Nat} (hbudget : budget ≤ table.budget) (hchain : table.ChainSpec (table.chain budget))
    (hinline : table.InlineSpec (table.inline budget) (table.inlineWrites budget)) :
    table.ChainSpec (table.chain (budget + 1)) := by
  intro v n blocks m hblock h
  by_cases hnull : v = .null
  · subst hnull
    rw [chain] at h
    obtain ⟨rfl, rfl⟩ := Reading.pure_eq_ok h
    exact .nil (fun id hid => by cases hid) n
  rw [chain] at h
  swap
  · exact hnull
  obtain ⟨key, hkey, hrun⟩ := Reading.lift_bind_eq_ok h
  cases asKey_eq hkey
  split at hrun
  · next hentry =>
    obtain ⟨_, k, htrace, hend⟩ := Reading.bind_eq_ok hrun
    obtain ⟨rfl, rfl⟩ := Reading.pure_eq_ok hend
    cases htrace
    exact .nil (entry?_eq_none hentry) n
  · next id entry hentry =>
    obtain ⟨rfl, hid⟩ := entry?_eq_some hentry
    have hkept := hblock id entry rfl hid
    obtain ⟨label, hlabel, hrun⟩ := Reading.lift_bind_eq_ok hrun
    dsimp only at hrun
    obtain ⟨middle, k, hslots, hrun⟩ := Reading.bind_eq_ok hrun
    obtain ⟨fields, hfields, hrun⟩ := Reading.lift_bind_eq_ok hrun
    have hnames : ((table.slotWrites budget entry).map (·.1) ++ fieldNames entry).Nodup :=
      (hwritten.names _ hkept).sublist
        (((slotWrites_sublist hbudget entry).map _).append (.refl _))
    obtain ⟨inputs, hupdate, hread⟩ := slots_fields_reads hchain hinline hslots hfields hnames
    rw [List.nil_append] at hupdate
    rw [hupdate, ← hasKind_eq hlabel] at hrun
    obtain ⟨all, kept, htrace, hperm⟩ := hread.walked
    -- What follows is the same for a call, which passes its inputs, and any other block, which
    -- keeps them.
    have htail {held : List (String × Input)} (hfine : inputsWalkFault? held = none)
        (hheld : (nestedInputs held).Perm (inputs.flatMap fun e => e.2.nested))
        (hrun : ((do
          let rest ← table.chain budget (← entry.get "next" .null)
          return .mk (BlockKind.ofLabel label) held id :: rest :
            Reading (List Block)).run k).result =
            .ok (blocks, m)) :
        table.ChainReads (.text id) blocks n m := by
      obtain ⟨next, hnext, hrun⟩ := Reading.lift_bind_eq_ok hrun
      obtain ⟨rest, k', hrest, hrun⟩ := Reading.bind_eq_ok hrun
      obtain ⟨rfl, rfl⟩ := Reading.pure_eq_ok hrun
      refine .cons hid hread.le hfine ⟨all, kept, htrace,
        (hheld.map _).trans hperm⟩ hnext (hchain _ _ _ _ ?_ hrest)
      rintro below entry' rfl hentry'
      refine mem_blockEntries hentry' (.inr ⟨(id, entry), mem_entries_of_object? hid, ?_⟩)
      rw [nextIds, hnext]
      exact List.mem_singleton.2 rfl
    split_ifs at hrun with hcall
    · obtain ⟨passed, hpassed, hrun⟩ := Reading.lift_bind_eq_ok hrun
      obtain ⟨hnested, hfine⟩ := callInputs_nested hpassed hread.fine
      refine htail hfine ?_ hrun
      rw [hnested]
      refine hread.perm_call hwritten hstacks (List.mem_filter.2 ⟨hkept, hcall⟩) hbudget ?_
      rw [hread.names_eq, List.map_append, List.map_map, Function.comp_def, List.map_id']
      exact hnames
    · refine htail (inputsWalkFault?_eq_none.2 hread.fine) ?_ hrun
      rw [nestedInputs_eq_flatMap]

/-- Whatever the budget, what is read is what the trace keeps. -/
theorem reads_of_budget (hwritten : table.WellWritten) (hstacks : table.NoStackArguments)
    {budget : Nat} (hbudget : budget ≤ table.budget) : table.ChainSpec (table.chain budget) ∧
      table.InlineSpec (table.inline budget) (table.inlineWrites budget) := by
  induction budget with
  | zero =>
    constructor
    · intro v n blocks m _ h
      cases v with
      | null =>
        rw [chain] at h
        obtain ⟨rfl, rfl⟩ := Reading.pure_eq_ok h
        exact .nil (fun id hid => by cases hid) n
      | _ => cases h
    · intro id shadow inputs n inputs' m _ h
      cases h
  | succ budget ih =>
    obtain ⟨hchain, hinline⟩ := ih (Nat.le_of_succ_le hbudget)
    exact ⟨chainSpec_succ hwritten hstacks (Nat.le_of_succ_le hbudget) hchain hinline,
      inlineSpec_succ hchain hinline⟩

end Blocks

end ScratchExport.Archive
