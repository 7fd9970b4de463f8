import ScratchExport.Name.Table
import ScratchExport.Proofs.Assoc
import ScratchExport.Proofs.Calls
import ScratchExport.Proofs.Identifier

/-!
# The names of a project do not collide

`Clear seed names`: the names are pairwise distinct identifiers and none is in `seed`. It is what a
space seeded with `seed` keeps up while it hands names out (`Held`), whatever the candidates
normalise to, so each kind of name of a project is clear of its reserved names: classes, properties,
methods with second methods, and parameters.

A property belongs to an id and a parameter to an argument's name. `Assigns seed keys m` says that
the map `m` has an entry for exactly these keys, that its values are clear of `seed`, and that two
keys never share a value. A repeated id takes a further property and gives up its earlier one, which
is not handed out again.
-/

namespace ScratchExport.Name

variable {seed names : List String} {space : Space}

/-- Pairwise distinct identifiers, none of them reserved. -/
structure Clear (seed names : List String) : Prop where
  nodup : names.Nodup
  unreserved : ∀ name ∈ names, name ∉ seed
  identifier : ∀ name ∈ names, IsIdentifier name

/-- A space that was seeded with `seed` and has handed out `names`, and perhaps more. -/
structure Held (seed : List String) (space : Space) (names : List String) : Prop where
  clear : Clear seed names
  seed_taken : ∀ name ∈ seed, name ∈ space.taken
  taken : ∀ name ∈ names, name ∈ space.taken

theorem Held.init (seed : List String) : Held seed ⟨seed⟩ [] :=
  ⟨⟨by simp, by simp, by simp⟩, fun _ h => h, by simp⟩

/-- The next name that a space hands out may be put anywhere among the names. -/
theorem Held.allocate {candidate : String} {more : List String} (h : Held seed space names)
    (hc : IsIdentifier candidate) (hnodup : more.Nodup)
    (hmore : ∀ name ∈ more, name = (space.allocate candidate).1 ∨ name ∈ names) :
    Held seed (space.allocate candidate).2 more := by
  have hfresh := space.allocate_not_mem candidate
  refine ⟨⟨hnodup, fun name hname => ?_, fun name hname => ?_⟩, fun name hname => ?_,
    fun name hname => ?_⟩
  · rcases hmore name hname with rfl | hname
    · exact fun hseed => hfresh (h.seed_taken _ hseed)
    · exact h.clear.unreserved name hname
  · rcases hmore name hname with rfl | hname
    · exact space.allocate_induction (P := IsIdentifier) (fun _ => isIdentifier_nextVariant) hc
    · exact h.clear.identifier name hname
  · rw [Space.allocate_taken]; exact List.mem_cons_of_mem _ (h.seed_taken name hname)
  · rw [Space.allocate_taken, List.mem_cons]
    exact (hmore name hname).imp_right (h.taken name)

theorem Held.not_mem {candidate : String} (h : Held seed space names) :
    (space.allocate candidate).1 ∉ names :=
  fun hin => space.allocate_not_mem candidate (h.taken _ hin)

/-- What a space hands out in one go, and then in another, is clear of its seed. -/
theorem clear_allocateAll_append {first second : List String} (h1 : ∀ c ∈ first, IsIdentifier c)
    (h2 : ∀ c ∈ second, IsIdentifier c) : Clear seed ((Space.allocateAll ⟨seed⟩ first).1 ++
      ((Space.allocateAll ⟨seed⟩ first).2.allocateAll second).1) := by
  obtain ⟨hnodup1, hfresh1⟩ := Space.allocateAll_fresh ⟨seed⟩ first
  obtain ⟨hnodup2, hfresh2⟩ := (Space.allocateAll ⟨seed⟩ first).2.allocateAll_fresh second
  have htaken := fun name hname =>
    mt (Space.mem_allocateAll_taken ⟨seed⟩ first name).2 (hfresh2 name hname)
  refine ⟨?_, fun name hname => ?_, fun name hname => ?_⟩
  · rw [List.nodup_append']
    exact ⟨hnodup1, hnodup2, fun name h h' => htaken name h' (.inl h)⟩
  · rcases List.mem_append.1 hname with hname | hname
    · exact hfresh1 name hname
    · exact fun hseed => htaken name hname (.inr hseed)
  · rcases List.mem_append.1 hname with hname | hname
    · exact Space.allocateAll_induction (P := IsIdentifier)
        (fun _ => isIdentifier_nextVariant) _ h1 name hname
    · exact Space.allocateAll_induction (P := IsIdentifier)
        (fun _ => isIdentifier_nextVariant) _ h2 name hname

/-- A map from exactly the keys with `keys` to names that are clear of `seed`, no name for
two keys. -/
structure Assigns (seed : List String) (keys : String → Prop) (m : List (String × String)) :
    Prop where
  keys_iff : ∀ key, (∃ name, m.lookup key = some name) ↔ keys key
  clear : Clear seed (m.map (·.2))
  injective : ∀ key key' name, m.lookup key = some name → m.lookup key' = some name → key = key'

theorem Assigns.mk' {keys : String → Prop} {m : List (String × String)}
    (hkeys : ∀ key, (∃ name, m.lookup key = some name) ↔ keys key)
    (hclear : Clear seed (m.map (·.2))) : Assigns seed keys m :=
  ⟨hkeys, hclear, fun _ _ _ h h' => Assoc.eq_of_lookup_eq hclear.nodup h h'⟩

theorem candidate_eq_ok {name : Value} {upper : Bool} {c : String} :
    candidate name upper = .ok c ↔ ∃ s, name = .text s ∧ c = camelCase s upper := by
  unfold candidate
  rw [Outcome.bind_eq_ok]
  constructor
  · rintro ⟨s, hs, h⟩
    rw [Outcome.pure_eq_ok] at h
    cases name <;> cases hs
    exact ⟨s, rfl, h.symm⟩
  · rintro ⟨s, rfl, rfl⟩
    exact ⟨s, rfl, rfl⟩

theorem isIdentifier_candidate {name : Value} {upper : Bool} {c : String}
    (h : candidate name upper = .ok c) : IsIdentifier c := by
  obtain ⟨s, -, rfl⟩ := candidate_eq_ok.1 h
  exact isIdentifier_camelCase s upper

/-! ### Properties and parameters -/

theorem lookup_set_isSome {m : List (String × String)} {k a key : String} :
    (∃ name, (Assoc.set k a m).lookup key = some name) ↔
      key = k ∨ ∃ name, m.lookup key = some name := by
  rw [Assoc.lookup_set]
  by_cases hk : key = k <;> simp [hk]

theorem lookup_concat_isSome {m : List (String × String)} {k a key : String} :
    (∃ name, (m ++ [(k, a)]).lookup key = some name) ↔
      (∃ name, m.lookup key = some name) ∨ key = k := by
  rw [List.lookup_append, Assoc.lookup_cons_eq]
  cases m.lookup key <;> simp

theorem assignData_spec {data result : List (String × String)} {entries : List (String × Value)}
    (hdata : Held seed space (data.map (·.2))) (h : assignData space data entries = .ok result) :
    Clear seed (result.map (·.2)) ∧ ∀ key, (∃ name, result.lookup key = some name) ↔
      (∃ name, data.lookup key = some name) ∨ key ∈ entries.map (·.1) := by
  induction entries generalizing space data with
  | nil => cases h; exact ⟨hdata.clear, by simp⟩
  | cons entry rest ih =>
    obtain ⟨id, name⟩ := entry
    obtain ⟨c, hc, h⟩ := Outcome.bind_eq_ok.1 h
    have hheld : Held seed (space.allocate c).2
        ((Assoc.set id (space.allocate c).1 data).map (·.2)) :=
      hdata.allocate (isIdentifier_candidate hc)
        (Assoc.nodup_values_set hdata.clear.nodup hdata.not_mem)
        fun _ hin => Assoc.mem_values_set hin
    obtain ⟨hclear, hkeys⟩ := ih hheld h
    refine ⟨hclear, fun key => ?_⟩
    rw [hkeys, lookup_set_isSome, List.map_cons, List.mem_cons]
    tauto

/-- The argument takes a value of the given name. -/
def IsSlot (key : String) (a : Argument) : Prop :=
  a.kind ≠ .label ∧ a.name = .text key

theorem asName_asKey {v : Value} {k : Value} {s : String} (hk : v.asKey = .ok k)
    (hs : k.asName = .ok s) : v = .text s := by
  unfold Value.asKey at hk
  split at hk
  · cases hk
    cases v <;> cases hs
    rfl
  · cases hk

theorem assignParams_spec {params result : List (String × String)} {arguments : List Argument}
    (hparams : Held seed space (params.map (·.2)))
    (h : assignParams space params arguments = .ok result) :
    Clear seed (result.map (·.2)) ∧ ∀ key, (∃ name, result.lookup key = some name) ↔
      (∃ name, params.lookup key = some name) ∨ ∃ a ∈ arguments, IsSlot key a := by
  induction arguments generalizing space params with
  | nil => cases h; exact ⟨hparams.clear, by simp⟩
  | cons a rest ih =>
    rw [assignParams] at h
    by_cases hlabel : a.kind = .label
    · simp only [hlabel, beq_self_eq_true, ↓reduceIte] at h
      obtain ⟨hclear, hkeys⟩ := ih hparams h
      exact ⟨hclear, fun key => by rw [hkeys]; simp [IsSlot, hlabel]⟩
    · simp only [beq_iff_eq, hlabel, if_false] at h
      obtain ⟨k, hk, h⟩ := Outcome.bind_eq_ok.1 h
      obtain ⟨name, hname, h⟩ := Outcome.bind_eq_ok.1 h
      have ha : ∀ key, IsSlot key a ↔ key = name := by
        intro key
        rw [IsSlot, asName_asKey hk hname, Value.text.injEq]
        exact ⟨fun h => h.2.symm, fun h => ⟨hlabel, h.symm⟩⟩
      by_cases hseen : (params.lookup name).isSome = true
      · simp only [hseen, ↓reduceIte] at h
        obtain ⟨hclear, hkeys⟩ := ih hparams h
        refine ⟨hclear, fun key => ?_⟩
        rw [hkeys, List.exists_mem_cons_iff, ha]
        obtain ⟨param, hparam⟩ := Option.isSome_iff_exists.1 hseen
        constructor
        · exact fun h => h.imp_right .inr
        · rintro (h | rfl | h)
          exacts [.inl h, .inl ⟨param, hparam⟩, .inr h]
      · simp only [hseen] at h
        have hheld : Held seed (space.allocate (camelCase name false)).2
            ((params ++ [(name, (space.allocate (camelCase name false)).1)]).map (·.2)) := by
          refine hparams.allocate (isIdentifier_camelCase name false) ?_ fun other hin => ?_
          · rw [List.map_append, List.nodup_append']
            refine ⟨hparams.clear.nodup, by simp, ?_⟩
            simpa using hparams.not_mem
          · rw [List.map_append, List.mem_append] at hin
            exact hin.symm.imp_left (by simp)
        obtain ⟨hclear, hkeys⟩ := ih hheld h
        refine ⟨hclear, fun key => ?_⟩
        rw [hkeys, List.exists_mem_cons_iff, ha, lookup_concat_isSome]
        tauto

/-! ### Targets -/

/-- The ids of a target's lists and variables. -/
def IsDataId (t : Target) (id : String) : Prop :=
  (∃ l ∈ t.lists, l.id = id) ∨ ∃ v ∈ t.vars, v.id = id

/-- The parameters of a script: one for each name among the arguments that it declares. -/
def ParamsFree (s : Script) (params : List (String × String)) : Prop :=
  ∃ arguments, s.arguments = .ok arguments ∧
    Assigns parameterSeed (fun key => ∃ a ∈ arguments, IsSlot key a) params

/-- The identifiers of a target, whose runtime class has the given members, do not collide. -/
structure TargetNames.CollisionFree (members : List String) (t : Target) (names : TargetNames) :
    Prop where
  data : Assigns variableSeed (IsDataId t) names.data
  /-- There is one method per script and one more per procedure that is reached without screen
  refresh. -/
  scripts_length : names.scripts.length = t.scripts.length
  variants : t.warpReachable = .ok (names.warpVariants.map (·.1))
  methods : Clear members (names.scripts ++ names.warpVariants.map (·.2))
  params : List.Forall₂ ParamsFree t.scripts names.params

theorem assignTarget_eq_ok {isStage : Bool} {className : String} {t : Target} {names : TargetNames}
    (h : assignTarget isStage className t = .ok names) :
    ∃ data candidates reachable params,
      assignData ⟨variableSeed⟩ [] (t.lists.map (fun l => (l.id, l.name)) ++ t.vars.map fun v =>
        (v.id, v.name))
        = .ok data ∧
      t.scripts.mapM (fun s => candidate s.name false) = .ok candidates ∧
      t.warpReachable = .ok reachable ∧
      t.scripts.mapM (fun s => do assignParams ⟨parameterSeed⟩ [] (← s.arguments)) = .ok params ∧
      names = ⟨t.name, className, data,
        (Space.allocateAll ⟨if isStage then stageMembers else spriteMembers⟩ candidates).1,
        reachable.zip
        ((Space.allocateAll ⟨if isStage then stageMembers else spriteMembers⟩
          candidates).2.allocateAll
          (reachable.map fun i => camelCase ((t.nameAt i).display ++ " warp") false)).1,
          params⟩ := by
  obtain ⟨data, hdata, h⟩ := Outcome.bind_eq_ok.1 h
  obtain ⟨candidates, hcandidates, h⟩ := Outcome.bind_eq_ok.1 h
  obtain ⟨reachable, hreachable, h⟩ := Outcome.bind_eq_ok.1 h
  obtain ⟨params, hparams, h⟩ := Outcome.bind_eq_ok.1 h
  exact ⟨data, candidates, reachable, params, hdata, hcandidates, hreachable, hparams,
    (Outcome.pure_eq_ok.1 h).symm⟩

theorem assignTarget_collisionFree {isStage : Bool} {className : String} {t : Target}
    {names : TargetNames} (h : assignTarget isStage className t = .ok names) :
    names.className = className ∧
      names.CollisionFree (if isStage then stageMembers else spriteMembers) t := by
  obtain ⟨data, candidates, reachable, params, hdata, hcandidates, hreachable, hparams, rfl⟩ :=
    assignTarget_eq_ok h
  set members := if isStage then stageMembers else spriteMembers
  set variants := reachable.map fun i => camelCase ((t.nameAt i).display ++ " warp") false
  have hlength : ((Space.allocateAll ⟨members⟩ candidates).2.allocateAll variants).1.length =
      reachable.length := by
    rw [Space.length_allocateAll, List.length_map]
  refine ⟨rfl, ?_, ?_, ?_, ?_, ?_⟩
  · obtain ⟨hclear, hkeys⟩ := assignData_spec (Held.init variableSeed) hdata
    refine .mk' (fun key => ?_) hclear
    rw [hkeys]
    simp [IsDataId]
  · rw [Space.length_allocateAll]; exact (Outcome.mapM_eq_ok hcandidates).length_eq.symm
  · show t.warpReachable = .ok ((reachable.zip _).map (·.1))
    rw [hreachable, List.map_fst_zip (by omega)]
  · show Clear members (_ ++ (reachable.zip _).map (·.2))
    rw [List.map_snd_zip (by omega)]
    refine clear_allocateAll_append (fun c hc => ?_) fun c hc => ?_
    · obtain ⟨s, -, hs⟩ := Outcome.mem_of_mapM_eq_ok hcandidates hc
      exact isIdentifier_candidate hs
    · obtain ⟨i, -, rfl⟩ := List.mem_map.1 hc
      exact isIdentifier_camelCase _ _
  · refine (Outcome.mapM_eq_ok hparams).imp fun s params h => ?_
    obtain ⟨arguments, harguments, h⟩ := Outcome.bind_eq_ok.1 h
    obtain ⟨hclear, hkeys⟩ := assignParams_spec (Held.init parameterSeed) h
    exact ⟨arguments, harguments, .mk' (fun key => by rw [hkeys]; simp) hclear⟩

/-- The names of targets, of which the first has the members of the stage if `isStage`. -/
def TargetsFree : Bool → List Target → List TargetNames → Prop
  | _, [], [] => True
  | isStage, t :: ts, names :: others =>
    names.CollisionFree (if isStage then stageMembers else spriteMembers) t ∧
      TargetsFree false ts others
  | _, _, _ => False

theorem assignTargets_collisionFree {isStage : Bool} {targets : List Target}
    {result : List TargetNames} {classes : List String} (hclasses : Held seed space classes)
    (h : assignTargets space isStage targets = .ok result) :
    Clear seed (classes ++ result.map (·.className)) ∧ TargetsFree isStage targets result := by
  induction targets generalizing space isStage result classes with
  | nil => cases h; exact ⟨by simpa using hclasses.clear, trivial⟩
  | cons t rest ih =>
    obtain ⟨c, hc, h⟩ := Outcome.bind_eq_ok.1 h
    obtain ⟨names, hnames, h⟩ := Outcome.bind_eq_ok.1 h
    obtain ⟨others, hothers, h⟩ := Outcome.bind_eq_ok.1 h
    rw [Outcome.pure_eq_ok] at h; subst h
    obtain ⟨hname, hfree⟩ := assignTarget_collisionFree hnames
    have hheld : Held seed (space.allocate c).2 (classes ++ [(space.allocate c).1]) := by
      refine hclasses.allocate (isIdentifier_candidate hc) ?_ fun other hin => ?_
      · rw [List.nodup_append']
        exact ⟨hclasses.clear.nodup, by simp, by simpa using hclasses.not_mem⟩
      · exact (List.mem_append.1 hin).symm.imp_left (by simp)
    obtain ⟨hclear, hrest⟩ := ih hheld hothers
    have hname : names.className = (space.allocate c).1 := hname
    refine ⟨?_, hfree, hrest⟩
    rw [List.map_cons, hname]
    rwa [List.append_assoc] at hclear

/-! ### Projects -/

/-- The identifiers of a project do not collide in any of their name spaces. -/
structure Table.CollisionFree (p : Project) (table : Table) : Prop where
  classes : Clear classSeed (table.targets.map (·.className))
  targets : TargetsFree true p.targets table.targets

theorem Table.collisionFree_of_assign {p : Project} {table : Table} (h : assign p = .ok table) :
    table.CollisionFree p := by
  obtain ⟨result, hresult, h⟩ := Outcome.bind_eq_ok.1 h
  rw [Outcome.pure_eq_ok] at h; subst h
  obtain ⟨hclear, hfree⟩ := assignTargets_collisionFree (Held.init classSeed) hresult
  exact ⟨hclear, hfree⟩

/-- All names that identifiers are made of are texts. -/
def NamesAreText (p : Project) : Prop :=
  ∀ t ∈ p.targets, (∃ s, t.name = .text s) ∧ (∀ l ∈ t.lists, ∃ s, l.name = .text s) ∧
    (∀ v ∈ t.vars, ∃ s, v.name = .text s) ∧ ∀ script ∈ t.scripts, (∃ s, script.name = .text s) ∧
      ∀ arguments, script.arguments = .ok arguments → ∀ a ∈ arguments, a.kind ≠ .label →
        ∃ s, a.name = .text s

/-- What calls pass and procedures declare are inputs and arguments. -/
def WellTyped (p : Project) : Prop :=
  ∀ t ∈ p.targets, t.Walkable ∧ ∀ script ∈ t.scripts, ∃ arguments, script.arguments = .ok arguments

theorem candidate_ok {name : Value} (upper : Bool) (h : ∃ s, name = .text s) :
    ∃ c, candidate name upper = .ok c := by
  obtain ⟨s, rfl⟩ := h
  exact ⟨_, candidate_eq_ok.2 ⟨s, rfl, rfl⟩⟩

theorem assignData_ok {entries : List (String × Value)}
    (h : ∀ entry ∈ entries, ∃ s, entry.2 = .text s) (space : Space)
    (data : List (String × String)) : ∃ result, assignData space data entries = .ok result := by
  induction entries generalizing space data with
  | nil => exact ⟨data, rfl⟩
  | cons entry rest ih =>
    obtain ⟨id, name⟩ := entry
    obtain ⟨c, hc⟩ := candidate_ok false (h (id, name) (by simp))
    obtain ⟨result, hresult⟩ := ih (fun entry hin => h entry (by simp [hin])) (space.allocate c).2
      (Assoc.set id (space.allocate c).1 data)
    exact ⟨result, Outcome.bind_eq_ok.2 ⟨c, hc, hresult⟩⟩

theorem assignParams_ok {arguments : List Argument}
    (h : ∀ a ∈ arguments, a.kind ≠ .label → ∃ s, a.name = .text s) (space : Space)
    (params : List (String × String)) :
    ∃ result, assignParams space params arguments = .ok result := by
  induction arguments generalizing space params with
  | nil => exact ⟨params, rfl⟩
  | cons a rest ih =>
    have ih := ih fun a hin => h a (by simp [hin])
    rw [assignParams]
    by_cases hlabel : a.kind = .label
    · simp only [hlabel, beq_self_eq_true, ↓reduceIte]
      exact ih space params
    · obtain ⟨s, hs⟩ := h a (by simp) hlabel
      simp only [beq_iff_eq, hlabel, if_false]
      have hbind : ∀ f : String → Except Fault (List (String × String)),
          (do let name ← (← a.name.asKey).asName; f name) = f s := by
        intro f; rw [hs]; rfl
      rw [hbind]
      split
      · exact ih space params
      · exact ih _ _

theorem assignTarget_ok {t : Target} (isStage : Bool) (className : String)
    (hlists : ∀ l ∈ t.lists, ∃ s, l.name = .text s) (hvars : ∀ v ∈ t.vars, ∃ s, v.name = .text s)
    (hscripts : ∀ script ∈ t.scripts, ∃ s, script.name = .text s) (hwalk : t.Walkable)
    (harguments : ∀ script ∈ t.scripts, ∃ arguments, script.arguments = .ok arguments ∧
      ∀ a ∈ arguments, a.kind ≠ .label → ∃ s, a.name = .text s) :
    ∃ names, assignTarget isStage className t = .ok names := by
  have hentries : ∀ entry ∈ t.lists.map (fun l => (l.id, l.name)) ++ t.vars.map fun v =>
      (v.id, v.name), ∃ s, entry.2 = .text s := by
    intro entry hin
    rcases List.mem_append.1 hin with hin | hin
    · obtain ⟨l, hl, rfl⟩ := List.mem_map.1 hin; exact hlists l hl
    · obtain ⟨v, hv, rfl⟩ := List.mem_map.1 hin; exact hvars v hv
  obtain ⟨data, hdata⟩ := assignData_ok hentries ⟨variableSeed⟩ []
  obtain ⟨candidates, hcandidates⟩ := Outcome.mapM_ok fun script hin =>
    candidate_ok false (hscripts script hin)
  obtain ⟨reachable, hreachable⟩ := Target.warpReachable_ok hwalk
  obtain ⟨params, hparams⟩ : ∃ params, t.scripts.mapM (fun s => do
      assignParams ⟨parameterSeed⟩ [] (← s.arguments)) = .ok params := by
    refine Outcome.mapM_ok fun script hin => ?_
    obtain ⟨arguments, hok, htext⟩ := harguments script hin
    obtain ⟨result, hresult⟩ := assignParams_ok htext ⟨parameterSeed⟩ []
    exact ⟨result, Outcome.bind_eq_ok.2 ⟨arguments, hok, hresult⟩⟩
  exact ⟨_, Outcome.bind_eq_ok.2 ⟨data, hdata, Outcome.bind_eq_ok.2 ⟨candidates, hcandidates,
    Outcome.bind_eq_ok.2 ⟨reachable, hreachable, Outcome.bind_eq_ok.2 ⟨params, hparams, rfl⟩⟩⟩⟩⟩

theorem assignTargets_ok {targets : List Target} (hname : ∀ t ∈ targets, ∃ s, t.name = .text s)
    (htarget : ∀ t ∈ targets, ∀ isStage className, ∃ names,
      assignTarget isStage className t = .ok names)
    (space : Space) (isStage : Bool) :
    ∃ result, assignTargets space isStage targets = .ok result := by
  induction targets generalizing space isStage with
  | nil => exact ⟨[], rfl⟩
  | cons t rest ih =>
    obtain ⟨c, hc⟩ := candidate_ok true (hname t (by simp))
    obtain ⟨names, hnames⟩ := htarget t (by simp) isStage (space.allocate c).1
    obtain ⟨others, hothers⟩ :=
      ih (fun t hin => hname t (by simp [hin])) (fun t hin => htarget t (by simp [hin]))
      (space.allocate c).2 false
    exact ⟨_, Outcome.bind_eq_ok.2 ⟨c, hc, Outcome.bind_eq_ok.2
      ⟨names, hnames, Outcome.bind_eq_ok.2 ⟨others, hothers, rfl⟩⟩⟩⟩

/-- A project whose names are texts gets a name table, and the identifiers in it do not collide.
Malformed calls and headings aside, there always is such a table. -/
theorem assign_collisionFree (p : Project) (hnames : NamesAreText p) :
    (WellTyped p → ∃ table, assign p = .ok table) ∧ ∀ table, assign p = .ok table →
      table.CollisionFree p := by
  constructor
  · intro htyped
    obtain ⟨result, hresult⟩ :=
        assignTargets_ok (fun t ht => (hnames t ht).1) (fun t ht isStage className => by
      obtain ⟨-, hlists, hvars, hscripts⟩ := hnames t ht
      obtain ⟨hwalk, harguments⟩ := htyped t ht
      refine assignTarget_ok isStage className hlists hvars (fun s hs => (hscripts s hs).1) hwalk
        fun s hs => ?_
      obtain ⟨arguments, hok⟩ := harguments s hs
      exact ⟨arguments, hok, (hscripts s hs).2 arguments hok⟩) ⟨classSeed⟩ true
    exact ⟨⟨result⟩, Outcome.bind_eq_ok.2 ⟨result, hresult, rfl⟩⟩
  · exact fun table => Table.collisionFree_of_assign

/-- A procedure named `jump` that calls others by their codes. -/
def jumpScript (code : String) (warp : Bool) (callees : List String) (arguments : List Argument) :
    Script where
  blocks := .mk (.known (.procedure .definition)) [("PROCCODE", .plain "string" (.text code)),
      ("WARP", .plain "boolean" (.bool warp)), ("ARGUMENTS", .arguments arguments)] "hat" ::
    callees.map fun callee =>
      .mk (.known (.procedure .call)) [("PROCCODE", .plain "string" (.text callee))] "call"
  name := .text "jump"
  x := .int 0
  y := .int 0

@[simp] theorem jumpScript_arguments (code : String) (warp : Bool) (callees : List String)
    (arguments : List Argument) :
    (jumpScript code warp callees arguments).arguments = .ok arguments := rfl

@[simp] theorem jumpScript_name (code : String) (warp : Bool) (callees : List String)
    (arguments : List Argument) :
    (jumpScript code warp callees arguments).name = .text "jump" := rfl

/-- A project in which names of every kind normalise to the same candidate, or to a reserved one. -/
def clashingProject : Project where
  stage := { name := .text "Stage!" }
  sprites := [
    { name := .text "stage"
      lists := [{ name := .text "to-string", id := "a" }]
      vars := [{ name := .text "to string", id := "b" }, { name := .text "é", id := "b" }]
      scripts := [jumpScript "f" true ["g"] [], jumpScript "g" false ["f"]
          [⟨.label, .text "x", .null⟩, ⟨.boolean, .text "x", .null⟩, ⟨.boolean, .text "x!", .null⟩],
        ⟨[], .text "jump warp", .int 0, .int 0⟩] }]

theorem clashingProject_collisionFree : NamesAreText clashingProject ∧ WellTyped clashingProject ∧
    ∃ table, assign clashingProject = .ok table ∧ table.CollisionFree clashingProject := by
  have hplain : (⟨[], .text "jump warp", .int 0, .int 0⟩ : Script).arguments = .ok [] := rfl
  have hnames : NamesAreText clashingProject := by
    simp [NamesAreText, clashingProject, Project.targets, hplain]
  have htyped : WellTyped clashingProject := by
    simp only [WellTyped, clashingProject, Project.targets, Target.Walkable, List.map_cons,
      List.map_nil, List.forall_mem_cons]
    exact ⟨⟨by simp, by simp⟩,
      ⟨⟨rfl, rfl, rfl, by simp⟩, ⟨_, rfl⟩, ⟨_, rfl⟩, ⟨_, hplain⟩, by simp⟩, by simp⟩
  obtain ⟨hok, hfree⟩ := assign_collisionFree clashingProject hnames
  obtain ⟨table, htable⟩ := hok htyped
  exact ⟨hnames, htyped, table, htable, hfree table htable⟩

end ScratchExport.Name
