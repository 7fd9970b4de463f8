import Mathlib.Data.List.Range
import ScratchExport.Proofs.CallProtocol

/-!
# What a call passes is what the callee names

The heading of a procedure is read twice. The naming pass goes through its parts with a map of the
names seen so far and gives each new one a parameter; a call goes through the positions of the parts
that take a value and keeps those whose name comes for the first time. Both skip labels and repeated
names, each in its own way, and `assignParams_slots` says that they agree: the parameters, in order,
belong to the positions that a call keeps.

So a call has one fragment for each parameter of the method it calls, and the fragment at a
parameter is compiled from the input in the slot of that parameter's name (`call_arguments_align`).
Inside the method an argument reporter with the same name is that parameter.
-/

namespace ScratchExport

namespace Compile
open Name (assignParams)

/-! ### Slots -/

/-- The parts of a procedure's heading that take a value. -/
def valueArguments (arguments : List Argument) : List Argument :=
  arguments.filter (·.kind != .label)

/-- The slot of an author's name: the position of the first part with that name among those that
take a value. -/
def slot? (arguments : List Argument) (author : String) : Option Nat :=
  (valueArguments arguments).findIdx? (·.name.isText author)

/-- Whether the name at a position comes for the first time. -/
def isFirst (authors : List String) (i : Nat) : Bool :=
  authors[i]?.any fun author => !(authors.take i).contains author

variable {arguments : List Argument} {authors : List String}

theorem same_text (v : Value) (s : String) : v.same (.text s) = v.isText s := by
  cases v <;> simp [Value.same, Value.isText, Value.toInt?]

theorem firstPositions_eq (h : (valueArguments arguments).map (·.name) = authors.map .text) :
    firstPositions arguments = (List.range authors.length).filter (isFirst authors) := by
  have hany : ∀ (front : List String) (s : String),
      (front.map Value.text).any (·.same (.text s)) = front.contains s := by
    intro front s
    induction front with
    | nil => rfl
    | cons t rest ih =>
      rw [List.map_cons, List.any_cons, ih, same_text, List.contains_cons, Bool.beq_comm]
      rfl
  have hnames : (arguments.filter (·.kind != .label)).map (·.name) = authors.map .text := h
  rw [firstPositions, hnames, List.length_map]
  refine List.filter_congr fun i hi => ?_
  have hlt : i < authors.length := List.mem_range.1 hi
  simp [isFirst, List.getElem?_eq_getElem hlt, ← List.map_take, hany]

theorem slot?_eq {author : String} {i : Nat}
    (h : (valueArguments arguments).map (·.name) = authors.map .text)
    (hi : authors[i]? = some author) (hfirst : author ∉ authors.take i) :
    slot? arguments author = some i := by
  have hmap : slot? arguments author = authors.findIdx? (· == author) := by
    have hfind : ((valueArguments arguments).map (·.name)).findIdx? (·.isText author) =
        (authors.map Value.text).findIdx? (·.isText author) := by rw [h]
    rw [List.findIdx?_map, List.findIdx?_map] at hfind
    exact hfind
  rw [hmap, List.findIdx?_eq_some_iff_getElem]
  obtain ⟨hlt, heq⟩ := List.getElem?_eq_some_iff.1 hi
  refine ⟨hlt, by simp [heq], fun j hj hsame => hfirst ?_⟩
  rw [← beq_iff_eq.1 hsame]
  exact List.mem_take_iff_getElem.2 ⟨j, by omega, rfl⟩

theorem exists_authors {space : Name.Space} {params result : List (String × String)}
    (h : assignParams space params arguments = .ok result) :
    ∃ authors : List String, (valueArguments arguments).map (·.name) = authors.map .text := by
  induction arguments generalizing space params with
  | nil => exact ⟨[], rfl⟩
  | cons a rest ih =>
    rw [assignParams] at h
    by_cases hlabel : a.kind = .label
    · simp only [hlabel, beq_self_eq_true, ↓reduceIte] at h
      obtain ⟨authors, hauthors⟩ := ih h
      exact ⟨authors, by simpa [valueArguments, hlabel] using hauthors⟩
    · simp only [beq_iff_eq, hlabel, if_false] at h
      obtain ⟨k, hk, h⟩ := Outcome.bind_eq_ok.1 h
      obtain ⟨name, hname, h⟩ := Outcome.bind_eq_ok.1 h
      obtain ⟨authors, hauthors⟩ :
          ∃ authors : List String, (valueArguments rest).map (·.name) = authors.map .text := by
        split at h
        · exact ih h
        · exact ih h
      refine ⟨name :: authors, ?_⟩
      rw [valueArguments, List.filter_cons_of_pos (by simpa using hlabel), List.map_cons,
        List.map_cons, Name.asName_asKey hk hname]
      exact congrArg _ hauthors

/-- The naming pass at a position: new parameters belong to the positions from here on whose names
come for the first time. -/
theorem assignParams_positions (authors : List String) {space : Name.Space}
    {params result : List (String × String)} {rest : List Argument} {k : Nat}
    (hrest : (valueArguments rest).map (·.name) = (authors.drop k).map .text)
    (hseen : ∀ author, (params.lookup author).isSome = true ↔ author ∈ authors.take k)
    (h : assignParams space params rest = .ok result) :
    ∃ new, result = params ++ new ∧
      List.Forall₂ (fun param i => authors[i]? = some param.1 ∧ param.1 ∉ authors.take i) new
        ((List.range' k (authors.length - k)).filter (isFirst authors)) := by
  induction rest generalizing space params k with
  | nil =>
    have hnil : authors.drop k = [] := by simpa [valueArguments] using hrest.symm
    have hlen : authors.length - k = 0 := by rw [← List.length_drop, hnil]; rfl
    cases h
    exact ⟨[], by simp, by rw [hlen]; exact .nil⟩
  | cons a rest ih =>
    rw [assignParams] at h
    by_cases hlabel : a.kind = .label
    · simp only [hlabel, beq_self_eq_true, ↓reduceIte] at h
      exact ih (by simpa [valueArguments, hlabel] using hrest) hseen h
    simp only [beq_iff_eq, hlabel, if_false] at h
    obtain ⟨v, hv, h⟩ := Outcome.bind_eq_ok.1 h
    obtain ⟨name, hname, h⟩ := Outcome.bind_eq_ok.1 h
    rw [valueArguments, List.filter_cons_of_pos (by simpa using hlabel), List.map_cons,
      Name.asName_asKey hv hname] at hrest
    have hlt : k < authors.length := by
      by_contra hge
      rw [List.drop_eq_nil_of_le (by omega)] at hrest
      simp at hrest
    rw [List.drop_eq_getElem_cons hlt, List.map_cons, List.cons.injEq, Value.text.injEq] at hrest
    obtain ⟨hat, hrest⟩ := hrest
    have hat : authors[k]? = some name := by rw [List.getElem?_eq_getElem hlt, hat]
    have htake : authors.take (k + 1) = authors.take k ++ [name] := by
      rw [List.take_add_one, hat]
      rfl
    have hrange :
        List.range' k (authors.length - k) = k :: List.range' (k + 1)
        (authors.length - (k + 1)) := by
      rw [show authors.length - k = authors.length - (k + 1) + 1 by omega, List.range'_succ]
    by_cases hold : (params.lookup name).isSome = true
    · -- A repeated name: neither pass does anything.
      simp only [hold, ↓reduceIte] at h
      have hmem := (hseen name).1 hold
      obtain ⟨new, hnew, hall⟩ := ih hrest (fun author => by
        rw [hseen, htake, List.mem_append, List.mem_singleton]
        exact ⟨.inl, fun h => h.elim id fun h => h ▸ hmem⟩) h
      refine ⟨new, hnew, ?_⟩
      rw [hrange, List.filter_cons_of_neg (by simp [isFirst, hat, hmem])]
      exact hall
    · -- A new name: a parameter for the one, a position for the other.
      simp only [hold] at h
      have hmem : name ∉ authors.take k := fun hin => hold ((hseen name).2 hin)
      obtain ⟨new, hnew, hall⟩ := ih hrest (fun author => by
        rw [Option.isSome_iff_exists, Name.lookup_concat_isSome, ← Option.isSome_iff_exists, hseen,
          htake, List.mem_append, List.mem_singleton]) h
      refine ⟨(name, (space.allocate (Name.camelCase name false)).1) :: new, by rw [hnew]; simp, ?_⟩
      rw [hrange, List.filter_cons_of_pos (by simp [isFirst, hat, hmem])]
      exact .cons ⟨hat, hmem⟩ hall

theorem assignParams_slots {space : Name.Space} {params : List (String × String)}
    (h : assignParams space [] arguments = .ok params) :
    List.Forall₂ (fun param slot => slot? arguments param.1 = some slot) params
    (firstPositions arguments) := by
  obtain ⟨authors, hauthors⟩ := exists_authors h
  obtain ⟨new, rfl, hall⟩ := assignParams_positions authors (k := 0) hauthors (by simp) h
  rw [Nat.sub_zero, ← List.range_eq_range'] at hall
  rw [firstPositions_eq hauthors]
  exact hall.imp fun param i hi => slot?_eq hauthors hi.1 hi.2

theorem nodup_firstPositions (arguments : List Argument) : (firstPositions arguments).Nodup :=
  List.nodup_range.filter _

theorem nodup_authors {params : List (String × String)} {slots : List Nat} (hslots : slots.Nodup)
    (h : List.Forall₂ (fun param slot => slot? arguments param.1 = some slot) params slots) :
    (params.map (·.1)).Nodup := by
  induction h with
  | nil => simp
  | @cons param slot params slots hslot hrest ih =>
    obtain ⟨hnot, hslots⟩ := List.nodup_cons.1 hslots
    refine List.nodup_cons.2 ⟨fun hin => hnot ?_, ih hslots⟩
    obtain ⟨other, hother, heq⟩ := List.mem_map.1 hin
    obtain ⟨slot', hpair⟩ := exists_mem_zip hrest hother
    have hsame := List.forall₂_zip hrest hpair
    rw [heq, hslot] at hsame
    rw [Option.some.inj hsame]
    exact (List.of_mem_zip hpair).2

/-! ### The source of a call -/

variable {ctx : Context} {slots : Slots} {readers : Readers} {locals : Name.Space} {source : String}
  {j : Nat}

theorem Phrase.render_intercalate {ps : List Phrase} :
    ((Phrase.intercalate ", " ps).render slots readers locals).result = .ok source ↔
      ∃ args, List.Forall₂ (fun p arg => (p.render slots readers locals).result = .ok arg) ps args ∧
        source = ", ".intercalate args := by
  induction ps generalizing source with
  | nil =>
    rw [Phrase.intercalate, render_text, Except.ok.injEq]
    constructor
    · rintro rfl
      exact ⟨[], .nil, rfl⟩
    · rintro ⟨args, hargs, rfl⟩
      cases hargs
      rfl
  | cons p rest ih =>
    cases rest with
    | nil =>
      rw [Phrase.intercalate]
      constructor
      · intro h
        exact ⟨[source], .cons h .nil, String.intercalate_singleton.symm⟩
      · rintro ⟨args, hargs, rfl⟩
        cases hargs with
        | cons harg hnil =>
          cases hnil
          rw [String.intercalate_singleton]
          exact harg
    | cons q rest =>
      rw [Phrase.intercalate, render_append]
      · simp only [render_append, render_text, Except.ok.injEq, ih]
        constructor
        · rintro ⟨_, _, ⟨a, _, ha, rfl, rfl⟩, ⟨args, hargs, rfl⟩, rfl⟩
          cases hargs with
          | cons hq hrest => exact ⟨_, .cons ha (.cons hq hrest), String.intercalate_cons_cons.symm⟩
        · rintro ⟨args, hargs, rfl⟩
          cases hargs with
          | cons ha hargs =>
            refine ⟨_, _, ⟨_, _, ha, rfl, rfl⟩, ⟨_, hargs, rfl⟩, ?_⟩
            cases hargs
            exact String.intercalate_cons_cons
      · simp

/-- What stands in front of the arguments of a call. -/
def callHead (ctx : Context) (callee : Nat) (calleeWarps : Bool) : String :=
  let name := ctx.targetNames.scriptName callee false
  if calleeWarps then "this." ++ name
  else if ctx.warp then
    match ctx.targetNames.warpVariants.lookup callee with
    | some variant => "this." ++ variant
    | none => "this.warp(this." ++ name ++ ")"
  else "yield* this." ++ name

theorem render_callPhrase {calleeWarps : Bool} {args : Phrase} :
    ((callPhrase ctx j calleeWarps args).render slots readers locals).result = .ok source ↔
      ∃ a, (args.render slots readers locals).result = .ok a ∧
      source = callHead ctx j calleeWarps ++ "(" ++ a ++ ")" := by
  unfold callPhrase callHead
  dsimp only
  split_ifs
  · exact render_call
  · cases ctx.targetNames.warpVariants.lookup j with
    | some variant => exact render_call
    | none =>
      have hparens : ∀ x : String, x ++ ")" ++ "(" = x ++ ")(" := fun x => String.append_assoc
      simp only [hparens]
      exact render_call
  · exact render_call

/-! ### What a call passes -/

/-- The inputs that a call passes, unless what stands in their place are no inputs. -/
def passedItems? (slots : Slots) : Option (List Input) :=
  match slots.lookup "INPUTS" with
  | some (.values items) => some items
  | _ => if (slots.literal "INPUTS" (.list [])).truthy then none else some []

/-- What a call compiles for a slot: the input that it passes there, or an absent one when it passes
fewer. -/
def passedFragment (ctx : Context) (items : List Input) (slot : Nat) (locals : Name.Space) :
    Noted Fragment :=
  match items[slot]? with
  | some x => inputFragment ctx x .any locals
  | none => .ofExcept (literalFragment .null .any)

theorem argument_eq {items : List Input} (h : slots.lookup "INPUTS" = some (.values items))
    (i : Nat) :
    (Compile.readers ctx slots).argument i locals = passedFragment ctx items i locals := by
  have hitem : ((Compile.readers ctx slots).lookup "INPUTS").bind (·.items[i]?) =
      items[i]?.map (inputFragment ctx) := by
    rw [lookup_readers, h]
    show (inputItems ctx (.values items))[i]? = _
    rw [inputItems, itemReads_eq, List.getElem?_map]
  unfold Readers.argument passedFragment
  rw [hitem]
  cases items[i]? <;> rfl

theorem exists_passed {items : List Input} (h : passedItems? slots = some items) (ctx : Context)
    (locals : Name.Space) :
    ∃ given, passed slots = .ok given ∧ ∀ i arg,
      ((given i).render slots (Compile.readers ctx slots) locals).result = .ok arg ↔
        ∃ f, (passedFragment ctx items i locals).result = .ok f ∧ arg = f.source := by
  by_cases hvalues : ∃ items', slots.lookup "INPUTS" = some (.values items')
  · obtain ⟨items', hlookup⟩ := hvalues
    have hpassed : passed slots = .ok .argument := by rw [passed, hlookup]
    rw [passedItems?, hlookup] at h
    cases h
    refine ⟨.argument, hpassed, fun i arg => ?_⟩
    rw [Phrase.render, argument_eq hlookup, Noted.result_bind, Outcome.bind_eq_ok]
    simp only [Noted.result_pure, Except.ok.injEq, @eq_comm _ _ arg]
  · have hitems :
        passedItems? slots = if (slots.literal "INPUTS" (.list [])).truthy then none else
        some [] := by
      unfold passedItems?
      split
      · exact absurd ⟨_, ‹_›⟩ hvalues
      · rfl
    rw [hitems] at h
    split_ifs at h with htruthy
    cases h
    have hpassed : passed slots = .ok fun _ => .text "\"\"" := by
      unfold passed
      split
      · exact absurd ⟨_, ‹_›⟩ hvalues
      · rw [plainArguments, if_pos (by simpa using htruthy)]
        rfl
    have hnull : literalFragment .null .any = .ok ⟨"\"\"", .string⟩ := rfl
    refine ⟨fun _ => .text "\"\"", hpassed, fun i arg => ?_⟩
    show Except.ok "\"\"" = Except.ok arg ↔ ∃ f, literalFragment .null .any = .ok f ∧ arg = f.source
    simp [hnull, eq_comm]

/-! ### The call and its callee -/

theorem blockFragment_call_iff {s : Script} {items : List Input} {id : String} {desired : Shape}
    {f : Fragment} (hitems : passedItems? slots = some items)
    (hcode : Slots.literal slots "PROCCODE" .null ≠ .null)
    (hfind : ctx.target.findProcedure (Slots.literal slots "PROCCODE" .null) = some j)
    (hs : ctx.target.scripts[j]? = some s) (harguments : s.arguments = .ok arguments) :
    (blockFragment ctx (.mk (.known (.procedure .call)) slots id) desired locals).result = .ok f ↔
      ∃ args, List.Forall₂ (fun slot arg =>
        ∃ g, (passedFragment ctx items slot locals).result = .ok g ∧ arg = g.source)
          (firstPositions arguments) args ∧
        f = ⟨callHead ctx j s.isWarp ++ "(" ++ ", ".intercalate args ++ ")", .stack⟩ := by
  obtain ⟨given, hgiven, hrender⟩ := exists_passed hitems ctx locals
  have hplan : plan ctx (.known (.procedure .call)) slots desired locals =
      .ok (.statement
        (callPhrase ctx j s.isWarp
        (Phrase.intercalate ", " ((firstPositions arguments).map given)))) := by
    show callPlan ctx slots = _
    simp only [callPlan, callee?_of_findProcedure hcode hfind hs, hgiven, harguments]
    rfl
  rw [blockFragment_eq_ok]
  simp only [hplan, Except.ok.injEq, exists_eq_left', Plan.statement, Plan.fragment_phrase_eq_ok,
    render_callPhrase, Phrase.render_intercalate, List.forall₂_map_left_iff, hrender]
  constructor
  · rintro ⟨_, ⟨_, ⟨args, hargs, rfl⟩, rfl⟩, rfl⟩
    exact ⟨args, hargs, rfl⟩
  · rintro ⟨args, hargs, rfl⟩
    exact ⟨_, ⟨_, ⟨args, hargs, rfl⟩, rfl⟩, rfl⟩

theorem blockFragment_argumentReporter {op : Procedure}
    (hop : op ∈ [.reporterStringNumber, .reporterBoolean]) {id : String} {desired : Shape}
    {author param : String} (hvalue : Slots.literal slots "VALUE" .null = .text author)
    (hparam : ctx.params.lookup author = some param) :
    blockFragment ctx (.mk (.known (.procedure op)) slots id) desired locals =
      pure ⟨param, .any⟩ := by
  have hplan : ∀ fallback shape, reporterPlan ctx slots fallback shape =
      .ok (.phrase (.name param) .any) := by
    intro fallback shape
    have hkey : (Value.text author).asKey = pure (.text author) := rfl
    simp only [reporterPlan, hvalue, hkey, pure_bind, hparam]
    rfl
  simp only [List.mem_cons, List.not_mem_nil, or_false] at hop
  rw [blockFragment]
  rcases hop with rfl | rfl
  · show (liftM (reporterPlan ctx slots "0" .numberNotNaN) >>= _) = _
    rw [hplan]
    rfl
  · show (liftM (reporterPlan ctx slots "false" .boolean) >>= _) = _
    rw [hplan]
    rfl

end Compile

namespace Name

theorem params_of_assignTargets {space : Space} {isStage : Bool} {targets : List Target}
    {result : List TargetNames} {t : Target} {names : TargetNames} {i : Nat}
    (h : assignTargets space isStage targets = .ok result) (ht : targets[i]? = some t)
    (hn : result[i]? = some names) :
    List.Forall₂ (fun s params => ∃ arguments, s.arguments = .ok arguments ∧
      assignParams ⟨parameterSeed⟩ [] arguments = .ok params) t.scripts names.params := by
  induction targets generalizing space isStage result i with
  | nil => simp at ht
  | cons first rest ih =>
    obtain ⟨c, -, h⟩ := Outcome.bind_eq_ok.1 h
    obtain ⟨head, hhead, h⟩ := Outcome.bind_eq_ok.1 h
    obtain ⟨others, hothers, h⟩ := Outcome.bind_eq_ok.1 h
    rw [Outcome.pure_eq_ok] at h; subst h
    cases i with
    | zero =>
      cases ht
      cases hn
      obtain ⟨data, candidates, reachable, params, -, -, -, hparams, rfl⟩ :=
        assignTarget_eq_ok hhead
      exact (Outcome.mapM_eq_ok hparams).imp fun s params h => Outcome.bind_eq_ok.1 h
    | succ i => exact ih hothers (by simpa using ht) (by simpa using hn)

end Name

namespace Compile
variable {project : Project} {names : Name.Table} {targetIndex i j : Nat} {ctx : Context}

theorem exists_callee {warp : Bool} (hnames : Name.assign project = .ok names)
    (hctx : Context.make project names targetIndex i warp = .ok ctx)
    (hj : j < ctx.target.scripts.length) (calleeWarp : Bool) :
    ∃ callee arguments, Context.make project names targetIndex j calleeWarp = .ok callee ∧
      ctx.target.scripts[j]? = some callee.script ∧ callee.script.arguments = .ok arguments ∧
      Name.assignParams ⟨Name.parameterSeed⟩ [] arguments = .ok callee.params := by
  obtain ⟨result, hresult, h⟩ := Outcome.bind_eq_ok.1 hnames
  rw [Outcome.pure_eq_ok] at h; subst h
  obtain ⟨htarget, htnames, -, -, -⟩ := Context.make_eq_ok hctx
  have hall := Name.params_of_assignTargets hresult htarget htnames
  have hlt : j < ctx.targetNames.params.length := hall.length_eq ▸ hj
  obtain ⟨arguments, harguments, hparams⟩ := hall.get hj hlt
  refine ⟨⟨project, ⟨result⟩, targetIndex, ctx.target, ctx.targetNames, j, ctx.target.scripts[j],
    ctx.targetNames.params[j], calleeWarp⟩, arguments, ?_, List.getElem?_eq_getElem hj, harguments,
    hparams⟩
  unfold Context.make
  simp only [htarget, htnames, List.getElem?_eq_getElem hj, List.getElem?_eq_getElem hlt]

/-- What a call passes for a parameter: the source of the input in the slot of the parameter's name,
compiled for any shape. -/
def IsPassed (ctx : Context) (arguments : List Argument) (items : List Input) (locals : Name.Space)
    (param : String × String) (arg : String) : Prop :=
  ∃ slot f, slot? arguments param.1 = some slot ∧
    (passedFragment ctx items slot locals).result = .ok f ∧ arg = f.source

theorem forall₂_isPassed {arguments : List Argument} {items : List Input} {locals : Name.Space}
    {params : List (String × String)} {slots : List Nat} {args : List String}
    (h : List.Forall₂ (fun param slot => slot? arguments param.1 = some slot) params slots) :
    List.Forall₂ (fun slot arg => ∃ f, (passedFragment ctx items slot locals).result = .ok f ∧
      arg = f.source) slots args ↔
      List.Forall₂ (IsPassed ctx arguments items locals) params args := by
  induction h generalizing args with
  | nil => simp
  | @cons param slot params slots hslot hrest ih =>
    have hhead : ∀ arg, (∃ f, (passedFragment ctx items slot locals).result = .ok f ∧
        arg = f.source) ↔ IsPassed ctx arguments items locals param arg := by
      intro arg
      simp [IsPassed, hslot]
    simp only [List.forall₂_cons_left_iff, hhead, ih]

theorem exists_param {arguments : List Argument} {params : List (String × String)} {a : Argument}
    (h : Name.assignParams ⟨Name.parameterSeed⟩ [] arguments = .ok params) (ha : a ∈ arguments)
    (hkind : a.kind ≠ .label) : ∃ param ∈ params, a.name = .text param.1 := by
  obtain ⟨authors, hauthors⟩ := exists_authors h
  have hvalue : a ∈ valueArguments arguments := List.mem_filter.2 ⟨ha, by simpa using hkind⟩
  have hname : a.name ∈ authors.map Value.text := hauthors ▸ List.mem_map_of_mem hvalue
  obtain ⟨author, -, hauthor⟩ := List.mem_map.1 hname
  obtain ⟨-, hkeys⟩ := Name.assignParams_spec (Name.Held.init Name.parameterSeed) h
  obtain ⟨param, hparam⟩ := (hkeys author).2 (.inr ⟨a, ha, hkind, hauthor.symm⟩)
  exact ⟨(author, param), Assoc.mem_of_lookup hparam, hauthor.symm⟩

/-- The arguments of a call line up with the parameters of the methods of its callee. Whenever what
it passes can be compiled, a call is the callee's method applied to one fragment for each parameter,
in order, and the fragment at a parameter is what is passed in the slot of the parameter's name.
Each part of the heading that takes a value has a parameter, and inside the callee a reporter of a
parameter's name is that parameter. -/
theorem call_arguments_align {warp : Bool} (hnames : Name.assign project = .ok names)
    (hctx : Context.make project names targetIndex i warp = .ok ctx) {slots : Slots}
    {items : List Input} (hitems : passedItems? slots = some items)
    (hcode : Slots.literal slots "PROCCODE" .null ≠ .null)
    (hfind : ctx.target.findProcedure (Slots.literal slots "PROCCODE" .null) = some j)
    (calleeWarp : Bool) :
    ∃ callee arguments, Context.make project names targetIndex j calleeWarp = .ok callee ∧
      callee.script.arguments = .ok arguments ∧
      (∀ m, (Method.compile callee).result = .ok m → m.params = callee.params.map (·.2)) ∧
      (∀ id desired locals f,
        (blockFragment ctx (.mk (.known (.procedure .call)) slots id) desired locals).result =
          .ok f ↔
          ∃ args, List.Forall₂ (IsPassed ctx arguments items locals) callee.params args ∧
            f = ⟨callHead ctx j callee.script.isWarp ++ "(" ++ ", ".intercalate args ++ ")",
              .stack⟩) ∧
      (∀ a ∈ arguments, a.kind ≠ .label → ∃ param ∈ callee.params, a.name = .text param.1) ∧
      ∀ param ∈ callee.params, ∀ op ∈ [Procedure.reporterStringNumber, .reporterBoolean],
        ∀ slots id desired locals,
        Slots.literal slots "VALUE" .null = .text param.1 →
          blockFragment callee (.mk (.known (.procedure op)) slots id) desired locals =
            pure ⟨param.2, .any⟩ := by
  obtain ⟨callee, arguments, hcallee, hs, harguments, hparams⟩ :=
    exists_callee hnames hctx (Target.findProcedure_lt hfind) calleeWarp
  have hslots := assignParams_slots hparams
  have hnodup := nodup_authors (nodup_firstPositions arguments) hslots
  refine ⟨callee, arguments, hcallee, harguments, fun m hm => ?_, fun id desired locals f => ?_,
    fun a ha hkind => exists_param hparams ha hkind,
    fun param hparam op hop slots id desired locals hvalue => ?_⟩
  · obtain ⟨body, -, hm⟩ := Noted.bind_eq_ok.1 hm
    cases hm
    rfl
  · simp only [blockFragment_call_iff hitems hcode hfind hs harguments, forall₂_isPassed hslots]
  · exact blockFragment_argumentReporter hop hvalue (Assoc.lookup_of_mem hnodup hparam)

/-- The inputs of a call that passes three texts. -/
def hopInputs : Slots :=
  [("PROCCODE", .plain "string" (.text "hop %s %s %b %s")),
    ("INPUTS", .values [.plain "text" (.text "a"), .plain "text" (.text "b"),
      .plain "text" (.text "c")])]

/-- A script calls a procedure whose heading has a label with the name of a parameter, a name twice,
a name that is reserved, and one place more than the call fills. -/
def hopProject : Project where
  stage := { name := .text "Stage", scripts := [
    ⟨[.mk (.known (.procedure .call)) hopInputs "call"], .text "start", .int 0, .int 0⟩,
    ⟨[.mk (.known (.procedure .definition))
      [("PROCCODE", .plain "string" (.text "hop %s %s %b %s")),
        ("ARGUMENTS", .arguments [⟨.label, .text "high", .null⟩,
          ⟨.numberOrString, .text "for", .null⟩,
          ⟨.numberOrString, .text "for", .null⟩, ⟨.boolean, .text "high", .null⟩,
          ⟨.numberOrString, .text "high!", .null⟩])] "hat"], .text "hop", .int 0, .int 0⟩] }

/-- The label is no parameter, the second of the equal names takes no part, and the last parameter
gets what stands for an absent input. -/
theorem hopProject_arguments_align : ∃ names ctx callee arguments items,
    Name.assign hopProject = .ok names ∧ Context.make hopProject names 0 0 false = .ok ctx ∧
    passedItems? hopInputs = some items ∧ Slots.literal hopInputs "PROCCODE" .null ≠ .null ∧
    ctx.target.findProcedure (Slots.literal hopInputs "PROCCODE" .null) = some 1 ∧
    Context.make hopProject names 0 1 false = .ok callee ∧
    callee.params = [("for", "for2"), ("high", "high"), ("high!", "high2")] ∧
    (blockFragment ctx (.mk (.known (.procedure .call)) hopInputs "call") .stack
      ctx.locals).result =
      .ok ⟨"yield* this.hop(\"a\", \"c\", \"\")", .stack⟩ ∧
    (∃ args, List.Forall₂ (IsPassed ctx arguments items ctx.locals) callee.params args ∧
      "yield* this.hop(\"a\", \"c\", \"\")" = callHead ctx 1 callee.script.isWarp ++ "(" ++
        ", ".intercalate args ++ ")") ∧
    blockFragment callee
      (.mk (.known (.procedure .reporterBoolean)) [("VALUE", .plain "string" (.text "for"))] "b")
      .boolean callee.locals = pure ⟨"for2", .any⟩ := by
  obtain ⟨names, hnames⟩ : ∃ names, Name.assign hopProject = .ok names := ⟨_, rfl⟩
  obtain ⟨ctx, hctx⟩ : ∃ ctx, Context.make hopProject names 0 0 false = .ok ctx := by
    cases hnames
    exact ⟨_, rfl⟩
  obtain ⟨items, hitems⟩ : ∃ items, passedItems? hopInputs = some items := ⟨_, rfl⟩
  have hcode : Slots.literal hopInputs "PROCCODE" .null ≠ .null := nofun
  have hfind : ctx.target.findProcedure (Slots.literal hopInputs "PROCCODE" .null) = some 1 := by
    cases hnames
    cases hctx
    rfl
  obtain ⟨callee, arguments, hcallee, -, -, hcall, -, hreporter⟩ :=
    call_arguments_align hnames hctx hitems hcode hfind false
  have hparams : callee.params = [("for", "for2"), ("high", "high"), ("high!", "high2")] := by
    cases hnames
    cases hcallee
    rfl
  have hsource :
      (blockFragment ctx (.mk (.known (.procedure .call)) hopInputs "call") .stack
      ctx.locals).result = .ok ⟨"yield* this.hop(\"a\", \"c\", \"\")", .stack⟩ := by
    cases hnames
    cases hctx
    rfl
  obtain ⟨args, hargs, hf⟩ := (hcall _ _ _ _).1 hsource
  exact ⟨names, ctx, callee, arguments, items, hnames, hctx, hitems, hcode, hfind, hcallee, hparams,
    hsource,
    ⟨args, hargs, (Fragment.mk.inj hf).1⟩,
    hreporter ("for", "for2") (by simp [hparams]) _ (by simp) _ _ _ _ rfl⟩

end Compile

end ScratchExport
