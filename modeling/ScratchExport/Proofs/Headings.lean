import Mathlib.Data.List.Basic
import Mathlib.Data.List.GetD
import ScratchExport.Archive.Heading
import ScratchExport.Proofs.InitialValues
import ScratchExport.Proofs.Outcome
import ScratchExport.Proofs.TidyLines

/-!
# The arguments of a heading

Where the placeholders of a heading are, said by position: `opensSlot cs i` looks at the characters
at `i`, behind it and in front of it, and `spots` lists these positions. The `stretches` are what is
between them. The arguments of a prototype are labels for the stretches that are not blank, with the
placeholders between them, and the k-th placeholder has the k-th name and the k-th default
(`prototype_arguments`).

The heading is read once from the left, so what has to be kept is that no placeholder starts in the
stretch that has been read so far; the position in front of a stretch is never a backslash, since a
letter is there. A label is also never spelled like a placeholder: without its blanks it would have
been one.
-/

namespace ScratchExport.Archive
open Text (trim)

variable {cs t rest stretch : List Char} {c : Char} {i : Nat}

/-! ### Placeholders by position -/

/-- A placeholder starts at a position: `%` with a letter behind it and no backslash in front
of it. -/
def opensSlot (cs : List Char) (i : Nat) : Bool :=
  cs[i]? == some '%' && (cs[i + 1]?).any isSlotLetter && (i == 0 || cs[i - 1]? != some '\\')

/-- The positions of the placeholders. -/
def spots (cs : List Char) : List Nat :=
  (List.range cs.length).filter (opensSlot cs)

/-- The letters of the placeholders. There is always one. -/
def slotLetters (cs : List Char) : List Char :=
  (spots cs).map fun i => cs.getD (i + 1) '%'

/-- What stands before, between and behind the placeholders. -/
def stretches (cs : List Char) : List (List Char) :=
  List.zipWith (fun start stop => (cs.take stop).drop start) (0 :: (spots cs).map (· + 2))
    (spots cs ++ [cs.length])

/-- What becomes of the stretches, in turn with what stands between them. -/
def alternate {α : Type} (label : List Char → List α) : List (List Char) → List α → List α
  | stretch :: stretches, slot :: slots => label stretch ++ slot :: alternate label stretches slots
  | stretches, _ => stretches.flatMap label

example :
    spots "a\\%s%%n %b%sx%q".toList = [5, 8, 10] ∧ slotLetters "a\\%s%%n %b%sx%q".toList =
      ['n', 'b', 's'] ∧
    stretches "a\\%s%%n %b%sx%q".toList = ["a\\%s%".toList, " ".toList, "".toList,
        "x%q".toList] := by
  decide

/-- The label of a stretch, without the blanks around it; a blank stretch has none. -/
def labelArguments (stretch : List Char) : List Argument :=
  if trim stretch = [] then [] else [⟨.label, .text (String.ofList (trim stretch)), .null⟩]

/-- The argument of a placeholder. What is missing is an empty name, and null or false
by default. -/
def slotArgument (letter : Char) (name? default? : Option Value) : Argument :=
  if letter = 'b' then ⟨.boolean, name?.getD (.text ""), .bool (default?.any (·.isText "true"))⟩
  else ⟨.numberOrString, name?.getD (.text ""), default?.getD .null⟩

/-- The arguments of placeholders, each with the name and default at its own position. -/
def slotArguments (letters : List Char) (names defaults : List Value) : List Argument :=
  letters.mapIdx fun k letter => slotArgument letter names[k]? defaults[k]?

/-! ### The first placeholder and the rest -/

theorem not_isSlotLetter {m : Char} (hc : isSlotLetter c = true) (hm : isSlotLetter m = false) :
    c ≠ m := by
  rintro rfl
  rw [hc] at hm
  cases hm

theorem opensSlot_behind (t : List Char) (hc : isSlotLetter c = true) (rest : List Char) (j : Nat) :
    opensSlot (t ++ '%' :: c :: rest) (j + (t.length + 2)) = opensSlot rest j := by
  have hbehind (k : Nat) : (t ++ '%' :: c :: rest)[k + (t.length + 2)]? = rest[k]? := by
    rw [List.getElem?_append_right (by omega),
      show k + (t.length + 2) - t.length = k + 1 + 1 by omega]
    rfl
  have hletter : (t ++ '%' :: c :: rest)[t.length + 1]? = some c := by simp
  have hescape : c ≠ '\\' := not_isSlotLetter hc rfl
  have hzero (k : Nat) : (k + (t.length + 2) == 0) = false := by simp
  unfold opensSlot
  rw [hbehind, show j + (t.length + 2) + 1 = j + 1 + (t.length + 2) by omega, hbehind, hzero]
  cases j with
  | zero => rw [show 0 + (t.length + 2) - 1 = t.length + 1 by omega, hletter]; simp [hescape]
  | succ j => rw [show j + 1 + (t.length + 2) - 1 = j + (t.length + 2) by omega, hbehind]; simp

section
variable (hc : isSlotLetter c = true) (hslot : opensSlot (t ++ '%' :: c :: rest) t.length = true)
  (hfree : ∀ i < t.length, opensSlot (t ++ '%' :: c :: rest) i = false)
include hc hslot hfree

theorem spots_append :
    spots (t ++ '%' :: c :: rest) = t.length :: (spots rest).map (· + (t.length + 2)) := by
  have hletter : opensSlot (t ++ '%' :: c :: rest) (t.length + 1) = false := by
    simp [opensSlot, not_isSlotLetter hc (m := '%') rfl]
  have hlength : (t ++ '%' :: c :: rest).length = t.length + 1 + 1 + rest.length := by
    rw [List.length_append, List.length_cons, List.length_cons]
    omega
  have hnone : (List.range t.length).filter (opensSlot (t ++ '%' :: c :: rest)) = [] := by
    simpa [List.filter_eq_nil_iff] using hfree
  have hbehind :
      ((List.range rest.length).map (t.length + 1 + 1 + ·)).filter
      (opensSlot (t ++ '%' :: c :: rest)) = (spots rest).map (· + (t.length + 2)) := by
    have hshift (j : Nat) : t.length + 1 + 1 + j = j + (t.length + 2) := by omega
    have hsame : (opensSlot (t ++ '%' :: c :: rest) ∘ fun j => j + (t.length + 2)) =
        opensSlot rest :=
      funext fun j => opensSlot_behind t hc rest j
    simp only [hshift, List.filter_map, hsame]
    rfl
  rw [spots, hlength, List.range_add, List.range_succ, List.range_succ, List.filter_append,
    List.filter_append,
    List.filter_append, hnone, hbehind, List.filter_singleton, List.filter_singleton, hslot,
    hletter]
  rfl

theorem slotLetters_append : slotLetters (t ++ '%' :: c :: rest) = c :: slotLetters rest := by
  have hfirst : (t ++ '%' :: c :: rest).getD (t.length + 1) '%' = c := by simp
  have hbehind (j : Nat) :
      (t ++ '%' :: c :: rest).getD (j + (t.length + 2) + 1) '%' = rest.getD (j + 1) '%' := by
    rw [List.getD_append_right _ _ _ _ (by omega),
      show j + (t.length + 2) + 1 - t.length = j + 1 + 1 + 1 by omega]
    rfl
  rw [slotLetters, spots_append hc hslot hfree, List.map_cons, hfirst, List.map_map]
  simp only [Function.comp_def, hbehind]
  rfl

theorem stretches_append : stretches (t ++ '%' :: c :: rest) = t :: stretches rest := by
  have hbehind (start stop : Nat) :
      ((t ++ '%' :: c :: rest).take (stop + (t.length + 2))).drop (start + (t.length + 2)) =
      (rest.take stop).drop start := by
    have hwhole : t ++ '%' :: c :: rest = (t ++ ['%', c]) ++ rest := by simp
    have hfront : t.length + 2 = (t ++ ['%', c]).length := by simp
    rw [hwhole, hfront, Nat.add_comm stop, Nat.add_comm start, List.take_length_add_append,
      List.drop_length_add_append]
  have hstarts : (spots (t ++ '%' :: c :: rest)).map (· + 2) =
      (0 :: (spots rest).map (· + 2)).map (· + (t.length + 2)) := by
    rw [spots_append hc hslot hfree]
    simp [Function.comp_def, Nat.add_right_comm]
  have hstops : spots (t ++ '%' :: c :: rest) ++ [(t ++ '%' :: c :: rest).length] =
      t.length :: (spots rest ++ [rest.length]).map (· + (t.length + 2)) := by
    rw [spots_append hc hslot hfree]
    simp
    omega
  rw [stretches, hstarts, hstops, List.zipWith_cons_cons, List.zipWith_map]
  simp only [hbehind, List.take_left, List.drop_zero]
  rfl

end

theorem spots_eq_nil (h : ∀ i < cs.length, opensSlot cs i = false) : spots cs = [] := by
  simpa [spots, List.filter_eq_nil_iff] using h

/-! ### Reading from the left -/

/-- No placeholder starts in the front of a text. -/
def FreeFront (t rest : List Char) : Prop :=
  ∀ i < t.length, opensSlot (t ++ rest) i = false

theorem FreeFront.concat (h : FreeFront t (c :: rest))
    (hc : opensSlot (t ++ c :: rest) t.length = false) : FreeFront (t ++ [c]) rest := by
  intro i hi
  rw [List.append_assoc, List.singleton_append]
  rw [List.length_append, List.length_singleton] at hi
  rcases Nat.lt_succ_iff_lt_or_eq.1 hi with hi | rfl
  · exact h i hi
  · exact hc

theorem opensSlot_length (t : List Char) (c : Char) (rest : List Char) :
    opensSlot (t ++ '%' :: c :: rest) t.length =
    (isSlotLetter c && t.getLast? != some '\\') := by
  have hpercent : (t ++ '%' :: c :: rest)[t.length]? = some '%' := by simp
  have hletter : (t ++ '%' :: c :: rest)[t.length + 1]? = some c := by simp
  rw [opensSlot, hpercent, hletter]
  cases t using List.reverseRecOn with
  | nil => simp
  | append_singleton t d => simp

/-- Where no `%` stands, or one without a character behind it, no placeholder starts. -/
theorem opensSlot_length_of_not (h : ∀ d tail, c = '%' → rest ≠ d :: tail) :
    opensSlot (t ++ c :: rest) t.length = false := by
  have hfirst : (t ++ c :: rest)[t.length]? = some c := by simp
  have hsecond : (t ++ c :: rest)[t.length + 1]? = rest[0]? := by
    rw [List.getElem?_append_right (by omega), Nat.add_sub_cancel_left]
    rfl
  rw [opensSlot, hfirst, hsecond]
  by_cases hc : c = '%'
  · cases rest with
    | nil => simp
    | cons d tail => exact absurd rfl (h d tail hc)
  · simp [hc]

/-- The parts of a heading are its stretches, with the placeholders between them, and no placeholder
starts in a stretch. -/
theorem splitFrom_eq (h : FreeFront stretch.reverse cs) :
    splitFrom stretch cs =
        alternate labelOf (stretches (stretch.reverse ++ cs))
        ((slotLetters (stretch.reverse ++ cs)).map .slot) ∧
      ∀ t ∈ stretches (stretch.reverse ++ cs), ∃ rest, FreeFront t rest := by
  -- The text as a whole stays the same while characters go over to the stretch.
  have hmove (d : Char) (stretch rest : List Char) :
    (d :: stretch).reverse ++ rest = stretch.reverse ++ d :: rest := by simp
  induction stretch, cs using splitFrom.induct with
  | case1 stretch c rest hslot ih =>
    have hopens := opensSlot_length stretch.reverse c rest
    rw [List.getLast?_reverse, hslot] at hopens
    have hc : isSlotLetter c = true := (Bool.and_eq_true_iff.1 hslot).1
    obtain ⟨hparts, hfree⟩ := ih fun i hi => absurd hi (Nat.not_lt_zero i)
    rw [splitFrom, if_pos hslot, hparts, stretches_append hc hopens h,
      slotLetters_append hc hopens h]
    exact ⟨rfl, List.forall_mem_cons.2 ⟨⟨_, h⟩, hfree⟩⟩
  | case2 stretch c rest hslot ih =>
    have hopens := opensSlot_length stretch.reverse c rest
    rw [List.getLast?_reverse, Bool.eq_false_of_not_eq_true hslot] at hopens
    have hnext : FreeFront ('%' :: stretch).reverse (c :: rest) := by
      rw [List.reverse_cons]
      exact h.concat hopens
    rw [splitFrom, if_neg hslot, ← hmove]
    exact ih hnext
  | case3 stretch c rest hpair ih =>
    have hopens : opensSlot (stretch.reverse ++ c :: rest) stretch.reverse.length = false :=
      opensSlot_length_of_not fun d tail hc hrest => hpair d tail hc hrest
    have hnext : FreeFront (c :: stretch).reverse rest := by
      rw [List.reverse_cons]
      exact h.concat hopens
    rw [splitFrom, ← hmove]
    · exact ih hnext
    · exact hpair
  | case4 stretch =>
    have hspots : spots stretch.reverse = [] := spots_eq_nil (by simpa [FreeFront] using h)
    have hstretches : stretches stretch.reverse = [stretch.reverse] := by
      rw [stretches, hspots]
      exact congrArg (fun t => [t]) List.take_length
    rw [splitFrom, List.append_nil, hstretches, slotLetters, hspots]
    exact ⟨(List.append_nil _).symm, List.forall_mem_singleton.2 ⟨[], h⟩⟩

/-! ### Labels are no placeholders -/

/-- Without its blanks a stretch is never spelled like a placeholder. -/
theorem trim_ne_slot (h : FreeFront t rest) (hc : isSlotLetter c = true) : trim t ≠ ['%', c] := by
  intro htrim
  obtain ⟨front, behind, heq, hfront⟩ : ∃ front behind, t = front ++ '%' :: c :: behind ∧
      ∀ d ∈ front, Text.isBlank d = true := by
    have hstart : t = t.takeWhile Text.isBlank ++ Text.trimStart t :=
      List.takeWhile_append_dropWhile.symm
    obtain ⟨blanks, hend, -⟩ := Text.exists_trimEnd_append (Text.trimStart t)
    have htrim : Text.trimEnd (Text.trimStart t) = ['%', c] := htrim
    rw [htrim] at hend
    refine ⟨t.takeWhile Text.isBlank, blanks, ?_, fun d hd => List.mem_takeWhile_imp hd⟩
    conv_lhs => rw [hstart, hend]
    rfl
  have hopens : opensSlot (t ++ rest) front.length = true := by
    rw [heq, List.append_assoc, List.cons_append, List.cons_append, opensSlot_length, hc,
      Bool.true_and, bne_iff_ne]
    intro hlast
    exact absurd (hfront '\\' (List.mem_of_getLast? hlast)) (by decide)
  have hfree := h front.length (by rw [heq, List.length_append, List.length_cons]; omega)
  rw [hopens] at hfree
  cases hfree

theorem labelArguments_ne_slot {a : Argument} (h : FreeFront t rest) (hc : isSlotLetter c = true)
    (ha : a ∈ labelArguments t) : a.name ≠ .text (String.ofList ['%', c]) := by
  unfold labelArguments at ha
  split_ifs at ha
  · cases ha
  · rw [List.mem_singleton.1 ha]
    intro hname
    exact trim_ne_slot h hc (String.ofList_injective (Value.text.inj hname))

theorem alternate_nil {α : Type} (label : List Char → List α) (ts : List (List Char)) :
    alternate label ts [] = ts.flatMap label := by
  cases ts <;> rfl

theorem mem_alternate {α : Type} {label : List Char → List α} {ts : List (List Char)}
    {slots : List α} {a : α} (h : a ∈ alternate label ts slots) :
    (∃ t ∈ ts, a ∈ label t) ∨ a ∈ slots := by
  induction ts, slots using alternate.induct with
  | case1 t ts slot slots ih =>
    rw [alternate, List.mem_append, List.mem_cons] at h
    rcases h with h | rfl | h
    · exact .inl ⟨t, List.mem_cons_self, h⟩
    · exact .inr List.mem_cons_self
    · exact (ih h).imp (fun ⟨u, hu, ha⟩ => ⟨u, List.mem_cons_of_mem t hu, ha⟩)
        (List.mem_cons_of_mem slot)
  | case2 ts slots hcons =>
    rw [alternate] at h
    · exact .inl (List.mem_flatMap.1 h)
    · exact hcons

/-! ### Names and defaults -/

theorem declared_labelOf (h : FreeFront t rest) (parts : List String)
    (names defaults : List Value) :
    declared ((labelOf t).map Part.text ++ parts) names defaults =
      labelArguments t ++ declared parts names defaults := by
  unfold labelOf labelArguments
  split
  · rename_i hblank
    rw [if_pos hblank]
    rfl
  · rename_i cs hne
    have hspelled (c : Char) (hc : isSlotLetter c = true) :
        (String.ofList (trim t) == String.ofList ['%', c]) = false := by
      rw [beq_eq_false_iff_ne]
      exact fun heq => trim_ne_slot h hc (String.ofList_injective heq)
    have hs : (String.ofList (trim t) == "%s") = false := hspelled 's' rfl
    have hn : (String.ofList (trim t) == "%n") = false := hspelled 'n' rfl
    have hb : (String.ofList (trim t) == "%b") = false := hspelled 'b' rfl
    rw [if_neg hne, List.map_singleton, List.singleton_append, declared, Part.text, hs, hn, hb]
    rfl

theorem declared_flatMap {ts : List (List Char)} (h : ∀ t ∈ ts, ∃ rest, FreeFront t rest)
    (names defaults : List Value) :
    declared ((ts.flatMap labelOf).map Part.text) names defaults = ts.flatMap labelArguments := by
  induction ts with
  | nil => rfl
  | cons t ts ih =>
    obtain ⟨⟨rest, ht⟩, hts⟩ := List.forall_mem_cons.1 h
    rw [List.flatMap_cons, List.map_append, declared_labelOf ht, ih hts, List.flatMap_cons]

theorem slotArguments_cons (c : Char) (letters : List Char) (names defaults : List Value) :
    slotArguments (c :: letters) names defaults =
      slotArgument c names.head? defaults.head? :: slotArguments letters names.tail
      defaults.tail := by
  rw [slotArguments, List.mapIdx_cons]
  simp [slotArguments, List.head?_eq_getElem?]

theorem declared_slot (hc : isSlotLetter c = true) (parts : List String)
    (names defaults : List Value) :
    declared ((Part.slot c).text :: parts) names defaults =
      slotArgument c names.head? defaults.head? :: declared parts names.tail defaults.tail := by
  have hletter : c = 'n' ∨ c = 's' ∨ c = 'b' := by
    simpa [isSlotLetter, or_assoc] using hc
  rw [declared, slotArgument]
  rcases hletter with rfl | rfl | rfl
  all_goals cases names <;> cases defaults <;> simp [Part.text, Value.isText]

/-- Each placeholder takes the next name and the next default. -/
theorem declared_alternate {ts : List (List Char)} (h : ∀ t ∈ ts, ∃ rest, FreeFront t rest)
    {letters : List Char} (hletters : ∀ c ∈ letters, isSlotLetter c = true)
    (names defaults : List Value) :
    declared ((alternate labelOf ts (letters.map .slot)).map Part.text) names defaults =
      alternate labelArguments ts (slotArguments letters names defaults) := by
  induction ts generalizing letters names defaults with
  | nil => rfl
  | cons t ts ih =>
    cases letters with
    | nil => exact declared_flatMap h names defaults
    | cons c letters =>
      obtain ⟨⟨rest, ht⟩, hts⟩ := List.forall_mem_cons.1 h
      obtain ⟨hc, hletters⟩ := List.forall_mem_cons.1 hletters
      rw [List.map_cons, alternate, List.map_append, List.map_cons, declared_labelOf ht,
        declared_slot hc, slotArguments_cons, alternate, ih hts hletters]

theorem isSlotLetter_of_mem (h : c ∈ slotLetters cs) : isSlotLetter c = true := by
  obtain ⟨i, hi, rfl⟩ := List.mem_map.1 h
  have hopens := (List.mem_filter.1 hi).2
  simp only [opensSlot, Bool.and_eq_true] at hopens
  obtain ⟨d, hd, hletter⟩ := (Option.any_eq_true _ _).1 hopens.1.2
  rw [List.getD_eq_getElem?_getD, hd]
  exact hletter

theorem filter_alternate (ts : List (List Char)) {slots : List Argument}
    (hlength : slots.length < ts.length) (h : ∀ a ∈ slots, a.kind ≠ .label) :
    (alternate labelArguments ts slots).filter (·.kind ≠ .label) = slots := by
  have hlabels (t : List Char) : (labelArguments t).filter (·.kind ≠ .label) = [] := by
    unfold labelArguments
    split_ifs <;> rfl
  induction ts generalizing slots with
  | nil => cases hlength
  | cons t ts ih =>
    cases slots with
    | nil =>
      rw [alternate_nil, List.filter_flatMap, List.flatMap_eq_nil_iff]
      exact fun u _ => hlabels u
    | cons slot slots =>
      obtain ⟨hslot, hslots⟩ := List.forall_mem_cons.1 h
      rw [alternate, List.filter_append, hlabels, List.nil_append,
        List.filter_cons_of_pos (by simpa using hslot), ih (Nat.lt_of_succ_lt_succ hlength) hslots]

theorem slotArguments_kind {letters : List Char} {names defaults : List Value} {a : Argument}
    (h : a ∈ slotArguments letters names defaults) : a.kind ≠ .label := by
  obtain ⟨k, hk, rfl⟩ := List.mem_mapIdx.1 h
  unfold slotArgument
  split_ifs <;> exact ArgumentKind.noConfusion

/-! ### Prototypes -/

theorem length_stretches (cs : List Char) :
    (stretches cs).length = (slotLetters cs).length + 1 := by
  simp [stretches, slotLetters]

theorem jsonMembers_eq {mutation : Value} {key text : String} {items : List Value}
    (h : mutation.get key (.text "[]") = .ok (.text text))
    (hread : Json.read? text = some (.list items)) : jsonMembers mutation key = .ok items := by
  rw [jsonMembers, h]
  show (Json.readValue (.text text) >>= Value.members) = .ok items
  rw [Json.readValue, hread]
  rfl

theorem get_isOk {mutation v : Value} {key : String} {default : Value}
    (h : mutation.get key default = .ok v) (key' : String) (default' : Value) :
    ∃ w, mutation.get key' default' = .ok w := by
  obtain ⟨fields, hfields, -⟩ := Outcome.bind_eq_ok.1 h
  exact ⟨_, Outcome.bind_eq_ok.2 ⟨fields, hfields, rfl⟩⟩

/-- A prototype has a label for each stretch of its heading that is not blank and, between the
stretches, one argument for each placeholder. The k-th placeholder has the k-th name and the k-th
default, and no label is spelled like a placeholder. -/
theorem prototype_arguments (mutation : Value) (heading namesText defaultsText : String)
    (names defaults : List Value)
    (hheading : mutation.get "proccode" (.text "") = .ok (.text heading))
    (hnames : mutation.get "argumentnames" (.text "[]") = .ok (.text namesText))
    (hreadNames : Json.read? namesText = some (.list names))
    (hdefaults : mutation.get "argumentdefaults" (.text "[]") = .ok (.text defaultsText))
    (hreadDefaults : Json.read? defaultsText = some (.list defaults)) :
    ∃ inputs arguments, prototypeInputs mutation = .ok inputs ∧
    inputs.lookup "ARGUMENTS" = some (.arguments arguments) ∧
      arguments = alternate labelArguments (stretches heading.toList)
        (slotArguments (slotLetters heading.toList) names defaults) ∧
      (stretches heading.toList).length = (spots heading.toList).length + 1 ∧
      arguments.filter (·.kind ≠ .label) = slotArguments (slotLetters heading.toList) names
          defaults ∧
      ∀ a ∈ arguments, a.kind = .label → ∀ c, isSlotLetter c = true →
          a.name ≠ .text (String.ofList ['%', c]) := by
  obtain ⟨warp, hwarp⟩ := get_isOk hheading "warp" (.text "false")
  have hinputs : prototypeInputs mutation = .ok [("PROCCODE", .plain "string" (.text heading)),
      ("ARGUMENTS", .arguments (declared ((parts heading).map Part.text) names defaults)),
      ("WARP", .plain "boolean" (.bool (Text.lower warp.display == "true")))] := by
    rw [prototypeInputs, hheading, jsonMembers_eq hnames hreadNames,
      jsonMembers_eq hdefaults hreadDefaults, hwarp]
    rfl
  have hempty : FreeFront ([] : List Char).reverse heading.toList := fun i hi =>
    absurd hi (Nat.not_lt_zero i)
  obtain ⟨hparts, hfree⟩ := splitFrom_eq hempty
  have harguments : declared ((parts heading).map Part.text) names defaults =
      alternate labelArguments (stretches heading.toList)
        (slotArguments (slotLetters heading.toList) names defaults) := by
    rw [parts, hparts]
    exact declared_alternate hfree (fun c => isSlotLetter_of_mem) names defaults
  have hcount : (stretches heading.toList).length = (slotLetters heading.toList).length + 1 :=
    length_stretches heading.toList
  refine ⟨_, _, hinputs, rfl, harguments, ?_, ?_, ?_⟩
  · rw [hcount, slotLetters, List.length_map]
  · rw [harguments]
    refine filter_alternate _ ?_ fun a => slotArguments_kind
    rw [slotArguments, List.length_mapIdx, hcount]
    exact Nat.lt_succ_self _
  · intro a ha hkind c hc
    rw [harguments] at ha
    rcases mem_alternate ha with ⟨t, ht, ha⟩ | ha
    · obtain ⟨rest, hfront⟩ := hfree t ht
      exact labelArguments_ne_slot hfront hc ha
    · exact absurd hkind (slotArguments_kind ha)

/-- Two placeholders side by side, an escaped one, a blank stretch, and fewer names and defaults
than placeholders. -/
def mixedHeading : Value :=
  .record [("proccode", .text "%s%b turn \\%s fast %b  %n"),
    ("argumentnames", .text "[\"by\", \"left\", \"far\"]"),
    ("argumentdefaults", .text "[\"10\", \"true\"]")]

theorem mixedHeading_arguments :
    ∃ inputs arguments, prototypeInputs mixedHeading = .ok inputs ∧
      inputs.lookup "ARGUMENTS" = some (.arguments arguments) ∧
      arguments = [⟨.numberOrString, .text "by", .text "10"⟩, ⟨.boolean, .text "left", .bool true⟩,
        ⟨.label, .text "turn \\%s fast", .null⟩, ⟨.boolean, .text "far", .bool false⟩,
        ⟨.numberOrString, .text "", .null⟩] := by
  have hnames :
      Json.read? "[\"by\", \"left\", \"far\"]" =
      some (.list [.text "by", .text "left", .text "far"]) := by
    have hchars : "[\"by\", \"left\", \"far\"]".toList = '[' :: (Text.joinWith Json.comma
        [(Text.literal "by").toList, (Text.literal "left").toList, (Text.literal "far").toList] ++
          [']']) := by
      decide +kernel
    refine Json.ReadsBack.read?_eq (hchars ▸ Json.readsBack_list ?_)
    exact .cons (Json.readsBack_literal _)
      (.cons (Json.readsBack_literal _) (.cons (Json.readsBack_literal _) .nil))
  have hdefaults : Json.read? "[\"10\", \"true\"]" = some (.list [.text "10", .text "true"]) := by
    have hchars : "[\"10\", \"true\"]".toList = '[' :: (Text.joinWith Json.comma
        [(Text.literal "10").toList, (Text.literal "true").toList] ++ [']']) := by decide +kernel
    refine Json.ReadsBack.read?_eq (hchars ▸ Json.readsBack_list ?_)
    exact .cons (Json.readsBack_literal _) (.cons (Json.readsBack_literal _) .nil)
  have hstretches : stretches "%s%b turn \\%s fast %b  %n".toList = [[], [],
      " turn \\%s fast ".toList, [' ', ' '], []] := by
    decide
  have hletters : slotLetters "%s%b turn \\%s fast %b  %n".toList = ['s', 'b', 'b', 'n'] := by
    decide
  have hturn : labelArguments " turn \\%s fast ".toList =
      [⟨.label, .text "turn \\%s fast", .null⟩] := by
    have htrim : trim " turn \\%s fast ".toList = "turn \\%s fast".toList := by decide +kernel
    rw [labelArguments, htrim]
    rfl
  have hblank : labelArguments [' ', ' '] = [] ∧ labelArguments [] = [] :=
    ⟨if_pos (by decide +kernel), if_pos (by decide +kernel)⟩
  obtain ⟨inputs, arguments, hinputs, hlookup, harguments, -⟩ :=
    prototype_arguments mixedHeading "%s%b turn \\%s fast %b  %n" "[\"by\", \"left\", \"far\"]"
      "[\"10\", \"true\"]"
      [.text "by", .text "left", .text "far"] [.text "10",
        .text "true"] rfl rfl hnames rfl hdefaults
  refine ⟨inputs, arguments, hinputs, hlookup, harguments.trans ?_⟩
  rw [hstretches, hletters]
  show labelArguments [] ++
    _ :: (labelArguments [] ++ _ :: (labelArguments _ ++ _ :: (labelArguments _ ++ _ ::
    (labelArguments [] ++ [])))) = _
  rw [hturn, hblank.1, hblank.2]
  rfl

end ScratchExport.Archive
