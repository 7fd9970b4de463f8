import ScratchExport.Proofs.CommentMarks

/-!
# Counting markers

A placeholder is marked by `/* TODO: Implement ` and a missing reference by `/* Missing `. `markers`
counts how often these stand in a text. They are found by reading: what is left of a marker is
remembered, and since a marker has its only slash in front, a character that does not fit leads back
to the start of the marker or behind its slash (`read_found`).

`Counted a b n s` is the count that composes. Around the text the reading is at the start of both
markers or, where `a` and `b` allow it, behind their slash, and the text itself has `n` of them. A
calm text has none.
-/

namespace ScratchExport.Marks

/-- How often a word stands in a text. -/
def occurrences (w cs : List Char) : Nat :=
  cs.tails.countP (w.isPrefixOf ·)

/-- The front of a placeholder. -/
def todoMarker : List Char := "/* TODO: Implement ".toList

/-- The front of what stands for something missing. -/
def missingMarker : List Char := "/* Missing ".toList

/-- How many placeholders and missing references a text marks. -/
def markers (s : String) : Nat :=
  occurrences todoMarker s.toList + occurrences missingMarker s.toList

/-- What is left to read of a marker, and how often it was found. -/
structure Reading where
  rest : List Char
  found : Nat
  deriving DecidableEq

/-- Read a character. -/
def advance (w : List Char) (r : Reading) (c : Char) : Reading :=
  if r.rest.head? = some c then
    if r.rest.tail = [] then ⟨w, r.found + 1⟩ else ⟨r.rest.tail, r.found⟩
  else if w.head? = some c then ⟨w.tail, r.found⟩
  else ⟨w, r.found⟩

/-- Read characters. -/
def read (w : List Char) (r : Reading) (cs : List Char) : Reading :=
  cs.foldl (advance w) r

variable {w t cs ds rest : List Char} {c : Char} {n k : Nat}

@[simp] theorem read_nil (r : Reading) : read w r [] = r := rfl

@[simp] theorem read_cons (r : Reading) : read w r (c :: cs) = read w (advance w r c) cs := rfl

@[simp] theorem read_append (r : Reading) : read w r (cs ++ ds) = read w (read w r cs) ds :=
  List.foldl_append

theorem occurrences_cons :
    occurrences w (c :: cs) = occurrences w cs + if w <+: c :: cs then 1 else 0 := by
  rw [occurrences, List.tails, List.countP_cons, occurrences]
  simp only [List.isPrefixOf_iff_prefix]

theorem advance_last : advance w ⟨[c], n⟩ c = ⟨w, n + 1⟩ := by
  simp [advance]

theorem advance_match (h : rest ≠ []) : advance w ⟨c :: rest, n⟩ c = ⟨rest, n⟩ := by
  simp [advance, h]

theorem advance_start {d : Char} (h : d ≠ '/') :
    advance ('/' :: t) ⟨d :: rest, n⟩ '/' = ⟨t, n⟩ := by
  simp [advance, h]

theorem advance_reset {d : Char} (hd : d ≠ c) (hc : c ≠ '/') :
    advance ('/' :: t) ⟨d :: rest, n⟩ c = ⟨'/' :: t, n⟩ := by
  simp [advance, hd, Ne.symm hc]

/-- A reading in the middle of a marker finds it if the rest stands in front, and all that stand in
the text. -/
theorem read_found (hslash : '/' ∉ t) (hne : t ≠ []) (cs : List Char) :
    ∀ rest n, rest <:+ '/' :: t → rest ≠ [] → (read ('/' :: t) ⟨rest, n⟩ cs).found =
      n + (if rest ≠ '/' :: t ∧ rest <+: cs then 1 else 0) + occurrences ('/' :: t) cs := by
  induction cs with
  | nil =>
    intro rest n _ hrest
    simp [occurrences, hrest]
  | cons c cs ih =>
    intro rest n hsuffix hrest
    obtain ⟨d, more, rfl⟩ := List.exists_cons_of_ne_nil hrest
    have hmore : more <:+ '/' :: t := (List.suffix_cons d more).trans hsuffix
    -- A proper rest of the marker starts with another character than the marker.
    have hproper : d :: more ≠ '/' :: t → d ≠ '/' := by
      rintro hwhole rfl
      rcases List.suffix_cons_iff.1 hsuffix with h | h
      · exact hwhole h
      · exact hslash (h.mem (List.mem_cons_self ..))
    rw [read_cons, occurrences_cons]
    simp only [List.cons_prefix_cons]
    by_cases hc : d = c
    · subst hc
      by_cases hlast : more = []
      · subst hlast
        have hd : d ≠ '/' := hproper fun heq => hne (List.cons.inj heq).2.symm
        rw [advance_last, ih _ _ (List.suffix_refl _) (List.cons_ne_nil _ _)]
        simp [hd, Ne.symm hd]
      · have hshorter : more ≠ '/' :: t := by
          rintro rfl
          exact absurd hsuffix.length_le (by simp)
        rw [advance_match hlast, ih more n hmore hlast]
        by_cases hwhole : d :: more = '/' :: t
        · obtain ⟨rfl, rfl⟩ := List.cons.inj hwhole
          simp
          omega
        · have hd := hproper hwhole
          simp [hshorter, hd, Ne.symm hd]
    · by_cases hstart : c = '/'
      · subst hstart
        rw [advance_start hc, ih t n (List.suffix_cons ..) hne]
        simp [hc]
        omega
      · rw [advance_reset hc hstart, ih _ n (List.suffix_refl _) (List.cons_ne_nil _ _)]
        simp [hc, Ne.symm hstart]

/-- A word that opens a comment and has no other slash. -/
def IsMarker (w : List Char) : Prop :=
  ∃ t, w = '/' :: '*' :: t ∧ '/' ∉ t

theorem isMarker_todo : IsMarker todoMarker := ⟨" TODO: Implement ".toList, by decide, by decide⟩

theorem isMarker_missing : IsMarker missingMarker := ⟨" Missing ".toList, by decide, by decide⟩

theorem IsMarker.read_found (hw : IsMarker w) : (read w ⟨w, 0⟩ cs).found = occurrences w cs := by
  obtain ⟨t, rfl, hslash⟩ := hw
  have hfound := Marks.read_found (t := '*' :: t) (by simp [hslash]) (List.cons_ne_nil _ _) cs _ 0
    (List.suffix_refl _) (List.cons_ne_nil _ _)
  simpa using hfound

/-! ### Counts that compose -/

/-- A reading at the start of a marker, or behind its slash. -/
def place (w : List Char) (slash : Bool) (found : Nat) : Reading :=
  ⟨if slash then w.tail else w, found⟩

/-- A calm text has no marker. -/
theorem read_of_run {p q : Bool} (hw : IsMarker w) (h : run p cs = some q) :
    read w (place w p k) cs = place w q k := by
  obtain ⟨t, rfl, -⟩ := hw
  induction cs generalizing p with
  | nil => cases h; rfl
  | cons c rest ih =>
    rw [run_cons, Option.bind_eq_some_iff] at h
    obtain ⟨slash, hnext, hrest⟩ := h
    have hstep : advance ('/' :: '*' :: t) (place ('/' :: '*' :: t) p k) c =
        place ('/' :: '*' :: t) slash k := by
      unfold next at hnext
      split_ifs at hnext with hopen
      cases hnext
      by_cases hc : c = '/'
      · subst hc
        cases p with
        | false => exact advance_match (List.cons_ne_nil _ _)
        | true => exact advance_start (by decide)
      · rw [beq_false_of_ne hc]
        cases p with
        | false => exact advance_reset (Ne.symm hc) hc
        | true =>
          have hstar : c ≠ '*' := by simpa using hopen
          exact advance_reset (Ne.symm hstar) hc
    rw [read_cons, hstep]
    exact ih hrest

/-- The text has `n` markers, where readings come to it and leave it at the start of the markers.
They may come to it behind the slash of the markers if `a`, and leave it so if `b`. -/
def Counted (a b : Bool) (n : Nat) (s : String) : Prop :=
  ∀ p ≤ a, ∃ q ≤ b, ∃ i j, i + j = n ∧
    (∀ k, read todoMarker (place todoMarker p k) s.toList = place todoMarker q (k + i)) ∧
    ∀ k, read missingMarker (place missingMarker p k) s.toList = place missingMarker q (k + j)

/-- What was found before makes no difference to the reading. -/
theorem read_add (w cs : List Char) (r : Reading) (k : Nat) :
    read w ⟨r.rest, k + r.found⟩ cs = ⟨(read w r cs).rest, k + (read w r cs).found⟩ := by
  have hstep (r : Reading) (c : Char) :
      advance w ⟨r.rest, k + r.found⟩ c = ⟨(advance w r c).rest, k + (advance w r c).found⟩ := by
    unfold advance
    split_ifs <;> rfl
  induction cs generalizing r with
  | nil => rfl
  | cons c rest ih => rw [read_cons, hstep, ih, read_cons]

theorem Calm.counted {a b : Bool} {s : String} (h : Calm a b s) : Counted a b 0 s := by
  intro p hp
  obtain ⟨q, hq, hrun⟩ := h p hp
  exact ⟨q, hq, 0, 0, rfl, fun _ => read_of_run isMarker_todo hrun,
    fun _ => read_of_run isMarker_missing hrun⟩

namespace Counted
variable {a b d : Bool} {m : Nat} {s u : String}

theorem fixed (i j : Nat) (hn : i + j = n)
    (htodo : read todoMarker ⟨todoMarker, 0⟩ cs = ⟨todoMarker, i⟩)
    (hmissing : read missingMarker ⟨missingMarker, 0⟩ cs = ⟨missingMarker, j⟩) :
    Counted false false n (String.ofList cs) := by
  intro p hp
  rw [le_bot_iff.1 hp, String.toList_ofList]
  refine ⟨false, le_rfl, i, j, hn, fun k => ?_, fun k => ?_⟩
  · have hread := read_add todoMarker cs ⟨todoMarker, 0⟩ k
    rwa [htodo] at hread
  · have hread := read_add missingMarker cs ⟨missingMarker, 0⟩ k
    rwa [hmissing] at hread

theorem append (hs : Counted a b m s) (hu : Counted b d n u) : Counted a d (m + n) (s ++ u) := by
  intro p hp
  obtain ⟨q, hq, i, j, hij, htodo, hmissing⟩ := hs p hp
  obtain ⟨r, hr, i', j', hij', htodo', hmissing'⟩ := hu q hq
  refine ⟨r, hr, i + i', j + j', by omega, fun k => ?_, fun k => ?_⟩
  · rw [String.toList_append, read_append, htodo, htodo', Nat.add_assoc]
  · rw [String.toList_append, read_append, hmissing, hmissing', Nat.add_assoc]

theorem between {first last : String} (hfirst : Calm false false first)
    (hs : Counted false false n s) (hlast : Calm false false last) :
    Counted false false n (first ++ s ++ last) := by
  have h := (hfirst.counted.append hs).append hlast.counted
  rwa [Nat.zero_add, Nat.add_zero] at h

theorem markers_eq (h : Counted false b n s) : markers s = n := by
  obtain ⟨q, -, i, j, hij, htodo, hmissing⟩ := h false le_rfl
  rw [markers, ← isMarker_todo.read_found, ← isMarker_missing.read_found]
  have htodo := congrArg Reading.found (htodo 0)
  have hmissing := congrArg Reading.found (hmissing 0)
  simp only [place, Nat.zero_add] at htodo hmissing
  rw [show (read todoMarker ⟨todoMarker, 0⟩ s.toList).found = i from htodo,
    show (read missingMarker ⟨missingMarker, 0⟩ s.toList).found = j from hmissing, hij]

end Counted

end ScratchExport.Marks
