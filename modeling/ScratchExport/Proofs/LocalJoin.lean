import ScratchExport.Proofs.LocalUrl

/-!
# References at a local address

Joining a local address with a reference that names neither scheme nor host gives a local address
again, and the path of that address has no step to another folder in it, whatever the reference is
made of (`join_reference`). The reference loses its tabs and line ends before anything else is done
with it, so that what they kept apart is resolved as well; parameters are put back behind the last
segment and make it longer; and a step above the root is dropped.

Two references to a file lead to the same place when one of them is read at an address in a folder
and the other one folder below (`join_file`, `join_sibling`).
-/

namespace ScratchExport.Url

variable {cs ds s last scheme : List Char} {c d : Char} {inner ss done steps : List (List Char)}
  {u : Parts}

/-! ### Parts of a URL -/

/-- A character that is not taken out of a URL. -/
abbrev IsKept (c : Char) : Prop :=
  c ≠ '\t' ∧ c ≠ '\r' ∧ c ≠ '\n'

theorem isKept_of_mem_clean (h : c ∈ clean cs) : IsKept c := by
  have := (List.mem_filter.1 h).2
  simp only [Bool.not_eq_true', Bool.or_eq_false_iff, beq_eq_false_iff_ne] at this
  exact ⟨this.1.1, this.1.2, this.2⟩

theorem mem_of_mem_scheme? {name rest : List Char} (h : scheme? cs = some (name, rest))
    (hc : c ∈ rest) : c ∈ cs := by
  unfold scheme? at h
  dsimp only at h
  cases hname : cs.takeWhile (· != ':') with
  | nil => rw [hname] at h; cases h
  | cons first more =>
    cases hrest : cs.dropWhile (· != ':') with
    | nil => rw [hname, hrest] at h; cases h
    | cons mark after =>
      rw [hname, hrest] at h
      split at h
      · rename_i heq
        cases heq
        split_ifs at h
        cases h
        exact (List.dropWhile_sublist _).subset (hrest ▸ List.mem_cons_of_mem _ hc)
      · cases h

theorem mem_of_mem_authority (h : c ∈ (authority cs).2) : c ∈ cs := by
  unfold authority at h
  split at h
  · exact List.mem_cons_of_mem _ (List.mem_cons_of_mem _ ((List.dropWhile_sublist _).subset h))
  · exact h

theorem mem_cutAt_fst (h : c ∈ (cutAt d cs).1) : c ∈ cs ∧ c ≠ d := by
  refine ⟨(List.takeWhile_sublist _).subset h, ?_⟩
  simpa using List.mem_takeWhile_imp h

theorem mem_cutAt_snd (h : c ∈ (cutAt d cs).2) : c ∈ cs :=
  (List.dropWhile_sublist _).subset ((List.drop_sublist _ _).subset h)

/-- Parts as they come out of a URL. -/
structure Parts.Clean (u : Parts) : Prop where
  path : ∀ c ∈ u.path, c ≠ '?' ∧ c ≠ '#' ∧ IsKept c
  query : ∀ c ∈ u.query, c ≠ '#' ∧ IsKept c
  fragment : ∀ c ∈ u.fragment, IsKept c
  rooted : u.authority ≠ [] → u.path = [] ∨ ∃ rest, u.path = '/' :: rest

theorem splitWith_eq (scheme cs : List Char) : splitWith scheme cs =
    let found := (scheme? (clean cs)).getD (scheme, clean cs)
    let located := authority found.2
    let cut := cutAt '#' located.2
    if isAuthority located.1 then
      .ok ⟨found.1, located.1, (cutAt '?' cut.1).1, (cutAt '?' cut.1).2, cut.2⟩
    else .error .badUrl := rfl

/-- Behind an authority there is a path from the root, or none. -/
theorem authority_rooted (h : (authority cs).1 ≠ []) :
    (cutAt '?' (cutAt '#' (authority cs).2).1).1 = [] ∨
    ∃ rest, (cutAt '?' (cutAt '#' (authority cs).2).1).1 = '/' :: rest := by
  unfold authority at h ⊢
  split at h
  · rename_i rest
    dsimp only
    cases hrest : rest.dropWhile (fun c => !(c == '/' || c == '?' || c == '#')) with
    | nil => exact .inl rfl
    | cons c more =>
      have hc := List.head_dropWhile_not (fun c => !(c == '/' || c == '?' || c == '#'))
        (l := rest) (by rw [hrest]; simp)
      simp only [hrest, List.head_cons, Bool.not_eq_false', Bool.or_eq_true, beq_iff_eq] at hc
      rcases hc with (rfl | rfl) | rfl
      · exact .inr ⟨_, rfl⟩
      · exact .inl rfl
      · exact .inl rfl
  · exact absurd rfl h

theorem splitWith_clean (h : splitWith scheme cs = .ok u) : u.Clean := by
  rw [splitWith_eq] at h
  dsimp only at h
  have hkept : ∀ c ∈ (authority ((scheme? (clean cs)).getD (scheme, clean cs)).2).2, IsKept c := by
    intro c hc
    have hc := mem_of_mem_authority hc
    cases hscheme : scheme? (clean cs) with
    | none => rw [hscheme] at hc; exact isKept_of_mem_clean hc
    | some found => rw [hscheme] at hc; exact isKept_of_mem_clean (mem_of_mem_scheme? hscheme hc)
  split_ifs at h
  cases h
  constructor
  · intro c hc
    obtain ⟨hc, hquery⟩ := mem_cutAt_fst hc
    obtain ⟨hc, hfragment⟩ := mem_cutAt_fst hc
    exact ⟨hquery, hfragment, hkept c hc⟩
  · intro c hc
    obtain ⟨hc, hfragment⟩ := mem_cutAt_fst (mem_cutAt_snd hc)
    exact ⟨hfragment, hkept c hc⟩
  · intro c hc
    exact hkept c (mem_cutAt_snd hc)
  · exact authority_rooted

theorem scheme?_point (cs : List Char) : scheme? ('.' :: cs) = none := by
  rw [scheme?, List.takeWhile_cons_of_pos (by decide)]
  split
  · rename_i heq _
    rw [List.cons.injEq] at heq
    rw [← heq.1]
    rfl
  · rfl

/-- A reference that starts with a point has neither scheme nor host. -/
theorem splitWith_point (scheme cs : List Char) :
    ∃ u, splitWith scheme ('.' :: cs) = .ok u ∧ u.scheme = scheme ∧
    u.authority = [] ∧ ∃ rest, u.path = '.' :: rest ∧ ∀ after, cs = '/' :: after →
      ∃ below, rest = '/' :: below := by
  obtain ⟨kept, hkept, hslash⟩ : ∃ kept, clean ('.' :: cs) = '.' :: kept ∧
      ∀ after, cs = '/' :: after → ∃ below, kept = '/' :: below := by
    refine ⟨cs.filter fun c => !(c == '\t' || c == '\r' || c == '\n'), rfl, ?_⟩
    rintro after rfl
    exact ⟨_, rfl⟩
  have hauthority : authority ('.' :: kept) = ([], '.' :: kept) := rfl
  rw [splitWith_eq, hkept, scheme?_point, Option.getD_none]
  dsimp only
  rw [hauthority]
  refine ⟨_, rfl, rfl, rfl, _, rfl, ?_⟩
  intro after hafter
  obtain ⟨below, rfl⟩ := hslash after hafter
  exact ⟨_, rfl⟩

theorem splitWith_unmarked (scheme : List Char) (h : ∀ c ∈ cs, c ≠ '?' ∧ c ≠ '#' ∧ IsKept c) :
    splitWith scheme ('.' :: cs) = .ok ⟨scheme, [], '.' :: cs, [], []⟩ := by
  have hmarks : ∀ c ∈ '.' :: cs, c ≠ '?' ∧ c ≠ '#' ∧ IsKept c :=
    List.forall_mem_cons.2 ⟨by decide, h⟩
  have hclean : clean ('.' :: cs) = '.' :: cs := by
    refine clean_eq (fun c hc => (hmarks c hc).2.2) fun c hc => ?_
    cases hc
    decide
  have hauthority : authority ('.' :: cs) = ([], '.' :: cs) := rfl
  have hfragment : cutAt '#' ('.' :: cs) = ('.' :: cs, []) := cutAt_of_not_mem fun hin =>
    (hmarks _ hin).2.1 rfl
  have hquery : cutAt '?' ('.' :: cs) = ('.' :: cs, []) := cutAt_of_not_mem fun hin =>
    (hmarks _ hin).1 rfl
  rw [splitWith_eq, hclean, scheme?_point, Option.getD_none]
  dsimp only
  rw [hauthority]
  dsimp only
  rw [hfragment]
  dsimp only
  rw [hquery]
  rfl

/-! ### Putting a local address together -/

theorem appendPart_localChars (cs : List Char) (d : Char) (part : List Char) :
    appendPart (localChars cs) d part = localChars (appendPart cs d part) := by
  unfold appendPart localChars
  split_ifs <;> simp

theorem appendPart_cons (c : Char) (cs : List Char) (d : Char) (part : List Char) :
    appendPart (c :: cs) d part = c :: appendPart cs d part := by
  unfold appendPart
  split_ifs <;> rfl

theorem mem_appendPart {part : List Char} (h : c ∈ appendPart cs d part) :
    c ∈ cs ∨ c = d ∨ c ∈ part := by
  unfold appendPart at h
  split_ifs at h
  · exact .inl h
  · simpa using h

theorem cutAt_appendPart {part : List Char} (h : d ∉ cs) :
    cutAt d (appendPart cs d part) = (cs, part) := by
  unfold appendPart
  split_ifs with hpart
  · rw [cutAt_of_not_mem h, List.isEmpty_iff.1 hpart]
  · have hne : ∀ e ∈ cs, (e != d) = true := by
      intro e he
      rw [bne_iff_ne]
      rintro rfl
      exact h he
    rw [cutAt, List.takeWhile_append_of_pos hne, List.dropWhile_append_of_pos hne,
      List.takeWhile_cons_of_neg (by simp), List.dropWhile_cons_of_neg (by simp), List.append_nil]
    rfl

theorem split_localChars (query fragment : List Char)
    (hpath : ∀ c ∈ cs, c ≠ '?' ∧ c ≠ '#' ∧ IsKept c) (hquery : ∀ c ∈ query, c ≠ '#' ∧ IsKept c)
    (hfragment : ∀ c ∈ fragment, IsKept c) :
    split (localChars (appendPart (appendPart cs '?' query) '#' fragment)) =
      .ok ⟨"https".toList, "local.invalid".toList, '/' :: cs, query, fragment⟩ := by
  have hkept : ∀ c ∈ appendPart (appendPart cs '?' query) '#' fragment, IsKept c := by
    intro c hc
    rcases mem_appendPart hc with hc | rfl | hc
    · rcases mem_appendPart hc with hc | rfl | hc
      exacts [(hpath c hc).2.2, by decide, (hquery c hc).2]
    exacts [by decide, hfragment c hc]
  have hfragmentMark : '#' ∉ '/' :: appendPart cs '?' query := by
    intro hin
    rcases List.mem_cons.1 hin with hin | hin
    · cases hin
    · rcases mem_appendPart hin with hin | hin | hin
      exacts [(hpath _ hin).2.1 rfl, absurd hin (by decide), (hquery _ hin).1 rfl]
  have hqueryMark : '?' ∉ '/' :: cs := by
    intro hin
    rcases List.mem_cons.1 hin with hin | hin
    exacts [absurd hin (by decide), (hpath _ hin).1 rfl]
  generalize htail : appendPart (appendPart cs '?' query) '#' fragment = tail at *
  have hclean : clean (localChars tail) = localChars tail := by
    refine clean_eq (fun c hc => ?_) fun c hc => ?_
    · rcases List.mem_append.1 hc with hc | hc
      · have horigin : ∀ c ∈ localOrigin.toList, IsKept c := List.all_iff_forall_prop.1 (by decide)
        exact horigin c hc
      · exact hkept c hc
    · rw [localChars_eq] at hc
      cases hc
      decide
  have hscheme : scheme? (localChars tail) =
      some ("https".toList, '/' :: '/' :: ("local.invalid".toList ++ '/' :: tail)) := rfl
  have hauthority : authority ('/' :: '/' :: ("local.invalid".toList ++ '/' :: tail)) =
      ("local.invalid".toList, '/' :: tail) := rfl
  have hcut : cutAt '#' ('/' :: tail) = ('/' :: appendPart cs '?' query, fragment) := by
    rw [← htail, ← appendPart_cons]
    exact cutAt_appendPart hfragmentMark
  have hcut' : cutAt '?' ('/' :: appendPart cs '?' query) = ('/' :: cs, query) := by
    rw [← appendPart_cons]
    exact cutAt_appendPart hqueryMark
  have hhost : isAuthority "local.invalid".toList = true := by decide
  simp only [split, splitWith, hclean, hscheme, Option.getD_some, hauthority, hcut, hcut', hhost,
    if_true]

/-- A path without the slash at its front. -/
def belowRoot : List Char → List Char
  | '/' :: rest => rest
  | path => path

theorem mem_of_mem_belowRoot (h : c ∈ belowRoot cs) : c ∈ cs := by
  unfold belowRoot at h
  split at h
  exacts [List.mem_cons_of_mem _ h, h]

theorem unsplit_local {path query fragment : List Char} (h : path ≠ []) :
    unsplit ⟨"https".toList, "local.invalid".toList, path, query, fragment⟩ =
      localChars (appendPart (appendPart (belowRoot path) '?' query) '#' fragment) := by
  rw [← appendPart_localChars, ← appendPart_localChars]
  cases path with
  | nil => exact absurd rfl h
  | cons c rest =>
    by_cases hc : c = '/'
    · subst hc; rfl
    · unfold unsplit belowRoot
      simp [hc, localChars_eq]

/-! ### Segments without steps -/

/-- No segment of a path is a step to another folder. -/
def NoSteps (path : List Char) : Prop :=
  ∀ s ∈ segments path, s ≠ ['.'] ∧ s ≠ ['.', '.']

theorem segments_slash (cs : List Char) : segments ('/' :: cs) = [] :: segments cs :=
  segments_append [] cs

theorem segments_joinWith (hne : ss ≠ []) (h : ∀ s ∈ ss, '/' ∉ s) :
    segments (Text.joinWith ['/'] ss) = ss := by
  obtain ⟨inner, last, rfl⟩ := ss.eq_nil_or_concat'.resolve_left hne
  rw [joinWith_eq_flatMap]
  exact segments_flatMap (fun s hs => h s (by simp [hs])) (h last (by simp))

theorem exists_segments_append (cs : List Char) (hds : '/' ∉ ds) :
    ∃ inner last, segments cs = inner ++ [last] ∧
    segments (cs ++ ds) = inner ++ [last ++ ds] := by
  obtain ⟨inner, last, hcs, heq⟩ := exists_segments cs
  have hslash : ∀ s ∈ inner ++ [last], '/' ∉ s := fun s hs => not_mem_of_mem_segments (hcs ▸ hs)
  refine ⟨inner, last, hcs, ?_⟩
  conv_lhs => rw [heq, List.append_assoc]
  refine segments_flatMap (fun s hs => hslash s (by simp [hs])) ?_
  rw [List.mem_append, not_or]
  exact ⟨hslash last (by simp), hds⟩

namespace NoSteps

theorem cons_slash (h : NoSteps cs) : NoSteps ('/' :: cs) := by
  intro s hs
  rw [segments_slash] at hs
  rcases List.mem_cons.1 hs with rfl | hs
  · simp
  · exact h s hs

theorem of_cons_slash (h : NoSteps ('/' :: cs)) : NoSteps cs := by
  intro s hs
  refine h s ?_
  rw [segments_slash]
  exact List.mem_cons_of_mem _ hs

theorem belowRoot (h : NoSteps cs) : NoSteps (belowRoot cs) := by
  unfold Url.belowRoot
  split
  · exact h.of_cons_slash
  · exact h

/-- Parameters make a segment that is no step, also of one that is. -/
theorem appendPart {ps : List Char} (h : NoSteps cs) (hps : '/' ∉ ps) :
    NoSteps (appendPart cs ';' ps) := by
  unfold Url.appendPart
  split_ifs
  · exact h
  · obtain ⟨inner, last, hcs, happend⟩ :=
      exists_segments_append cs (show '/' ∉ ';' :: ps by simpa using hps)
    intro s hs
    rw [happend] at hs
    rcases List.mem_append.1 hs with hs | hs
    · exact h s (by simp [hcs, hs])
    · rw [List.mem_singleton] at hs
      constructor <;> rintro rfl
      all_goals
        have hin : ';' ∈ last ++ ';' :: ps := by simp
        rw [← hs] at hin
        revert hin
        decide

theorem dropWhile_slash (h : NoSteps cs) : NoSteps (cs.dropWhile (· == '/')) := by
  induction cs with
  | nil => exact h
  | cons c rest ih =>
    rw [List.dropWhile_cons]
    split_ifs with hc
    · rw [beq_iff_eq] at hc
      subst hc
      exact ih h.of_cons_slash
    · exact h

end NoSteps

theorem mem_dropInnerEmpty (h : s ∈ dropInnerEmpty ss) : s ∈ ss := by
  unfold dropInnerEmpty at h
  split at h
  · exact h
  · exact h
  · rename_i a rest _
    rcases List.mem_append.1 h with h | h
    · rcases List.mem_cons.1 h with rfl | h
      · exact List.mem_cons_self
      · exact List.mem_cons_of_mem _ (List.mem_of_mem_dropLast (List.mem_of_mem_filter h))
    · exact List.mem_cons_of_mem _ ((List.drop_sublist _ _).subset h)

theorem mem_resolve (hdone : ∀ s ∈ done, s ≠ ['.'] ∧ s ≠ ['.', '.']) (h : s ∈ resolve done steps) :
    (s ≠ ['.'] ∧ s ≠ ['.', '.']) ∧ (s ∈ done ∨ s ∈ steps) := by
  induction steps generalizing done with
  | nil =>
    have hs := List.mem_reverse.1 h
    exact ⟨hdone s hs, .inl hs⟩
  | cons step rest ih =>
    rw [resolve] at h
    split_ifs at h with htwo hone
    · obtain ⟨hs, hin⟩ := ih (fun s hs => hdone s ((List.drop_sublist _ _).subset hs)) h
      exact ⟨hs, hin.imp (fun hin => (List.drop_sublist _ _).subset hin) (List.mem_cons_of_mem _)⟩
    · obtain ⟨hs, hin⟩ := ih hdone h
      exact ⟨hs, hin.imp_right (List.mem_cons_of_mem _)⟩
    · have hstep : step ≠ ['.'] ∧ step ≠ ['.', '.'] := by simpa using And.intro hone htwo
      obtain ⟨hs, hin⟩ := ih (List.forall_mem_cons.2 ⟨hstep, hdone⟩) h
      refine ⟨hs, ?_⟩
      rcases hin with hin | hin
      · rcases List.mem_cons.1 hin with rfl | hin
        exacts [.inr List.mem_cons_self, .inl hin]
      · exact .inr (List.mem_cons_of_mem _ hin)

theorem mem_joinSegments {base path : List Char} (h : s ∈ joinSegments base path) :
    s ∈ segments base ∨ s ∈ segments path := by
  unfold joinSegments at h
  split at h
  · exact .inr h
  · rcases List.mem_append.1 (mem_dropInnerEmpty h) with h | h
    · split_ifs at h
      exacts [.inl h, .inl (List.mem_of_mem_dropLast h)]
    · exact .inr h

theorem mem_of_mem_segments (h : s ∈ segments cs) (hc : c ∈ s) : c ∈ cs := by
  obtain ⟨inner, last, hcs, heq⟩ := exists_segments cs
  rw [hcs] at h
  rw [heq]
  rcases List.mem_append.1 h with h | h
  · exact List.mem_append_left _ (List.mem_flatMap.2 ⟨s, h, List.mem_append_left _ hc⟩)
  · rw [List.mem_singleton] at h
    exact List.mem_append_right _ (h ▸ hc)

theorem mem_joinWith_slash (h : c ∈ Text.joinWith ['/'] ss) : c = '/' ∨ ∃ s ∈ ss, c ∈ s :=
  (Text.mem_joinWith h).imp_left List.mem_singleton.1

/-- The segments of a joined path; where a step stood last, the path names a folder and ends in a
slash. -/
def joinedSegments (base path : List Char) : List (List Char) :=
  if (joinSegments base path).getLast?.getD [] ∈ [['.'], ['.', '.']] then
    resolve [] (joinSegments base path) ++ [[]]
  else resolve [] (joinSegments base path)

theorem joinPath_eq (base path : List Char) : joinPath base path =
    if Text.joinWith ['/'] (joinedSegments base path) = [] then ['/']
    else Text.joinWith ['/'] (joinedSegments base path) := by
  unfold joinPath joinedSegments
  dsimp only
  simp only [List.mem_cons, List.not_mem_nil, or_false, Bool.or_eq_true, beq_iff_eq]
  split
  · next h => rw [if_pos h]
  · next h => rw [if_neg h]

theorem mem_joinedSegments {base path : List Char} (h : s ∈ joinedSegments base path) :
    (s ≠ ['.'] ∧ s ≠ ['.', '.']) ∧ (s = [] ∨ s ∈ segments base ∨ s ∈ segments path) := by
  have hresolve (h : s ∈ resolve [] (joinSegments base path)) :
      (s ≠ ['.'] ∧ s ≠ ['.', '.']) ∧ (s = [] ∨ s ∈ segments base ∨ s ∈ segments path) := by
    obtain ⟨hstep, hin⟩ := mem_resolve (fun _ h => absurd h List.not_mem_nil) h
    exact ⟨hstep, .inr (mem_joinSegments (hin.resolve_left List.not_mem_nil))⟩
  unfold joinedSegments at h
  split_ifs at h
  · rcases List.mem_append.1 h with h | h
    · exact hresolve h
    · rw [List.mem_singleton] at h
      simp [h]
  · exact hresolve h

theorem joinPath_ne_nil (base path : List Char) : joinPath base path ≠ [] := by
  rw [joinPath_eq]
  split_ifs with h
  · simp
  · exact h

theorem noSteps_joinPath (base path : List Char) : NoSteps (joinPath base path) := by
  rw [joinPath_eq]
  split_ifs with hempty
  · unfold NoSteps
    decide
  · intro s hs
    have hne : joinedSegments base path ≠ [] := fun hnil => hempty (by rw [hnil]; rfl)
    rw [segments_joinWith hne] at hs
    · exact (mem_joinedSegments hs).1
    · intro s hs
      rcases (mem_joinedSegments hs).2 with rfl | hs | hs
      exacts [List.not_mem_nil, not_mem_of_mem_segments hs, not_mem_of_mem_segments hs]

theorem mem_joinPath {base path : List Char} (h : c ∈ joinPath base path) :
    c = '/' ∨ c ∈ base ∨ c ∈ path := by
  rw [joinPath_eq] at h
  split_ifs at h
  · exact .inl (List.mem_singleton.1 h)
  · rcases mem_joinWith_slash h with h | ⟨s, hs, hc⟩
    · exact .inl h
    · rcases (mem_joinedSegments hs).2 with rfl | hs | hs
      · cases hc
      exacts [.inr (.inl (mem_of_mem_segments hs hc)), .inr (.inr (mem_of_mem_segments hs hc))]

/-! ### Joining -/

theorem lastSegment_eq (path : List Char) : ∃ inner last, segments path = inner ++ [last] ∧
    lastSegment path = (inner.flatMap (· ++ ['/']), last) := by
  obtain ⟨inner, last, hsegments, heq⟩ := exists_segments path
  refine ⟨inner, last, hsegments, ?_⟩
  conv_lhs => rw [heq]
  exact lastSegment_flatMap inner
    (not_mem_of_mem_segments (show last ∈ segments path by simp [hsegments]))

theorem parameters_spec (scheme path : List Char) : ∃ inner last name ps,
    Url.parameters scheme path = (inner.flatMap (· ++ ['/']) ++ name, ps) ∧
    segments path = inner ++ [last] ∧
      name ⊆ last ∧ ps ⊆ last ∧ (';' ∉ last → name = last ∧ ps = []) := by
  unfold Url.parameters
  split_ifs with hsemi
  · obtain ⟨inner, last, hsegments, heq⟩ := lastSegment_eq path
    rw [heq]
    refine ⟨inner, last, (cutAt ';' last).1, (cutAt ';' last).2, rfl, hsegments,
      fun c hc => (mem_cutAt_fst hc).1, fun c hc => mem_cutAt_snd hc, ?_⟩
    intro hlast
    rw [cutAt_of_not_mem hlast]
    exact ⟨rfl, rfl⟩
  · obtain ⟨inner, last, hsegments, heq⟩ := exists_segments path
    exact ⟨inner, last, last, [], by rw [← heq], hsegments, fun c hc => hc, List.nil_subset _,
      fun _ => ⟨rfl, rfl⟩⟩

theorem parameters_eq_self (h : ∀ last ∈ (segments cs).getLast?, ';' ∉ last) :
    Url.parameters scheme cs = (cs, []) := by
  obtain ⟨inner, last, name, ps, heq, hsegments, -, -, hlast⟩ := parameters_spec scheme cs
  obtain ⟨rfl, rfl⟩ := hlast (h last (by simp [hsegments]))
  rw [heq, ← joinWith_eq_flatMap, ← hsegments, joinWith_segments]

theorem mem_parameters_fst (h : c ∈ (Url.parameters scheme cs).1) : c ∈ cs := by
  obtain ⟨inner, last, name, ps, heq, hsegments, hname, -⟩ := parameters_spec scheme cs
  rw [heq] at h
  rw [← joinWith_segments cs, hsegments, joinWith_eq_flatMap]
  exact (List.mem_append.1 h).elim (List.mem_append_left _) fun h =>
    List.mem_append_right _ (hname h)

theorem mem_parameters_snd (h : c ∈ (Url.parameters scheme cs).2) : c ∈ cs ∧ c ≠ '/' := by
  obtain ⟨inner, last, name, ps, heq, hsegments, -, hps, -⟩ := parameters_spec scheme cs
  rw [heq] at h
  have hlast : last ∈ segments cs := by simp [hsegments]
  refine ⟨mem_of_mem_segments hlast (hps h), ?_⟩
  rintro rfl
  exact not_mem_of_mem_segments hlast (hps h)

/-- What stands before the parameters is not empty where the path starts with a point. -/
theorem parameters_point (scheme rest : List Char) :
    (Url.parameters scheme ('.' :: rest)).1 ≠ [] := by
  intro hnil
  unfold Url.parameters at hnil
  split_ifs at hnil
  obtain ⟨inner, last, hsegments, heq⟩ := lastSegment_eq ('.' :: rest)
  rw [heq] at hnil
  obtain ⟨hinner, hname⟩ := List.append_eq_nil_iff.1 hnil
  cases inner with
  | nil =>
    have hlast := joinWith_segments ('.' :: rest)
    rw [hsegments] at hlast
    cases hlast
    cases hname
  | cons s more => simp at hinner

theorem parameters_rooted (scheme : List Char) (h : cs = [] ∨ ∃ rest, cs = '/' :: rest) :
    (Url.parameters scheme cs).1 = [] ∨ ∃ rest, (Url.parameters scheme cs).1 = '/' :: rest := by
  unfold Url.parameters
  split_ifs
  · rcases h with rfl | ⟨rest, rfl⟩
    · exact .inl rfl
    · obtain ⟨inner, last, hsegments, heq⟩ := lastSegment_eq ('/' :: rest)
      rw [segments_slash] at hsegments
      rw [heq]
      cases inner with
      | nil => exact absurd (List.cons.inj hsegments).2 (segments_ne_nil rest)
      | cons s more =>
        rw [← (List.cons.inj hsegments).1]
        exact .inr ⟨_, rfl⟩
  · exact h

theorem join_eq {base url : List Char} {b : Parts} (hb : split base = .ok b) (hbase : base ≠ [])
    (hurl : url ≠ []) (hu : splitWith b.scheme url = .ok u) (hscheme : u.scheme = b.scheme)
    (hauthority : u.authority = []) (hrelative : schemeIn withRelative b.scheme = true)
    (hnet : schemeIn withAuthority b.scheme = true)
    (hpath : (Url.parameters b.scheme u.path).1 ≠ []) :
    join base url = .ok (unsplitWith ⟨b.scheme, b.authority,
      joinPath (Url.parameters b.scheme b.path).1 (Url.parameters b.scheme u.path).1, u.query,
      u.fragment⟩
      (Url.parameters b.scheme u.path).2) := by
  obtain ⟨basePath, baseParameters, hbaseParameters⟩ :
      ∃ path ps, Url.parameters b.scheme b.path = (path, ps) :=
    ⟨_, _, rfl⟩
  obtain ⟨path, ps, hparameters⟩ : ∃ path ps, Url.parameters b.scheme u.path = (path, ps) :=
    ⟨_, _, rfl⟩
  rw [hparameters] at hpath
  rw [join, if_neg (by simpa using hbase), if_neg (by simpa using hurl)]
  refine Outcome.bind_eq_ok.2 ⟨b, hb, ?_⟩
  simp only [hbaseParameters]
  refine Outcome.bind_eq_ok.2 ⟨u, hu, ?_⟩
  simp [hscheme, hparameters, hauthority, hrelative, hnet, hpath, Outcome.pure_eq_ok]

/-- An address with the local scheme and host. -/
structure Parts.IsLocal (u : Parts) : Prop where
  scheme : u.scheme = "https".toList
  authority : u.authority = "local.invalid".toList

theorem join_point {base : List Char} {b : Parts} (hb : split base = .ok b) (hlocal : b.IsLocal)
    (hu : splitWith b.scheme ('.' :: cs) = .ok u)
    (hpath : (Url.parameters b.scheme u.path).1 ≠ []) :
    join base ('.' :: cs) = .ok (localChars (appendPart (appendPart (belowRoot (appendPart
      (joinPath (Url.parameters b.scheme b.path).1 (Url.parameters b.scheme u.path).1) ';'
      (Url.parameters b.scheme u.path).2)) '?' u.query) '#' u.fragment)) := by
  obtain ⟨u', hu', hscheme, hauthority, -⟩ := splitWith_point b.scheme cs
  cases hu.symm.trans hu'
  have hbase : base ≠ [] := by
    rintro rfl
    cases hb
    exact absurd hlocal.scheme (by decide)
  have hrelative : schemeIn withRelative b.scheme = true := by rw [hlocal.scheme]; decide
  have hnet : schemeIn withAuthority b.scheme = true := by rw [hlocal.scheme]; decide
  rw [join_eq hb hbase (by simp) hu hscheme hauthority hrelative hnet hpath, unsplitWith]
  have hne := joinPath_ne_nil (Url.parameters b.scheme b.path).1 (Url.parameters b.scheme u.path).1
  rw [hlocal.scheme] at hne ⊢
  rw [hlocal.authority, unsplit_local]
  unfold appendPart
  split_ifs
  · exact hne
  · exact List.append_ne_nil_of_left_ne_nil hne _

/-- Such a reference leads to a local address whose path has no steps. -/
theorem join_reference {base : List Char} {b : Parts} (hb : split base = .ok b) (hlocal : b.IsLocal)
    (cs : List Char) :
    ∃ joined path query fragment, join base ('.' :: cs) = .ok joined ∧ NoSteps path ∧
      split joined = .ok ⟨"https".toList, "local.invalid".toList, '/' :: path, query,
        fragment⟩ := by
  obtain ⟨u, hu, -, -, rest, hrest, -⟩ := splitWith_point b.scheme cs
  have hbase := splitWith_clean hb
  have hclean := splitWith_clean hu
  have hslash : '/' ∉ (Url.parameters b.scheme u.path).2 := fun h => (mem_parameters_snd h).2 rfl
  refine ⟨_, _, _, _, join_point hb hlocal hu (hrest ▸ parameters_point _ _),
    ((noSteps_joinPath _ _).appendPart hslash).belowRoot,
    split_localChars _ _ ?_ hclean.query hclean.fragment⟩
  intro c hc
  rcases mem_appendPart (mem_of_mem_belowRoot hc) with hc | rfl | hc
  · rcases mem_joinPath hc with rfl | hc | hc
    · decide
    · exact hbase.path c (mem_parameters_fst hc)
    · exact hclean.path c (mem_parameters_fst hc)
  · decide
  · exact hclean.path c (mem_parameters_snd hc).1

/-! ### Files beside one another -/

/-- Segments that name folders or a file, one below the other. -/
def AreNames (ss : List (List Char)) : Prop :=
  ∀ s ∈ ss, s ≠ [] ∧ s ≠ ['.'] ∧ s ≠ ['.', '.']

/-- The folder of a path from the root. -/
def folderSegments (path : List Char) : List (List Char) :=
  ((if (segments path).getLast? == some [] then segments path else (segments path).dropLast).drop
    1).filter (!·.isEmpty)

theorem mem_folderSegments {path : List Char} (h : s ∈ folderSegments path) :
    s ≠ [] ∧ s ∈ segments path := by
  unfold folderSegments at h
  obtain ⟨h, hne⟩ := List.mem_filter.1 h
  refine ⟨by simpa using hne, ?_⟩
  have h := (List.drop_sublist _ _).subset h
  split_ifs at h
  exacts [h, List.mem_of_mem_dropLast h]

theorem dropInnerEmpty_concat (s : List Char) (inner : List (List Char)) (last : List Char) :
    dropInnerEmpty (s :: (inner ++ [last])) = s :: inner.filter (!·.isEmpty) ++ [last] := by
  obtain ⟨t, more, ht⟩ := List.exists_cons_of_ne_nil (l := inner ++ [last]) (by simp)
  rw [ht, dropInnerEmpty, ← ht]
  · simp
  · simp

theorem joinSegments_rooted {base path : List Char} (hbase : base = [] ∨ ∃ rest, base = '/' :: rest)
    (hpath : ∀ s ∈ segments path, s ≠ []) :
    joinSegments base path = [] :: folderSegments base ++ segments path := by
  obtain ⟨mid, hmid⟩ : ∃ mid, (if (segments base).getLast? == some [] then segments base
      else (segments base).dropLast) = [] :: mid := by
    rcases hbase with rfl | ⟨rest, rfl⟩
    · exact ⟨[], rfl⟩
    · obtain ⟨t, more, ht⟩ := List.exists_cons_of_ne_nil (segments_ne_nil rest)
      rw [segments_slash]
      split_ifs
      · exact ⟨_, rfl⟩
      · exact ⟨_, by rw [ht]; rfl⟩
  obtain ⟨inner, last, hsegments, -⟩ := exists_segments path
  have hkept : inner.filter (!·.isEmpty) = inner := by
    rw [List.filter_eq_self]
    intro s hs
    simpa using hpath s (by simp [hsegments, hs])
  unfold joinSegments folderSegments
  split
  · rename_i rest
    exact absurd rfl (hpath [] (by simp [segments_slash]))
  · dsimp only
    rw [hmid, hsegments, List.cons_append, ← List.append_assoc, dropInnerEmpty_concat,
      List.filter_append, hkept]
    simp

theorem resolve_append (done xs ys : List (List Char)) :
    resolve done (xs ++ ys) = resolve (resolve done xs).reverse ys := by
  induction xs generalizing done with
  | nil => simp [resolve]
  | cons x rest ih =>
    rw [List.cons_append, resolve, resolve]
    split_ifs <;> exact ih _

/-- An empty segment stays at the front, or it is dropped by a step above the root. -/
theorem resolve_root (hdone : (∀ s ∈ done, s ≠ []) ∨ ∃ ss, done = ss ++ [[]] ∧ ∀ s ∈ ss, s ≠ [])
    (hsteps : ∀ s ∈ steps, s ≠ []) :
    ∃ ss, (∀ s ∈ ss, s ≠ []) ∧ (resolve done steps = ss ∨ resolve done steps = [] :: ss) := by
  induction steps generalizing done with
  | nil =>
    rcases hdone with hdone | ⟨ss, rfl, hss⟩
    · exact ⟨done.reverse, fun s hs => hdone s (List.mem_reverse.1 hs), .inl rfl⟩
    · exact ⟨ss.reverse, fun s hs => hss s (List.mem_reverse.1 hs), .inr (by simp [resolve])⟩
  | cons step rest ih =>
    rw [List.forall_mem_cons] at hsteps
    rw [resolve]
    split_ifs
    · refine ih ?_ hsteps.2
      rcases hdone with hdone | ⟨ss, rfl, hss⟩
      · exact .inl fun s hs => hdone s ((List.drop_sublist _ _).subset hs)
      · cases ss with
        | nil => exact .inl (by simp)
        | cons s more => exact .inr ⟨more, rfl, fun t ht => hss t (List.mem_cons_of_mem _ ht)⟩
    · exact ih hdone hsteps.2
    · refine ih ?_ hsteps.2
      rcases hdone with hdone | ⟨ss, rfl, hss⟩
      · exact .inl (List.forall_mem_cons.2 ⟨hsteps.1, hdone⟩)
      · exact .inr ⟨step :: ss, rfl, List.forall_mem_cons.2 ⟨hsteps.1, hss⟩⟩

theorem joinWith_cons_nil (h : ss ≠ []) :
    Text.joinWith ['/'] ([] :: ss) = '/' :: Text.joinWith ['/'] ss := by
  obtain ⟨t, more, rfl⟩ := List.exists_cons_of_ne_nil h
  rfl

theorem belowRoot_joinWith (h : ∀ s ∈ ss, s ≠ [] ∧ '/' ∉ s) :
    belowRoot (Text.joinWith ['/'] ss) = Text.joinWith ['/'] ss := by
  unfold belowRoot
  split
  · rename_i rest heq
    cases ss with
    | nil => cases heq
    | cons t more =>
      obtain ⟨hne, hslash⟩ := h t (by simp)
      obtain ⟨c, cs, rfl⟩ := List.exists_cons_of_ne_nil hne
      have hc : c = '/' := by
        cases more with
        | nil => rw [Text.joinWith] at heq; exact (List.cons.inj heq).1
        | cons u more => exact (List.cons.inj heq).1
      exact absurd (by simp [hc]) hslash
  · rfl

/-- The folder in which a reference at a path leads to what it names. -/
def homeSegments (base : List Char) (step : List Char) : List (List Char) :=
  (resolve [] ([] :: folderSegments base ++ [step])).filter (!·.isEmpty)

theorem mem_homeSegments {base step : List Char} (hstep : step = ['.'] ∨ step = ['.', '.'])
    (h : s ∈ homeSegments base step) :
    (s ≠ [] ∧ s ≠ ['.'] ∧ s ≠ ['.', '.']) ∧ s ∈ segments base := by
  obtain ⟨h, hne⟩ := List.mem_filter.1 h
  have hne : s ≠ [] := by simpa using hne
  obtain ⟨hsteps, hin⟩ := mem_resolve (fun _ h => absurd h List.not_mem_nil) h
  refine ⟨⟨hne, hsteps⟩, ?_⟩
  rcases List.mem_append.1 (hin.resolve_left List.not_mem_nil) with hin | hin
  · exact (mem_folderSegments ((List.mem_cons.1 hin).resolve_left hne)).2
  · rw [List.mem_singleton] at hin
    rcases hstep with rfl | rfl
    exacts [absurd hin hsteps.1, absurd hin hsteps.2]

theorem belowRoot_joinPath {base step file : List Char}
    (hbase : base = [] ∨ ∃ rest, base = '/' :: rest) (hstep : step = ['.'] ∨ step = ['.', '.'])
    (hfile : AreNames (segments file)) :
    belowRoot (joinPath base (step ++ '/' :: file)) =
      Text.joinWith ['/'] (homeSegments base step ++ segments file) := by
  have hreference : segments (step ++ '/' :: file) = step :: segments file := by
    rw [segments_append, segments_of_not_mem (by rcases hstep with rfl | rfl <;> decide)]
    rfl
  have hnonempty : ∀ s ∈ folderSegments base ++ [step], s ≠ [] := by
    intro s hs
    rcases List.mem_append.1 hs with hs | hs
    · exact (mem_folderSegments hs).1
    · rw [List.mem_singleton] at hs
      rcases hstep with rfl | rfl <;> simp [hs]
  have hjoin : joinSegments base (step ++ '/' :: file) = [] :: folderSegments base ++ [step] ++
      segments file := by
    rw [joinSegments_rooted hbase, hreference]
    · simp
    · rw [hreference]
      exact List.forall_mem_cons.2 ⟨hnonempty step (by simp), fun s hs => (hfile s hs).1⟩
  have hlast : ¬ (joinSegments base (step ++ '/' :: file)).getLast?.getD [] ∈ [['.'],
      ['.', '.']] := by
    obtain ⟨inner, last, hsegments, -⟩ := exists_segments file
    rw [hjoin, hsegments, ← List.append_assoc, List.getLast?_concat, Option.getD_some]
    obtain ⟨-, hone, htwo⟩ := hfile last (by simp [hsegments])
    simp [hone, htwo]
  have hresolved : joinedSegments base (step ++ '/' :: file) =
      resolve [] ([] :: folderSegments base ++ [step]) ++ segments file := by
    rw [joinedSegments, if_neg hlast, hjoin, resolve_append, resolve_eq_append fun s hs =>
      (hfile s hs).2, List.reverse_reverse]
  have hall : ∀ s ∈ homeSegments base step ++ segments file, s ≠ [] ∧ '/' ∉ s := by
    intro s hs
    rcases List.mem_append.1 hs with hs | hs
    · obtain ⟨⟨hne, -⟩, hin⟩ := mem_homeSegments hstep hs
      exact ⟨hne, not_mem_of_mem_segments hin⟩
    · exact ⟨(hfile s hs).1, not_mem_of_mem_segments hs⟩
  have hsome : homeSegments base step ++ segments file ≠ [] := by simp [segments_ne_nil]
  have hchars : Text.joinWith ['/'] (homeSegments base step ++ segments file) ≠ [] := by
    intro hnil
    have hback := segments_joinWith hsome fun s hs => (hall s hs).2
    rw [hnil] at hback
    exact (hall [] (by rw [← hback]; exact List.mem_cons_self)).1 rfl
  -- Of what is resolved only the empty segment for the root is left out of the folder.
  obtain ⟨ss, hss, hroot⟩ :
      ∃ ss, (∀ s ∈ ss, s ≠ []) ∧ (resolve [[]] (folderSegments base ++ [step]) = ss ∨
      resolve [[]] (folderSegments base ++ [step]) = [] :: ss) :=
      resolve_root (.inr ⟨[], rfl, by simp⟩) hnonempty
  have hkept : ss.filter (!·.isEmpty) = ss := by
    rw [List.filter_eq_self]
    intro s hs
    simpa using hss s hs
  have hresolve :
      resolve [] ([] :: folderSegments base ++ [step]) = resolve [[]]
      (folderSegments base ++ [step]) := by
    rw [List.cons_append, resolve, if_neg (by decide), if_neg (by decide)]
  rw [joinPath_eq, hresolved]
  unfold homeSegments at hall hsome hchars ⊢
  rw [hresolve] at hall hsome hchars ⊢
  rcases hroot with hroot | hroot
  · rw [hroot, hkept] at hall hchars ⊢
    rw [if_neg hchars, belowRoot_joinWith hall]
  · rw [hroot, List.filter_cons_of_neg (by simp), hkept] at hsome ⊢
    rw [List.cons_append, joinWith_cons_nil hsome, if_neg (by simp)]
    rfl

/-- A reference to a file, by a step and its names, leads to the folder of the address after that
step. -/
theorem join_file {base step file : List Char} {b : Parts} (hb : split base = .ok b)
    (hlocal : b.IsLocal) (hstep : step = ['.'] ∨ step = ['.', '.'])
    (hfile : AreNames (segments file)) (hmarks : ∀ c ∈ file, c ≠ '?' ∧ c ≠ '#' ∧ IsKept c)
    (hsemi : ';' ∉ file) :
    join base (step ++ '/' :: file) =
      .ok (localChars
        (Text.joinWith ['/'] (homeSegments (Url.parameters b.scheme b.path).1 step ++
        segments file))) := by
  obtain ⟨cs, hcs⟩ : ∃ cs, step ++ '/' :: file = '.' :: cs := by
    rcases hstep with rfl | rfl <;> exact ⟨_, rfl⟩
  have hreference : ∀ c ∈ step ++ '/' :: file, (c ≠ '?' ∧ c ≠ '#' ∧ IsKept c) ∧ c ≠ ';' := by
    intro c hc
    rcases List.mem_append.1 hc with hc | hc
    · have hpoint : c = '.' := by rcases hstep with rfl | rfl <;> simpa using hc
      rw [hpoint]
      decide
    · rcases List.mem_cons.1 hc with rfl | hc
      · decide
      · exact ⟨hmarks c hc, fun heq => hsemi (heq ▸ hc)⟩
  have hparameters : Url.parameters b.scheme (step ++ '/' :: file) = (step ++ '/' :: file, []) := by
    rw [Url.parameters, if_neg]
    rw [Bool.and_eq_true, List.contains_iff_mem, not_and]
    intro _ hin
    exact (hreference _ hin).2 rfl
  have hrooted := (splitWith_clean hb).rooted (by rw [hlocal.authority]; decide)
  have hjoin := belowRoot_joinPath (parameters_rooted b.scheme hrooted) hstep hfile
  rw [hcs] at hreference hparameters hjoin ⊢
  have hu := splitWith_unmarked b.scheme fun c hc => (hreference c (List.mem_cons_of_mem _ hc)).1
  rw [join_point hb hlocal hu (by rw [hparameters]; simp), hparameters]
  exact congrArg (fun path => Except.ok (localChars path)) hjoin

/-- What lies one folder up from a file is the folder in which the file's own folder is. -/
theorem homeSegments_up {folder name : List Char} (hinner : AreNames (inner ++ [folder]))
    (hname : name ≠ []) (hslash : ∀ s ∈ inner ++ [folder, name], '/' ∉ s) :
    homeSegments ('/' :: Text.joinWith ['/'] (inner ++ [folder, name])) ['.', '.'] = inner := by
  have hkept : ∀ ss, AreNames ss → ss.filter (!·.isEmpty) = ss := by
    intro ss hss
    rw [List.filter_eq_self]
    intro s hs
    simpa using (hss s hs).1
  have hsegments :
      segments ('/' :: Text.joinWith ['/'] (inner ++ [folder, name])) = [] :: (inner ++ [folder]) ++
      [name] := by
    rw [segments_slash, segments_joinWith (by simp) hslash]
    simp
  have hfolder : folderSegments ('/' :: Text.joinWith ['/'] (inner ++ [folder, name])) = inner ++
      [folder] := by
    rw [folderSegments, hsegments, List.getLast?_concat, if_neg (by simpa using hname),
      List.dropLast_concat]
    exact hkept _ hinner
  have hnames : AreNames inner := fun s hs => hinner s (List.mem_append_left _ hs)
  rw [homeSegments, hfolder, List.cons_append, resolve, if_neg (by decide), if_neg (by decide),
    resolve_append, resolve_eq_append fun s hs => (hinner s hs).2]
  simp [resolve, hkept _ hnames]

/-- Two files beside an address, each in a folder of its own: the way from the address to the second
is also the way from the first, one folder up. -/
theorem join_sibling {base folder name file : List Char} {b : Parts} (hb : split base = .ok b)
    (hlocal : b.IsLocal) (hsegments : segments (folder ++ '/' :: name) = [folder, name])
    (hnames : AreNames [folder, name])
    (hmarks : ∀ c ∈ folder ++ '/' :: name, (c ≠ '?' ∧ c ≠ '#' ∧ IsKept c) ∧ c ≠ ';')
    (hfile : AreNames (segments file))
    (hfileMarks : ∀ c ∈ file, (c ≠ '?' ∧ c ≠ '#' ∧ IsKept c) ∧ c ≠ ';') :
    ∃ home url, join base ('.' :: '/' :: (folder ++ '/' :: name)) = .ok home ∧
    join base ('.' :: '/' :: file) = .ok url ∧
      join home ('.' :: '.' :: '/' :: file) = .ok url := by
  have hfirst := join_file hb hlocal (.inl rfl) (by rw [hsegments]; exact hnames) (fun c hc =>
    (hmarks c hc).1) fun hin => (hmarks _ hin).2 rfl
  have hsecond := join_file hb hlocal (.inl rfl) hfile (fun c hc => (hfileMarks c hc).1) fun hin =>
    (hfileMarks _ hin).2 rfl
  refine ⟨_, _, hfirst, hsecond, ?_⟩
  rw [hsegments]
  have hhome : ∀ s ∈ homeSegments (Url.parameters b.scheme b.path).1 ['.'],
      (s ≠ [] ∧ s ≠ ['.'] ∧ s ≠ ['.', '.']) ∧
      s ∈ segments (Url.parameters b.scheme b.path).1 := fun s hs => mem_homeSegments (.inl rfl) hs
  generalize homeSegments (Url.parameters b.scheme b.path).1 ['.'] = inner at hhome ⊢
  have hslash : ∀ s ∈ inner ++ [folder, name], '/' ∉ s := by
    intro s hs
    rcases List.mem_append.1 hs with hs | hs
    · exact not_mem_of_mem_segments (hhome s hs).2
    · exact not_mem_of_mem_segments (hsegments ▸ hs)
  have hpath : ∀ c ∈ Text.joinWith ['/'] (inner ++ [folder, name]), c ≠ '?' ∧ c ≠ '#' ∧
      IsKept c := by
    intro c hc
    rcases mem_joinWith_slash hc with rfl | ⟨s, hs, hc⟩
    · decide
    · rcases List.mem_append.1 hs with hs | hs
      · exact (splitWith_clean hb).path c
          (mem_parameters_fst (mem_of_mem_segments (hhome s hs).2 hc))
      · exact (hmarks c (mem_of_mem_segments (hsegments ▸ hs) hc)).1
  have hsplit : split (localChars (Text.joinWith ['/'] (inner ++ [folder, name]))) =
      .ok ⟨"https".toList, "local.invalid".toList,
        '/' :: Text.joinWith ['/'] (inner ++ [folder, name]), [], []⟩ :=
    split_localChars [] [] hpath (by simp) (by simp)
  have hup := join_file hsplit ⟨rfl, rfl⟩ (.inr rfl) hfile (fun c hc => (hfileMarks c hc).1)
    fun hin => (hfileMarks _ hin).2 rfl
  have hparameters :
      (Url.parameters "https".toList ('/' :: Text.joinWith ['/'] (inner ++ [folder, name]))).1 =
      '/' :: Text.joinWith ['/'] (inner ++ [folder, name]) := by
    rw [parameters_eq_self]
    intro last hlast
    rw [segments_slash,
      segments_joinWith (by simp) hslash, ← List.singleton_append, ← List.append_assoc,
      List.append_cons, List.getLast?_concat, Option.mem_some_iff] at hlast
    exact fun hin => (hmarks _ (by simp [hlast, hin])).2 rfl
  have hinner : AreNames (inner ++ [folder]) := by
    intro s hs
    rcases List.mem_append.1 hs with hs | hs
    · exact (hhome s hs).1
    · exact hnames s (by simp_all)
  rw [hparameters, homeSegments_up hinner (hnames name (by simp)).1 hslash] at hup
  exact hup

end ScratchExport.Url
