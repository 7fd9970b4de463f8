import ScratchExport.Proofs.Identifier
import ScratchExport.Proofs.Outcome
import ScratchExport.Proofs.Pieces
import ScratchExport.Url.Relative

/-!
# References that keep their path

A reference `./path` that is read at a file right below the local origin leads to `path`, if a URL
can hold the path as it is: it has no mark that ends the path, none of its segments is empty or a
step to another folder, and what its last segment has in front of a `;` is no such step either
(`IsPlain`). The address is taken apart and put together again on the way, so each function that
does this gets an equation for plain paths.
-/

namespace ScratchExport.Url

variable {cs ds s last : List Char} {inner : List (List Char)}

/-! ### Segments -/

theorem segments_ne_nil (cs : List Char) : segments cs ≠ [] :=
  Text.splitWhere_ne_nil _ cs

@[simp] theorem segments_append (cs ds : List Char) :
    segments (cs ++ '/' :: ds) = segments cs ++ segments ds :=
  Text.splitWhere_append (p := (· == '/')) (by decide) cs ds

theorem segments_of_not_mem (h : '/' ∉ cs) : segments cs = [cs] :=
  Text.splitWhere_eq_singleton fun _ hc => beq_false_of_ne fun heq => h (heq ▸ hc)

theorem not_mem_of_mem_segments (h : s ∈ segments cs) : '/' ∉ s :=
  fun hin => by simpa using Name.not_separator_of_mem_splitWhere h '/' hin

theorem segments_flatMap (hinner : ∀ s ∈ inner, '/' ∉ s) (hlast : '/' ∉ last) :
    segments (inner.flatMap (· ++ ['/']) ++ last) = inner ++ [last] := by
  induction inner with
  | nil => exact segments_of_not_mem hlast
  | cons s rest ih =>
    have hrest := ih fun s hs => hinner s (by simp [hs])
    rw [List.flatMap_cons, List.append_assoc, List.append_assoc, List.singleton_append,
      segments_append, segments_of_not_mem (hinner s (by simp)), hrest]
    rfl

theorem joinWith_eq_flatMap (inner : List (List Char)) (last : List Char) :
    Text.joinWith ['/'] (inner ++ [last]) = inner.flatMap (· ++ ['/']) ++ last := by
  induction inner with
  | nil => rfl
  | cons s rest ih =>
    rw [List.cons_append, Text.joinWith_cons _ _ (by simp), ih, List.flatMap_cons,
      List.append_assoc, List.append_assoc, List.append_assoc]

theorem joinWith_segments (cs : List Char) : Text.joinWith ['/'] (segments cs) = cs :=
  Text.joinWith_splitWhere '/' cs

theorem exists_segments (cs : List Char) : ∃ inner last, segments cs = inner ++ [last] ∧
    cs = inner.flatMap (· ++ ['/']) ++ last := by
  obtain ⟨inner, last, h⟩ := (segments cs).eq_nil_or_concat.resolve_left (segments_ne_nil cs)
  rw [List.concat_eq_append] at h
  exact ⟨inner, last, h, by rw [← joinWith_eq_flatMap, ← h, joinWith_segments]⟩

/-! ### Plain paths -/

/-- A path that a URL holds as it is. -/
structure IsPlain (cs : List Char) : Prop where
  marks : ∀ c ∈ cs, c ≠ '?' ∧ c ≠ '#' ∧ c ≠ '\t' ∧ c ≠ '\r' ∧ c ≠ '\n'
  steps : ∀ s ∈ segments cs, s ≠ [] ∧ s ≠ ['.'] ∧ s ≠ ['.', '.']
  /-- The last segment may have parameters, which are kept unless they are empty. -/
  parameters : ∀ last ∈ (segments cs).getLast?, (cutAt ';' last).1 ≠ ['.'] ∧
    (cutAt ';' last).1 ≠ ['.', '.'] ∧ (';' ∈ last → (cutAt ';' last).2 ≠ [])

instance (cs : List Char) : Decidable (IsPlain cs) :=
  letI := List.decidableBAll (fun c => c ≠ '?' ∧ c ≠ '#' ∧ c ≠ '\t' ∧ c ≠ '\r' ∧ c ≠ '\n') cs
  decidable_of_iff (_ ∧ _ ∧ _) ⟨fun h => ⟨h.1, h.2.1, h.2.2⟩, fun h =>
    ⟨h.marks, h.steps, h.parameters⟩⟩

theorem IsPlain.below (h : IsPlain cs)
    (hmarks : ∀ c ∈ ds, c ≠ '?' ∧ c ≠ '#' ∧ c ≠ '\t' ∧ c ≠ '\r' ∧ c ≠ '\n') (hslash : '/' ∉ ds)
    (hsteps : ds ≠ [] ∧ ds ≠ ['.'] ∧ ds ≠ ['.', '.']) : IsPlain (ds ++ '/' :: cs) where
  marks c hc := by
    rcases List.mem_append.1 hc with hc | hc
    · exact hmarks c hc
    · rcases List.mem_cons.1 hc with rfl | hc
      · decide
      · exact h.marks c hc
  steps s hs := by
    rw [segments_append, segments_of_not_mem hslash, List.singleton_append, List.mem_cons] at hs
    rcases hs with rfl | hs
    · exact hsteps
    · exact h.steps s hs
  parameters last hlast := by
    rw [segments_append, List.getLast?_append_of_ne_nil _ (segments_ne_nil cs)] at hlast
    exact h.parameters last hlast

theorem cutAt_of_not_mem {c : Char} (h : c ∉ cs) : cutAt c cs = (cs, []) := by
  have hne : ∀ d ∈ cs, (d != c) = true := by
    intro d hd
    rw [bne_iff_ne]
    exact fun hdc => h (hdc ▸ hd)
  rw [cutAt, List.takeWhile_eq_self_iff.2 hne, List.dropWhile_eq_nil_iff.2 hne, List.drop_nil]

theorem appendPart_cutAt {c : Char} (h : c ∈ cs → (cutAt c cs).2 ≠ []) :
    appendPart (cutAt c cs).1 c (cutAt c cs).2 = cs := by
  by_cases hc : c ∈ cs
  · have hne := h hc
    have hrest : cs.dropWhile (· != c) = c :: (cutAt c cs).2 := by
      cases hdrop : cs.dropWhile (· != c) with
      | nil => simpa using List.dropWhile_eq_nil_iff.1 hdrop c hc
      | cons d more =>
        have hd := List.head_dropWhile_not (· != c) (l := cs) (by simp [hdrop])
        simp only [hdrop, List.head_cons, bne_eq_false_iff_eq] at hd
        rw [cutAt, hdrop, hd]
        rfl
    rw [appendPart, if_neg (by simpa using hne), ← hrest]
    exact List.takeWhile_append_dropWhile
  · rw [cutAt_of_not_mem hc]
    rfl

/-! ### Taking a plain address apart -/

theorem clean_eq (h : ∀ c ∈ cs, c ≠ '\t' ∧ c ≠ '\r' ∧ c ≠ '\n')
    (hfirst : ∀ c ∈ cs.head?, 0x20 < c.toNat) : clean cs = cs := by
  have hdrop : cs.dropWhile (·.toNat ≤ 0x20) = cs := by
    cases cs with
    | nil => rfl
    | cons c rest =>
      rw [List.dropWhile_cons_of_neg]
      have := hfirst c rfl
      simpa using this
  rw [clean, hdrop, List.filter_eq_self]
  intro c hc
  obtain ⟨htab, hreturn, hfeed⟩ := h c hc
  simp [htab, hreturn, hfeed]

/-- The address of a file below the local origin. -/
def localChars (cs : List Char) : List Char :=
  localOrigin.toList ++ cs

theorem localChars_eq (cs : List Char) :
    localChars cs = "https".toList ++ ':' :: '/' :: '/' :: ("local.invalid".toList ++ '/' :: cs) :=
  rfl

theorem split_local (h : ∀ c ∈ cs, c ≠ '?' ∧ c ≠ '#' ∧ c ≠ '\t' ∧ c ≠ '\r' ∧ c ≠ '\n') :
    split (localChars cs) = .ok ⟨"https".toList, "local.invalid".toList, '/' :: cs, [], []⟩ := by
  have hclean : clean (localChars cs) = localChars cs := by
    refine clean_eq (fun c hc => ?_) fun c hc => ?_
    · rcases List.mem_append.1 hc with hc | hc
      · have horigin : ∀ c ∈ localOrigin.toList, c ≠ '\t' ∧ c ≠ '\r' ∧ c ≠ '\n' :=
          List.all_iff_forall_prop.1 (by decide)
        exact horigin c hc
      · exact ⟨(h c hc).2.2.1, (h c hc).2.2.2.1, (h c hc).2.2.2.2⟩
    · rw [localChars_eq] at hc
      cases hc
      decide
  have hscheme : scheme? (localChars cs) =
      some ("https".toList, '/' :: '/' :: ("local.invalid".toList ++ '/' :: cs)) := rfl
  have hauthority : authority ('/' :: '/' :: ("local.invalid".toList ++ '/' :: cs)) =
      ("local.invalid".toList, '/' :: cs) := rfl
  have hfragment : cutAt '#' ('/' :: cs) = ('/' :: cs, []) :=
    cutAt_of_not_mem (by simpa using fun hin => (h _ hin).2.1 rfl)
  have hquery : cutAt '?' ('/' :: cs) = ('/' :: cs, []) :=
    cutAt_of_not_mem (by simpa using fun hin => (h _ hin).1 rfl)
  have hhost : isAuthority "local.invalid".toList = true := by decide
  simp only [split, splitWith, hclean, hscheme, Option.getD_some, hauthority, hfragment, hquery,
    hhost, if_true]

theorem splitWith_below (scheme : List Char)
    (h : ∀ c ∈ cs, c ≠ '?' ∧ c ≠ '#' ∧ c ≠ '\t' ∧ c ≠ '\r' ∧ c ≠ '\n') :
    splitWith scheme ('.' :: '/' :: cs) = .ok ⟨scheme, [], '.' :: '/' :: cs, [], []⟩ := by
  have hclean : clean ('.' :: '/' :: cs) = '.' :: '/' :: cs := by
    refine clean_eq (fun c hc => ?_) fun c hc => ?_
    · rcases List.mem_cons.1 hc with rfl | hc
      · decide
      · rcases List.mem_cons.1 hc with rfl | hc
        · decide
        · exact ⟨(h c hc).2.2.1, (h c hc).2.2.2.1, (h c hc).2.2.2.2⟩
    · cases hc
      decide
  have hscheme : scheme? ('.' :: '/' :: cs) = none := by
    rw [scheme?, List.takeWhile_cons_of_pos (by decide)]
    split
    · rename_i heq _
      rw [List.cons.injEq] at heq
      rw [← heq.1]
      rfl
    · rfl
  have hfragment : cutAt '#' ('.' :: '/' :: cs) = ('.' :: '/' :: cs, []) :=
    cutAt_of_not_mem (by simpa using fun hin => (h _ hin).2.1 rfl)
  have hquery : cutAt '?' ('.' :: '/' :: cs) = ('.' :: '/' :: cs, []) :=
    cutAt_of_not_mem (by simpa using fun hin => (h _ hin).1 rfl)
  have hauthority : authority ('.' :: '/' :: cs) = ([], '.' :: '/' :: cs) := rfl
  have hhost : isAuthority [] = true := rfl
  simp only [splitWith, hclean, hscheme, Option.getD_none, hauthority, hfragment, hquery, hhost,
    if_true]

theorem lastSegment_flatMap (inner : List (List Char)) (hlast : '/' ∉ last) :
    lastSegment (inner.flatMap (· ++ ['/']) ++ last) = (inner.flatMap (· ++ ['/']), last) := by
  have hne : ∀ d ∈ last.reverse, (d != '/') = true := by
    intro d hd
    rw [bne_iff_ne]
    exact fun hdc => hlast (hdc ▸ List.mem_reverse.1 hd)
  have hrest : (inner.flatMap (· ++ ['/'])).reverse.takeWhile (· != '/') = [] := by
    rcases inner.eq_nil_or_concat with rfl | ⟨front, s, rfl⟩
    · rfl
    · simp
  have hsegment : ((inner.flatMap (· ++ ['/']) ++ last).reverse.takeWhile (· != '/')).reverse =
      last := by
    rw [List.reverse_append, List.takeWhile_append_of_pos hne, hrest, List.append_nil,
      List.reverse_reverse]
  rw [lastSegment, hsegment, List.length_append, Nat.add_sub_cancel, List.take_left']
  rfl

/-- The parameters of a plain path are cut off its last segment, and what is left takes no step to
another folder. -/
theorem parameters_below (scheme : List Char) (h : IsPlain cs) : ∃ path ps,
    Url.parameters scheme ('.' :: '/' :: cs) = ('.' :: '/' :: path, ps) ∧
    appendPart path ';' ps = cs ∧
      (∀ s ∈ segments path, s ≠ ['.'] ∧ s ≠ ['.', '.']) ∧ ∀ s ∈ (segments path).dropLast,
      s ≠ [] := by
  obtain ⟨inner, last, hsegments, hcs⟩ := exists_segments cs
  have hslash : ∀ s ∈ inner ++ [last], '/' ∉ s := fun s hs =>
    not_mem_of_mem_segments (hsegments ▸ hs)
  obtain ⟨hname, hname', hempty⟩ := h.parameters last (by simp [hsegments])
  rw [Url.parameters]
  split
  · have hlast : lastSegment ('.' :: '/' :: cs) = ('.' :: '/' :: inner.flatMap (· ++ ['/']),
        last) := by
      have := lastSegment_flatMap (['.'] :: inner) (hslash last (by simp))
      rw [List.flatMap_cons, List.append_assoc, ← hcs] at this
      exact this
    rw [hlast]
    have hcut : '/' ∉ (cutAt ';' last).1 :=
      fun hin => hslash last (by simp) ((List.takeWhile_sublist _).subset hin)
    have hinner : ∀ s ∈ inner, '/' ∉ s := fun s hs => hslash s (by simp [hs])
    have hpath := segments_flatMap hinner hcut
    refine ⟨inner.flatMap (· ++ ['/']) ++ (cutAt ';' last).1, (cutAt ';' last).2, rfl, ?_,
      fun s hs => ?_, fun s hs => ?_⟩
    · have hback := appendPart_cutAt hempty
      rw [appendPart] at hback ⊢
      split at hback
      · rw [if_pos ‹_›, hback, ← hcs]
      · rw [if_neg ‹_›, List.append_assoc, hback, ← hcs]
    · rw [hpath] at hs
      rcases List.mem_append.1 hs with hs | hs
      · exact (h.steps s (by simp [hsegments, hs])).2
      · rw [List.mem_singleton] at hs
        subst hs
        exact ⟨hname, hname'⟩
    · rw [hpath, List.dropLast_concat] at hs
      exact (h.steps s (by simp [hsegments, hs])).1
  · exact ⟨cs, [], rfl, rfl, fun s hs => (h.steps s hs).2,
      fun s hs => (h.steps s (List.mem_of_mem_dropLast hs)).1⟩

/-! ### Joining -/

theorem resolve_eq_append {done steps : List (List Char)}
    (h : ∀ s ∈ steps, s ≠ ['.'] ∧ s ≠ ['.', '.']) : resolve done steps = done.reverse ++ steps := by
  induction steps generalizing done with
  | nil => simp [resolve]
  | cons s rest ih =>
    obtain ⟨hone, htwo⟩ := h s (by simp)
    rw [resolve, if_neg (by simpa using htwo), if_neg (by simpa using hone),
      ih fun s hs => h s (by simp [hs])]
    simp

/-- The base is a file right below the root, or the root itself. -/
theorem joinSegments_below {base path : List Char} (hbase : '/' ∉ base)
    (h : ∀ s ∈ (segments path).dropLast, s ≠ []) :
    joinSegments ('/' :: base) ('.' :: '/' :: path) = [] :: ['.'] :: segments path := by
  have hpath : segments ('.' :: '/' :: path) = ['.'] :: segments path := segments_append ['.'] path
  have hroot : segments ('/' :: base) = [[], base] := by
    have := segments_append [] base
    rw [segments_of_not_mem hbase] at this
    exact this
  obtain ⟨inner, last, hsegments, -⟩ := exists_segments path
  rw [hsegments, List.dropLast_concat] at h
  have hkept : inner.filter (!·.isEmpty) = inner := by
    rw [List.filter_eq_self]
    intro s hs
    simpa using h s hs
  -- The base gives one or two empty segments, of which the second is dropped again.
  have hdrop : ∀ front : List (List Char), (∀ s ∈ front, s = []) →
      dropInnerEmpty ([] :: front ++ ['.'] :: segments path) = [] :: ['.'] :: segments path := by
    intro front hfront
    have hnone : front.filter (!·.isEmpty) = [] := by
      rw [List.filter_eq_nil_iff]
      intro s hs
      simp [hfront s hs]
    rw [hsegments]
    show dropInnerEmpty ([] :: (front ++ ['.'] :: (inner ++ [last]))) = _
    have hsplit : front ++ ['.'] :: (inner ++ [last]) = front ++ (['.'] :: inner) ++ [last] := by
      simp
    obtain ⟨t, more, ht⟩ :=
      List.exists_cons_of_ne_nil (l := front ++ (['.'] :: inner) ++ [last]) (by simp)
    rw [hsplit, ht, dropInnerEmpty, ← ht]
    · rw [List.dropLast_concat, List.filter_append, hnone, List.filter_cons_of_pos (by simp), hkept,
        List.length_append, List.length_singleton, Nat.add_sub_cancel, List.drop_left']
      · simp
      · rfl
    · simp
  rw [joinSegments, hpath, hroot]
  · split
    · exact hdrop [base] (by simp_all)
    · exact hdrop [] (by simp)
  · simp

theorem joinPath_below {base path : List Char} (hbase : '/' ∉ base)
    (hsteps : ∀ s ∈ segments path, s ≠ ['.'] ∧ s ≠ ['.', '.'])
    (h : ∀ s ∈ (segments path).dropLast, s ≠ []) :
    joinPath ('/' :: base) ('.' :: '/' :: path) = '/' :: path := by
  have hresolve : resolve [] ([] :: ['.'] :: segments path) = [] :: segments path := by
    rw [resolve, if_neg (by decide), if_neg (by decide), resolve, if_neg (by decide),
      if_pos (by decide), resolve_eq_append hsteps]
    rfl
  obtain ⟨inner, last, hsegments, -⟩ := exists_segments path
  have hlast : ([] :: ['.'] :: segments path).getLast?.getD [] = last := by
    rw [hsegments, show [] :: ['.'] :: (inner ++ [last]) = ([] :: ['.'] :: inner) ++
      [last] from rfl, List.getLast?_concat]
    rfl
  obtain ⟨hone, htwo⟩ := hsteps last (by simp [hsegments])
  have hjoin : Text.joinWith ['/'] ([] :: segments path) = '/' :: path := by
    obtain ⟨s, more, hs⟩ := List.exists_cons_of_ne_nil (segments_ne_nil path)
    rw [hs, Text.joinWith, ← hs, joinWith_segments]
    · rfl
    · simp
  simp only [joinPath, joinSegments_below hbase h, hresolve, hlast]
  rw [if_neg (by simp [hone, htwo]), hjoin]

theorem unsplitWith_local {path ps : List Char} (h : appendPart path ';' ps = cs) :
    unsplitWith ⟨"https".toList, "local.invalid".toList, '/' :: path, [],
      []⟩ ps = localChars cs := by
  have happend : appendPart ('/' :: path) ';' ps = '/' :: cs := by
    rw [← h, appendPart, appendPart]
    split <;> rfl
  rw [unsplitWith, happend]
  rfl

/-- A reference `./path` at a file right below the local origin leads to the plain path. -/
theorem join_local {base : List Char} (hbase : '/' ∉ base ∧ ';' ∉ base)
    (hmarks : ∀ c ∈ base, c ≠ '?' ∧ c ≠ '#' ∧ c ≠ '\t' ∧ c ≠ '\r' ∧ c ≠ '\n') (h : IsPlain cs) :
    join (localChars base) ('.' :: '/' :: cs) = .ok (localChars cs) := by
  obtain ⟨path, ps, hparameters, hpath, hsteps, hinner⟩ := parameters_below "https".toList h
  have hbaseParameters : Url.parameters "https".toList ('/' :: base) = ('/' :: base, []) := by
    rw [Url.parameters, if_neg]
    simp [hbase.2]
  have hrelative : schemeIn withRelative "https".toList = true := by decide
  have hauthority : schemeIn withAuthority "https".toList = true := by decide
  have hempty : (localChars base).isEmpty = false := rfl
  have hsplit := split_local hmarks
  have hurl := splitWith_below "https".toList h.marks
  have hjoin := joinPath_below hbase.1 hsteps hinner
  have hunsplit := unsplitWith_local hpath
  generalize localChars base = address at hempty hsplit ⊢
  generalize "https".toList = scheme at *
  generalize "local.invalid".toList = host at *
  rw [join, hempty, if_neg (by decide), if_neg (by simp)]
  refine Outcome.bind_eq_ok.2 ⟨_, hsplit, ?_⟩
  simp only [hbaseParameters]
  refine Outcome.bind_eq_ok.2 ⟨_, hurl, ?_⟩
  simp [hparameters, hrelative, hauthority, hjoin, hunsplit, Outcome.pure_eq_ok]

/-! ### The same on strings -/

theorem joinUrl_local (base : String) {path : String}
    (hbase : '/' ∉ base.toList ∧ ';' ∉ base.toList)
    (hmarks : ∀ c ∈ base.toList, c ≠ '?' ∧ c ≠ '#' ∧ c ≠ '\t' ∧ c ≠ '\r' ∧ c ≠ '\n')
    (h : IsPlain path.toList) :
    joinUrl (localOrigin ++ base) ("./" ++ path) = .ok (localOrigin ++ path) := by
  have hjoin := join_local hbase hmarks h
  rw [localChars, localChars] at hjoin
  rw [joinUrl, String.toList_append, String.toList_append, Outcome.bind_eq_ok]
  refine ⟨_, hjoin, ?_⟩
  rw [Outcome.pure_eq_ok, String.ofList_append, String.ofList_toList, String.ofList_toList]

theorem isLocal_local {path : String} (h : IsPlain path.toList) :
    isLocal (localOrigin ++ path) = .ok true := by
  have hsplit := split_local h.marks
  rw [localChars] at hsplit
  rw [isLocal, isLocalChars, String.toList_append, hsplit]
  rfl

theorem filePath_local {path : String} (h : IsPlain path.toList) :
    filePath (localOrigin ++ path) = .ok path := by
  have hsplit := split_local h.marks
  rw [localChars] at hsplit
  have hfirst : path.toList.dropWhile (· == '/') = path.toList := by
    cases hcs : path.toList with
    | nil => rfl
    | cons c rest =>
      rw [List.dropWhile_cons_of_neg]
      -- A slash at the front would be behind an empty segment.
      intro hc
      rw [beq_iff_eq] at hc
      have hsegments := segments_append [] rest
      rw [List.nil_append, ← hc, ← hcs] at hsegments
      exact (h.steps [] (by rw [hsegments]; exact List.mem_cons_self)).1 rfl
  rw [filePath, String.toList_append, hsplit, Outcome.bind_eq_ok]
  refine ⟨_, rfl, ?_⟩
  rw [Outcome.pure_eq_ok, List.dropWhile_cons_of_pos (by rfl), hfirst, String.ofList_toList]

end ScratchExport.Url
