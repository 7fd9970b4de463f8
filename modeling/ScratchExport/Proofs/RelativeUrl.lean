import ScratchExport.Proofs.LocalJoin

/-!
# Relative references lead back

A relative reference is the way up from the folder of the one file to the folder that both files
share, and from there down to the other file. Read at the first file it has to lead to the second:
each step up takes off one of the segments that the two do not share, whatever their number, and the
segments below are put back in their place.

The reference names a file, so there is a segment to go down to. A goal that is a folder on the path
of the first file is left out: the way to it ends in a step, and joining puts a slash behind what it
leads to.
-/

namespace ScratchExport.Url

variable {s cs : List Char} {c : Char} {ss source goal common up rest : List (List Char)}

/-! ### Paths from the root -/

/-- A segment that names a file or folder and that a URL holds as it is. -/
structure IsSegment (s : List Char) : Prop where
  name : s ≠ [] ∧ s ≠ ['.'] ∧ s ≠ ['.', '.']
  marks : ∀ c ∈ s, c ≠ '/' ∧ c ≠ ';' ∧ c ≠ '?' ∧ c ≠ '#' ∧ IsKept c

instance (s : List Char) : Decidable (IsSegment s) :=
  letI := List.decidableBAll (fun c => c ≠ '/' ∧ c ≠ ';' ∧ c ≠ '?' ∧ c ≠ '#' ∧ IsKept c) s
  decidable_of_iff (_ ∧ _) ⟨fun h => ⟨h.1, h.2⟩, fun h => ⟨h.name, h.marks⟩⟩

theorem IsSegment.not_mem_slash (h : IsSegment s) : '/' ∉ s :=
  fun hin => (h.marks _ hin).1 rfl

/-- The path from the root with given segments. -/
def rootPath (ss : List (List Char)) : List Char :=
  '/' :: Text.joinWith ['/'] ss

theorem mem_rootPath (hss : ∀ s ∈ ss, IsSegment s) (h : c ∈ rootPath ss) :
    c ≠ ';' ∧ c ≠ '?' ∧ c ≠ '#' ∧ IsKept c := by
  rcases List.mem_cons.1 h with rfl | h
  · decide
  · rcases mem_joinWith_slash h with rfl | ⟨s, hs, hc⟩
    · decide
    · exact ((hss s hs).marks c hc).2

/-- The root has an empty segment behind its slash; below it the segments are the given ones. -/
theorem exists_segments_rootPath (hss : ∀ s ∈ ss, IsSegment s) : ∃ last, segments (rootPath ss) =
    [] :: ss.dropLast ++ [last] ∧ ss = ss.dropLast ++ [last].filter (!·.isEmpty) ∧
    (last = [] → ss = []) := by
  rcases ss.eq_nil_or_concat' with rfl | ⟨inner, last, rfl⟩
  · exact ⟨[], rfl, rfl, fun _ => rfl⟩
  · have hlast := (hss last (by simp)).name.1
    refine ⟨last, ?_, by simp [hlast], fun h => absurd h hlast⟩
    rw [rootPath, segments_slash, segments_joinWith (by simp) fun s hs => (hss s hs).not_mem_slash,
      List.dropLast_concat]
    rfl

theorem filter_names (hss : ∀ s ∈ ss, IsSegment s) : ss.filter (!·.isEmpty) = ss := by
  rw [List.filter_eq_self]
  intro s hs
  simpa using (hss s hs).name.1

theorem resolve_names (hss : ∀ s ∈ ss, IsSegment s) (done : List (List Char)) :
    resolve done ss = done.reverse ++ ss :=
  resolve_eq_append fun s hs => (hss s hs).name.2

theorem normalSegments_rootPath (hss : ∀ s ∈ ss, IsSegment s) :
    normalSegments (rootPath ss) = ss := by
  obtain ⟨last, hsegments, heq, -⟩ := exists_segments_rootPath hss
  have hinner : ∀ s ∈ ss.dropLast, IsSegment s := fun s hs => hss s (List.mem_of_mem_dropLast hs)
  have hfilter : (segments (rootPath ss)).filter (!·.isEmpty) = ss := by
    rw [hsegments, List.filter_append, List.filter_cons_of_neg (by simp),
      filter_names hinner, ← heq]
  rw [normalSegments, hfilter, resolve_names hss]
  rfl

theorem normalSegments_folder (hss : ∀ s ∈ ss, IsSegment s) :
    normalSegments (folder (rootPath ss)) = ss.dropLast := by
  obtain ⟨last, hsegments, -, -⟩ := exists_segments_rootPath hss
  obtain ⟨inner, last', hsegments', hfolder⟩ := lastSegment_eq (rootPath ss)
  obtain ⟨rfl, -⟩ := List.append_inj' (hsegments'.symm.trans hsegments) rfl
  have hnames : ∀ s ∈ ss.dropLast, IsSegment s := fun s hs => hss s (List.mem_of_mem_dropLast hs)
  have hslash : ∀ s ∈ [] :: ss.dropLast, '/' ∉ s := by
    intro s hs
    rcases List.mem_cons.1 hs with rfl | hs
    · simp
    · exact (hnames s hs).not_mem_slash
  have hpath := segments_flatMap hslash (show '/' ∉ [] by simp)
  rw [List.append_nil] at hpath
  rw [folder, hfolder, normalSegments, hpath, List.filter_append, List.filter_cons_of_neg (by simp),
    filter_names hnames,
    List.filter_cons_of_neg (by simp), List.filter_nil, List.append_nil, resolve_names hnames]
  rfl

theorem folderSegments_rootPath (hss : ∀ s ∈ ss, IsSegment s) :
    folderSegments (rootPath ss) = ss.dropLast := by
  obtain ⟨last, hsegments, -, hlast⟩ := exists_segments_rootPath hss
  have hnames : ∀ s ∈ ss.dropLast, IsSegment s := fun s hs => hss s (List.mem_of_mem_dropLast hs)
  rw [folderSegments, hsegments, List.getLast?_concat]
  split_ifs with h
  · obtain rfl : last = [] := by simpa using h
    rw [hlast rfl]
    rfl
  · rw [List.dropLast_concat, List.drop_one, List.tail_cons, filter_names hnames]

/-! ### The way from one file to another -/

/-- The steps up from a folder; a way that only goes down starts with a step to the
folder itself. -/
def stepsUp : List (List Char) → List (List Char)
  | [] => [['.']]
  | up => up.map fun _ => ['.', '.']

theorem mem_stepsUp (h : s ∈ stepsUp up) : s = ['.'] ∨ s = ['.', '.'] := by
  unfold stepsUp at h
  split at h
  · exact .inl (List.mem_singleton.1 h)
  · obtain ⟨-, -, rfl⟩ := List.mem_map.1 h
    exact .inr rfl

theorem exists_wayBetween (as bs : List (List Char)) :
    ∃ common up rest, as = common ++ up ∧ bs = common ++ rest ∧
    wayBetween as bs = up.map (fun _ => ['.', '.']) ++ rest := by
  fun_induction wayBetween as bs with
  | case1 a as b bs heq ih =>
    obtain ⟨common, up, rest, rfl, rfl, hway⟩ := ih
    rw [beq_iff_eq] at heq
    subst heq
    exact ⟨a :: common, up, rest, rfl, rfl, hway⟩
  | case2 a as b bs hne => exact ⟨[], a :: as, b :: bs, rfl, rfl, rfl⟩
  | case3 as bs hnone => exact ⟨[], as, bs, rfl, rfl, rfl⟩

theorem resolve_up (done : List (List Char)) (up more : List (List Char)) :
    resolve done (up.map (fun _ => ['.', '.']) ++ more) = resolve (done.drop up.length) more := by
  induction up generalizing done with
  | nil => rfl
  | cons s rest ih =>
    rw [List.map_cons, List.cons_append, resolve, if_pos (by decide), ih, List.drop_drop,
      List.length_cons]
    congr 2
    omega

theorem resolve_stepsUp (common up more : List (List Char)) :
    resolve (common ++ up).reverse (stepsUp up ++ more) = resolve common.reverse more := by
  unfold stepsUp
  split
  · rw [List.append_nil, List.singleton_append, resolve, if_neg (by decide), if_pos (by decide)]
  · rw [resolve_up, List.reverse_append, List.drop_left' (by simp)]

/-- A way with a segment to go down to is written with a step in front. -/
theorem relativePath_eq (hgoal : ∀ s ∈ goal, IsSegment s) (hsource : ∀ s ∈ source, IsSegment s)
    (hnot : ¬ goal <+: source.dropLast) :
    ∃ common up rest way, source.dropLast = common ++ up ∧ goal = common ++ rest ∧
      rest ≠ [] ∧ relativePath (rootPath goal) (folder (rootPath source)) = .ok way ∧
      (if ['.', '.', '/'].isPrefixOf way then way else '.' :: '/' :: way) =
        Text.joinWith ['/'] (stepsUp up ++ rest) := by
  obtain ⟨common, up, rest, hup, hrest, hway⟩ := exists_wayBetween source.dropLast goal
  have hne : rest ≠ [] := by
    rintro rfl
    rw [List.append_nil] at hrest
    exact hnot ⟨up, by rw [hrest, hup]⟩
  refine ⟨common, up, rest, Text.joinWith ['/'] (up.map (fun _ => ['.', '.']) ++ rest), hup, hrest,
    hne, ?_, ?_⟩
  · rw [relativePath, normalSegments_folder hsource, normalSegments_rootPath hgoal, hway,
      if_neg (by simp [rootPath])]
    split
    · rename_i hnil
      exact absurd (List.append_eq_nil_iff.1 hnil).2 hne
    · rfl
  · cases up with
    | nil =>
      rw [List.map_nil, List.nil_append, if_neg]
      · obtain ⟨t, more, rfl⟩ := List.exists_cons_of_ne_nil hne
        rfl
      · -- The first segment of the way down is no step up.
        rw [List.isPrefixOf_iff_prefix]
        rintro ⟨more, hmore⟩
        have hnames : ∀ s ∈ rest, IsSegment s := fun s hs => hgoal s (by rw [hrest]; simp [hs])
        have hsegments := segments_joinWith hne fun s hs => (hnames s hs).not_mem_slash
        rw [← hmore] at hsegments
        have hin : ['.', '.'] ∈ rest := by
          rw [← hsegments]
          exact List.mem_cons_self
        exact (hnames _ hin).name.2.2 rfl
    | cons s more =>
      obtain ⟨t, below, ht⟩ :=
        List.exists_cons_of_ne_nil (l := more.map (fun _ => ['.', '.']) ++ rest) (by simp [hne])
      have hjoin : Text.joinWith ['/'] ((s :: more).map (fun _ => ['.', '.']) ++ rest) =
          '.' :: '.' :: '/' :: Text.joinWith ['/'] (t :: below) := by
        rw [List.map_cons, List.cons_append, ht]
        rfl
      rw [hjoin, if_pos (by simp [List.isPrefixOf]), ← hjoin]
      rfl

theorem joinPath_way (hsource : ∀ s ∈ source, IsSegment s) (hgoal : ∀ s ∈ goal, IsSegment s)
    (hup : source.dropLast = common ++ up) (hrest : goal = common ++ rest) (hne : rest ≠ []) :
    joinPath (rootPath source) (Text.joinWith ['/'] (stepsUp up ++ rest)) = rootPath goal := by
  have hdown : ∀ s ∈ rest, IsSegment s := fun s hs => hgoal s (by rw [hrest]; simp [hs])
  have hshared : ∀ s ∈ source.dropLast, IsSegment s := fun s hs =>
    hsource s (List.mem_of_mem_dropLast hs)
  have hway : segments (Text.joinWith ['/'] (stepsUp up ++ rest)) = stepsUp up ++ rest := by
    refine segments_joinWith (by simp [hne]) fun s hs => ?_
    rcases List.mem_append.1 hs with hs | hs
    · rcases mem_stepsUp hs with rfl | rfl <;> decide
    · exact (hdown s hs).not_mem_slash
  have hjoin : joinSegments (rootPath source) (Text.joinWith ['/'] (stepsUp up ++ rest)) =
      [] :: (common ++ up) ++ (stepsUp up ++ rest) := by
    have hroot : rootPath source = [] ∨ ∃ rest, rootPath source = '/' :: rest := .inr ⟨_, rfl⟩
    rw [joinSegments_rooted hroot, folderSegments_rootPath hsource, hup, hway]
    intro s hs
    rw [hway] at hs
    rcases List.mem_append.1 hs with hs | hs
    · rcases mem_stepsUp hs with rfl | rfl <;> simp
    · exact (hdown s hs).name.1
  have hlast : ¬ ([] :: (common ++ up) ++ (stepsUp up ++ rest)).getLast?.getD [] ∈ [['.'],
      ['.', '.']] := by
    obtain ⟨inner, last, rfl⟩ := rest.eq_nil_or_concat'.resolve_left hne
    rw [← List.append_assoc, ← List.append_assoc, List.getLast?_concat, Option.getD_some]
    obtain ⟨-, hone, htwo⟩ := (hdown last (by simp)).name
    simp [hone, htwo]
  have hresolve : resolve [] ([] :: (common ++ up) ++ (stepsUp up ++ rest)) = [] :: goal := by
    rw [hup] at hshared
    rw [List.cons_append, resolve, if_neg (by decide), if_neg (by decide), resolve_append,
      resolve_names hshared,
      List.reverse_singleton, ← List.append_assoc, resolve_stepsUp, resolve_names hdown, hrest]
    simp
  rw [joinPath_eq, joinedSegments, hjoin, if_neg hlast, hresolve,
    joinWith_cons_nil (by simp [hrest, hne]), if_neg (by simp)]
  rfl

/-! ### References -/

/-- A reference is taken apart into what it was made of, if it starts with a point. -/
theorem splitWith_reference {query fragment : List Char} (scheme : List Char)
    (hpath : ∀ c ∈ cs, c ≠ '?' ∧ c ≠ '#' ∧ IsKept c) (hquery : ∀ c ∈ query, c ≠ '#' ∧ IsKept c)
    (hfragment : ∀ c ∈ fragment, IsKept c) :
    splitWith scheme (appendPart (appendPart ('.' :: cs) '?' query) '#' fragment) =
      .ok ⟨scheme, [], '.' :: cs, query, fragment⟩ := by
  have hpoint : ∀ c ∈ '.' :: cs, c ≠ '?' ∧ c ≠ '#' ∧ IsKept c :=
    List.forall_mem_cons.2 ⟨by decide, hpath⟩
  have hfragmentMark : '#' ∉ appendPart ('.' :: cs) '?' query := by
    intro hin
    rcases mem_appendPart hin with hin | hin | hin
    exacts [(hpoint _ hin).2.1 rfl, absurd hin (by decide), (hquery _ hin).1 rfl]
  have hqueryMark : '?' ∉ '.' :: cs := fun hin => (hpoint _ hin).1 rfl
  have hkept : ∀ c ∈ appendPart (appendPart ('.' :: cs) '?' query) '#' fragment, IsKept c := by
    intro c hc
    rcases mem_appendPart hc with hc | rfl | hc
    · rcases mem_appendPart hc with hc | rfl | hc
      exacts [(hpoint c hc).2.2, by decide, (hquery c hc).2]
    exacts [by decide, hfragment c hc]
  obtain ⟨tail, htail⟩ :
      ∃ tail, appendPart (appendPart ('.' :: cs) '?' query) '#' fragment = '.' :: tail :=
    ⟨_, by rw [appendPart_cons, appendPart_cons]⟩
  have hclean : clean ('.' :: tail) = '.' :: tail := by
    rw [← htail]
    refine clean_eq hkept fun c hc => ?_
    rw [htail] at hc
    cases hc
    decide
  have hauthority : authority ('.' :: tail) = ([], '.' :: tail) := rfl
  rw [htail, splitWith_eq, hclean, scheme?_point, Option.getD_none]
  dsimp only
  rw [hauthority, ← htail]
  dsimp only
  rw [cutAt_appendPart hfragmentMark]
  dsimp only
  rw [cutAt_appendPart hqueryMark]
  rfl

theorem parameters_of_not_mem (scheme : List Char) (h : ';' ∉ cs) :
    Url.parameters scheme cs = (cs, []) := by
  rw [Url.parameters, if_neg]
  simp [h]

/-- A URL of the file with given segments below the local origin. -/
def LiesAt (url : List Char) (ss : List (List Char)) : Prop :=
  ∃ p, split url = .ok p ∧ p.IsLocal ∧ p.path = rootPath ss

/-- The address of a file below the local origin, with a query and a fragment unless these are
empty. -/
def address (ss : List (List Char)) (query fragment : List Char) : List Char :=
  localChars (appendPart (appendPart (Text.joinWith ['/'] ss) '?' query) '#' fragment)

theorem split_address {query fragment : List Char} (hss : ∀ s ∈ ss, IsSegment s)
    (hquery : ∀ c ∈ query, c ≠ '#' ∧ IsKept c) (hfragment : ∀ c ∈ fragment, IsKept c) :
    split (address ss query fragment) = .ok ⟨"https".toList, "local.invalid".toList, rootPath ss,
      query, fragment⟩ :=
  split_localChars query fragment (fun _ hc => (mem_rootPath hss (List.mem_cons_of_mem _ hc)).2)
    hquery hfragment

theorem isLocalChars_of_split {p : Parts} (hsplit : split cs = .ok p) (hp : p.IsLocal) :
    isLocalChars cs = .ok true := by
  rw [isLocalChars, hsplit]
  show Except.ok (p.scheme == _ && p.authority == _) = _
  rw [hp.scheme, hp.authority]
  rfl

theorem relativeChars_eq {origin goal way : List Char} {b u : Parts} (hb : split origin = .ok b)
    (hlocal : b.IsLocal) (hu : split goal = .ok u) (hgoal : u.IsLocal)
    (hway : relativePath u.path (folder b.path) = .ok way) :
    relativeChars origin goal = .ok (appendPart (appendPart
      (if ['.', '.', '/'].isPrefixOf way then way else '.' :: '/' :: way) '?' u.query) '#'
      u.fragment) := by
  unfold relativeChars
  rw [isLocalChars_of_split hb hlocal, isLocalChars_of_split hu hgoal, hb, hu]
  show relativePath u.path (folder b.path) >>= _ = _
  rw [hway]
  rfl

theorem join_relativeChars {origin query fragment : List Char} (horigin : LiesAt origin source)
    (hsource : ∀ s ∈ source, IsSegment s) (hgoal : ∀ s ∈ goal, IsSegment s)
    (hquery : ∀ c ∈ query, c ≠ '#' ∧ IsKept c) (hfragment : ∀ c ∈ fragment, IsKept c)
    (hnot : ¬ goal <+: source.dropLast) : ∃ reference,
      relativeChars origin (address goal query fragment) = .ok reference ∧
        join origin reference = .ok (address goal query fragment) := by
  obtain ⟨b, hb, hlocal, hpath⟩ := horigin
  obtain ⟨common, up, rest, way, hup, hrest, hne, hrelative, hway⟩ :=
    relativePath_eq hgoal hsource hnot
  have hsplit := split_address hgoal hquery hfragment
  have hdown : ∀ s ∈ rest, IsSegment s := fun s hs => hgoal s (by rw [hrest]; simp [hs])
  obtain ⟨cs, hcs⟩ : ∃ cs, Text.joinWith ['/'] (stepsUp up ++ rest) = '.' :: cs := by
    rw [← hway]
    split
    · rename_i hprefix
      obtain ⟨more, rfl⟩ := List.isPrefixOf_iff_prefix.1 hprefix
      exact ⟨_, rfl⟩
    · exact ⟨_, rfl⟩
  have hmarks : ∀ c ∈ '.' :: cs, c ≠ ';' ∧ c ≠ '?' ∧ c ≠ '#' ∧ IsKept c := by
    intro c hc
    rw [← hcs] at hc
    rcases mem_joinWith_slash hc with rfl | ⟨s, hs, hc⟩
    · decide
    · rcases List.mem_append.1 hs with hs | hs
      · have hpoint : c = '.' := by rcases mem_stepsUp hs with rfl | rfl <;> simpa using hc
        rw [hpoint]
        decide
      · exact ((hdown s hs).marks c hc).2
  refine ⟨appendPart (appendPart ('.' :: cs) '?' query) '#' fragment, ?_, ?_⟩
  · rw [← hpath] at hrelative
    rw [relativeChars_eq hb hlocal hsplit ⟨rfl, rfl⟩ hrelative, hway, hcs]
  · have hreference :=
      splitWith_reference b.scheme (fun c hc => (hmarks c (List.mem_cons_of_mem _ hc)).2) hquery
      hfragment
    have hparameters : Url.parameters b.scheme ('.' :: cs) = ('.' :: cs, []) :=
      parameters_of_not_mem _ fun hin => (hmarks _ hin).1 rfl
    have hbase : Url.parameters b.scheme b.path = (rootPath source, []) := by
      rw [hpath]
      exact parameters_of_not_mem _ fun hin => (mem_rootPath hsource hin).1 rfl
    have hjoined := joinPath_way hsource hgoal hup hrest hne
    rw [appendPart_cons, appendPart_cons] at hreference ⊢
    rw [join_point hb hlocal hreference (by rw [hparameters]; simp), hparameters, hbase, ← hcs,
      hjoined]
    rfl

theorem relativeUrl_eq {origin goal : String} {reference : List Char}
    (h : relativeChars origin.toList goal.toList = .ok reference) :
    relativeUrl origin goal = .ok (String.ofList reference) := by
  rw [relativeUrl, h]
  rfl

theorem relativeUrl_elsewhere {origin goal : String} {here : Bool}
    (horigin : isLocal origin = .ok here) (helse : here = false ∨ isLocal goal = .ok false) :
    relativeUrl origin goal = .ok goal := by
  have hgoal : relativeChars origin.toList goal.toList = .ok goal.toList := by
    rw [isLocal] at horigin helse
    unfold relativeChars
    cases here with
    | false =>
      rw [horigin]
      rfl
    | true =>
      rw [horigin, helse.resolve_left (by simp)]
      rfl
  rw [relativeUrl_eq hgoal, String.ofList_toList]

/-- A reference from one file below the local origin to another leads to that file when it is read
at the first, with its query and its fragment, however deep the two lie and however little of their
paths they share. The goal must not be a folder on the path of the first file. A URL elsewhere is
referred to as it is, and so is any URL from elsewhere. -/
theorem joinUrl_relativeUrl (origin : String) :
    (∀ source goal query fragment, LiesAt origin.toList source → (∀ s ∈ source, IsSegment s) →
      (∀ s ∈ goal, IsSegment s) → (∀ c ∈ query, c ≠ '#' ∧ IsKept c) → (∀ c ∈ fragment, IsKept c) →
      ¬ goal <+: source.dropLast →
      ∃ reference, relativeUrl origin (String.ofList (address goal query fragment)) =
        .ok reference ∧
        joinUrl origin reference = .ok (String.ofList (address goal query fragment))) ∧
    ∀ goal here, isLocal origin = .ok here → here = false ∨ isLocal goal = .ok false →
      relativeUrl origin goal = .ok goal := by
  refine ⟨fun source goal query fragment horigin hsource hgoal hquery hfragment hnot => ?_,
    fun goal here => relativeUrl_elsewhere⟩
  obtain ⟨reference, hrelative, hjoin⟩ :=
    join_relativeChars horigin hsource hgoal hquery hfragment hnot
  refine ⟨String.ofList reference, relativeUrl_eq ?_, ?_⟩
  · rw [String.toList_ofList]
    exact hrelative
  · rw [joinUrl, String.toList_ofList, hjoin]
    rfl

/-- From a file three folders deep to one beside its folders, with a colon and points that look like
steps. -/
theorem joinUrl_relativeUrl_deep : ∃ reference,
    relativeUrl "https://local.invalid/lib/deep/er/Cat.js?old"
    "https://local.invalid/lib/..x/a:b.js?v=1;2#top" =
      .ok reference ∧
    joinUrl "https://local.invalid/lib/deep/er/Cat.js?old" reference =
      .ok "https://local.invalid/lib/..x/a:b.js?v=1;2#top" := by
  have hgoal : String.ofList (address ["lib".toList, "..x".toList,
      "a:b.js".toList] "v=1;2".toList "top".toList) =
      "https://local.invalid/lib/..x/a:b.js?v=1;2#top" := by decide
  rw [← hgoal]
  exact (joinUrl_relativeUrl "https://local.invalid/lib/deep/er/Cat.js?old").1
    ["lib".toList, "deep".toList, "er".toList, "Cat.js".toList] _ _ _ ⟨_, rfl, ⟨rfl, rfl⟩,
      rfl⟩ (by decide) (by decide)
    (List.all_iff_forall_prop.1 (by decide)) (List.all_iff_forall_prop.1 (by decide)) (by decide)

/-- A folder on the path of the first file is found again, but with a slash behind it. -/
example : relativeUrl "https://local.invalid/a/b/c" "https://local.invalid/a" = .ok "./.." ∧
    joinUrl "https://local.invalid/a/b/c" "./.." = .ok "https://local.invalid/a/" :=
  ⟨rfl, rfl⟩

end ScratchExport.Url
