import ScratchExport.Proofs.References
import ScratchExport.Proofs.Storing

/-!
# Every asset is written

With the options left as they are, the assets of a target lie in its folder, in one folder for
costumes and one for sounds. If their file names are plain and two assets of a kind never share one,
each asset with bytes has a path of its own (`assetFiles`, `nodup_allFiles`), and that path is none
of the page, the entry module or a class, so that nothing is replaced when all of it is written.

Names with marks of a URL in them do not keep their place: `a?1` and `a?2` lie in the same file. A
file name may hold slashes, and then a folder cannot take two assets of which one lies where the
other needs a folder (`SeparateAssets`), as `walk.svg` and `walk.svg/left.svg` do.
-/

namespace ScratchExport

namespace Export
open Url

/-! ### The paths of assets -/

/-- The name of an asset's file. -/
def fileName (name ext : Value) : String :=
  name.display ++ "." ++ ext.display

/-- The costumes with bytes, by file name. -/
def costumeFiles (t : Target) : List (String × ByteArray) :=
  t.costumes.filterMap fun c => c.data.map (fileName c.name c.ext, ·)

/-- The sounds with bytes, by file name. -/
def soundFiles (t : Target) : List (String × ByteArray) :=
  t.sounds.filterMap fun s => s.data.map (fileName s.name s.ext, ·)

/-- A file in a folder of a class. -/
def inFolder (className folder : String) (file : String × ByteArray) : String × ByteArray :=
  (className ++ "/" ++ folder ++ "/" ++ file.1, file.2)

/-- Where the assets of a target lie. -/
def assetFiles (className : String) (t : Target) : List (String × ByteArray) :=
  (costumeFiles t).map (inFolder className "costumes") ++
    (soundFiles t).map (inFolder className "sounds")

/-- Where the assets of a project lie. -/
def allFiles (p : Project) (names : Name.Table) : List (String × ByteArray) :=
  (names.targets.zip p.targets).flatMap fun (names, t) => assetFiles names.className t

/-- The file names of a target's assets are plain, and those of one kind are distinct. -/
structure PlainAssets (t : Target) : Prop where
  plain : ∀ file ∈ costumeFiles t ++ soundFiles t, IsPlain file.1.toList
  costumes : ((costumeFiles t).map (·.1)).Nodup
  sounds : ((soundFiles t).map (·.1)).Nodup

/-- No asset of a target lies where another of its kind needs a folder. -/
structure SeparateAssets (t : Target) : Prop where
  costumes : ∀ a ∈ costumeFiles t, ∀ b ∈ costumeFiles t,
    segments a.1.toList <+: segments b.1.toList → a.1 = b.1
  sounds : ∀ a ∈ soundFiles t, ∀ b ∈ soundFiles t,
    segments a.1.toList <+: segments b.1.toList → a.1 = b.1

/-- The path to which the default URL of an asset leads, if it is plain. -/
def AssetInfo.path (a : AssetInfo) : String :=
  a.target ++ "/" ++ a.kind.folder ++ "/" ++ fileName a.name a.ext

theorem defaultAssetUrl_eq (a : AssetInfo) : defaultAssetUrl a = "./" ++ a.path := by
  simp only [defaultAssetUrl, AssetInfo.path, fileName, String.append_assoc]

theorem map_assetsOf (className : String) (t : Target) :
    (assetsOf className t).map (fun a => (a.1.path, a.2)) = assetFiles className t := by
  simp only [assetsOf, assetFiles, costumeFiles, soundFiles, List.map_append, List.map_filterMap,
    Option.map_map]
  rfl

/-! ### Plain paths -/

theorem isIdentifier_folder {name : String} (h : Name.IsIdentifier name) :
    (∀ c ∈ name.toList, c ≠ '?' ∧ c ≠ '#' ∧ c ≠ '\t' ∧ c ≠ '\r' ∧ c ≠ '\n') ∧ '/' ∉ name.toList ∧
      ';' ∉ name.toList ∧ name.toList ≠ [] ∧ name.toList.head? ≠ some '.' := by
  have htail := Name.isIdentifierTail_of_mem h
  have hne : ∀ d, Name.isIdentifierTail d = false → d ∉ name.toList := by
    intro d hd hin
    rw [htail d hin] at hd
    cases hd
  refine ⟨fun c hc => ?_, hne '/' rfl, hne ';' rfl, ?_, ?_⟩
  · refine ⟨?_, ?_, ?_, ?_, ?_⟩
    all_goals rintro rfl; exact hne _ rfl hc
  · intro hnil
    rw [Name.IsIdentifier, hnil] at h
    cases h
  · intro hhead
    exact hne '.' rfl (List.mem_of_mem_head? hhead)

theorem not_point_of_isIdentifier {name : String} (h : Name.IsIdentifier name) :
    '.' ∉ name.toList :=
  fun hin => Bool.false_ne_true (Name.isIdentifierTail_of_mem h '.' hin)

theorem isPlain_inFolder {name : String} {cs : List Char} (h : IsPlain cs)
    (hname : Name.IsIdentifier name) : IsPlain (name.toList ++ '/' :: cs) := by
  obtain ⟨hmarks, hslash, -, hnil, hdot⟩ := isIdentifier_folder hname
  refine h.below hmarks hslash ⟨hnil, fun heq => ?_, fun heq => ?_⟩
  all_goals rw [heq] at hdot; exact hdot rfl

theorem isPlain_file {name ext : String} (hname : Name.IsIdentifier name)
    (hext : Name.IsIdentifier ext) : IsPlain (name ++ "." ++ ext).toList := by
  obtain ⟨hmarks, hslash, hsemi, hnil, hdot⟩ := isIdentifier_folder hname
  obtain ⟨hmarks', hslash', hsemi', -, -⟩ := isIdentifier_folder hext
  obtain ⟨c, rest, hcs⟩ := List.exists_cons_of_ne_nil hnil
  have hlist : (name ++ "." ++ ext).toList = name.toList ++ '.' :: ext.toList := by
    simp [String.toList_append]
  have hclear : ∀ d, d ∉ name.toList → d ≠ '.' → d ∉ ext.toList →
      d ∉ (name ++ "." ++ ext).toList := by
    intro d hd hdot hd'
    rw [hlist, List.mem_append, List.mem_cons]
    tauto
  have hsegments : segments (name ++ "." ++ ext).toList = [(name ++ "." ++ ext).toList] :=
    segments_of_not_mem (hclear '/' hslash (by decide) hslash')
  have hsteps : (name ++ "." ++ ext).toList ≠ [] ∧ (name ++ "." ++ ext).toList ≠ ['.'] ∧
      (name ++ "." ++ ext).toList ≠ ['.', '.'] := by
    rw [hlist, hcs]
    rw [hcs] at hdot
    refine ⟨by simp, fun heq => ?_, fun heq => ?_⟩
    all_goals
      rw [List.cons_append, List.cons.injEq] at heq
      exact hdot (by rw [heq.1]; rfl)
  refine ⟨fun d hd => ?_, fun s hs => ?_, fun last hlast => ?_⟩
  · rw [hlist, List.mem_append, List.mem_cons] at hd
    rcases hd with hd | rfl | hd
    exacts [hmarks d hd, by decide, hmarks' d hd]
  · rw [hsegments, List.mem_singleton] at hs
    subst hs
    exact hsteps
  · rw [hsegments, List.getLast?_singleton, Option.mem_some_iff] at hlast
    subst hlast
    have hsemicolon := hclear ';' hsemi (by decide) hsemi'
    rw [cutAt_of_not_mem hsemicolon]
    exact ⟨hsteps.2.1, hsteps.2.2, fun hin => absurd hin hsemicolon⟩

/-- The path of the file of a class. -/
def classPath (className : String) : String :=
  className ++ "/" ++ (className ++ ".js")

theorem isPlain_classPath {className : String} (h : Name.IsIdentifier className) :
    IsPlain (classPath className).toList := by
  have hfile := isPlain_inFolder (isPlain_file h (by decide : Name.IsIdentifier "js")) h
  simpa [classPath, String.toList_append] using hfile

theorem toList_classPath (className : String) :
    (classPath className).toList = className.toList ++ '/' :: (className ++ ".js").toList := by
  simp [classPath, String.toList_append]

theorem segments_classPath {className : String} (h : Name.IsIdentifier className) :
    segments (classPath className).toList = [className.toList, (className ++ ".js").toList] := by
  have hclass := (isIdentifier_folder h).2.1
  have hfile : '/' ∉ (className ++ ".js").toList := by
    simpa [String.toList_append] using hclass
  rw [toList_classPath, segments_append, segments_of_not_mem hclass, segments_of_not_mem hfile]
  rfl

theorem isPlain_path {a : AssetInfo} (htarget : Name.IsIdentifier a.target)
    (hfile : IsPlain (fileName a.name a.ext).toList) : IsPlain a.path.toList := by
  have hfolder : Name.IsIdentifier a.kind.folder := by
    cases a.kind <;> decide
  simpa [AssetInfo.path, String.toList_append] using isPlain_inFolder
    (isPlain_inFolder hfile hfolder) htarget

/-! ### Collecting the assets -/

theorem pageUrl_eq :
    joinUrl localOrigin ({} : Options).pageUrl = .ok (localOrigin ++ "index.html") := by
  have := joinUrl_local "" (by decide) (List.all_iff_forall_prop.1 (by decide))
    (isPlain_file (by decide : Name.IsIdentifier "index") (by decide : Name.IsIdentifier "html"))
  rwa [String.append_empty] at this

theorem addAsset_eq {a : AssetInfo} (h : IsPlain a.path.toList) (found : List (String × ByteArray))
    (bytes : ByteArray) :
    (addAsset {} (localOrigin ++ "index.html") found (a, bytes)).result =
      .ok (Assoc.set a.path bytes found) := by
  have hurl : joinUrl (localOrigin ++ "index.html") (({} : Options).assetUrl a) =
      .ok (localOrigin ++ a.path) := by
    show joinUrl _ (defaultAssetUrl a) = _
    rw [defaultAssetUrl_eq]
    exact joinUrl_local "index.html" (by decide) (List.all_iff_forall_prop.1 (by decide)) h
  simp only [addAsset, Noted.result_bind, Noted.result_lift]
  refine Outcome.bind_eq_ok.2 ⟨_, hurl, Outcome.bind_eq_ok.2 ⟨true, isLocal_local h, ?_⟩⟩
  rw [if_pos rfl]
  simp only [Noted.result_bind, Noted.result_lift, Noted.result_pure, filePath_local h]
  rfl

theorem foldlM_addAsset {all : List (AssetInfo × ByteArray)}
    (h : ∀ a ∈ all, IsPlain a.1.path.toList) (found : List (String × ByteArray)) :
    (all.foldlM (addAsset {} (localOrigin ++ "index.html")) found).result =
      .ok (Assoc.update found (all.map fun a => (a.1.path, a.2))) := by
  induction all generalizing found with
  | nil => rfl
  | cons a rest ih =>
    rw [List.foldlM_cons, Noted.result_bind]
    refine Outcome.bind_eq_ok.2 ⟨_, addAsset_eq (h a (by simp)) found a.2, ?_⟩
    exact ih (fun a ha => h a (by simp [ha])) _

section Table
variable {p : Project} {table : Name.Table} {classes : List String}

theorem className_isIdentifier (h : Name.assign p = .ok table) {names : Name.TargetNames}
    (hin : names ∈ table.targets) : Name.IsIdentifier names.className :=
  (Name.Table.collisionFree_of_assign h).classes.identifier _ (List.mem_map_of_mem hin)

theorem mem_assetsOf {className : String} {t : Target} {a : AssetInfo × ByteArray}
    (h : a ∈ assetsOf className t) :
    a.1.target = className ∧ (fileName a.1.name a.1.ext, a.2) ∈ costumeFiles t ++ soundFiles t := by
  rcases List.mem_append.1 h with h | h
  · obtain ⟨c, hc, h⟩ := List.mem_filterMap.1 h
    obtain ⟨bytes, hbytes, rfl⟩ := Option.map_eq_some_iff.1 h
    exact ⟨rfl, List.mem_append_left _ (List.mem_filterMap.2 ⟨c, hc, by rw [hbytes]; rfl⟩)⟩
  · obtain ⟨s, hs, h⟩ := List.mem_filterMap.1 h
    obtain ⟨bytes, hbytes, rfl⟩ := Option.map_eq_some_iff.1 h
    exact ⟨rfl, List.mem_append_right _ (List.mem_filterMap.2 ⟨s, hs, by rw [hbytes]; rfl⟩)⟩

theorem isPlain_of_mem (h : Name.assign p = .ok table) (hplain : ∀ t ∈ p.targets, PlainAssets t)
    {a : AssetInfo × ByteArray}
    (ha : a ∈ (table.targets.zip p.targets).flatMap fun (names, t) => assetsOf names.className t) :
    IsPlain a.1.path.toList := by
  obtain ⟨⟨names, t⟩, hin, ha⟩ := List.mem_flatMap.1 ha
  obtain ⟨hnames, ht⟩ := List.of_mem_zip hin
  obtain ⟨htarget, hfile⟩ := mem_assetsOf ha
  refine isPlain_path ?_ ((hplain t ht).plain _ hfile)
  rw [htarget]
  exact className_isIdentifier h hnames

/-! ### No two assets share a path -/

theorem segments_inFolder {className folder : String} (hclass : '/' ∉ className.toList)
    (hfolder : '/' ∉ folder.toList) (file : String × ByteArray) :
    segments (inFolder className folder file).1.toList =
      className.toList :: folder.toList :: segments file.1.toList := by
  have hlist : (inFolder className folder file).1.toList =
      className.toList ++ '/' :: (folder.toList ++ '/' :: file.1.toList) := by
    simp [inFolder, String.toList_append]
  rw [hlist, segments_append, segments_append, segments_of_not_mem hclass,
    segments_of_not_mem hfolder]
  rfl

theorem nodup_inFolder (className folder : String) {files : List (String × ByteArray)}
    (h : (files.map (·.1)).Nodup) : ((files.map (inFolder className folder)).map (·.1)).Nodup := by
  have : (files.map (inFolder className folder)).map (·.1) =
      (files.map (·.1)).map (className ++ "/" ++ folder ++ "/" ++ ·) := by
    simp only [List.map_map]
    rfl
  rw [this]
  exact h.map fun a b hab => by simpa using hab

theorem segments_of_mem_assetFiles {className : String} (h : '/' ∉ className.toList) {t : Target}
    {key : String} (hkey : key ∈ (assetFiles className t).map (·.1)) :
    ∃ folder rest, segments key.toList = className.toList :: folder :: rest ∧ '.' ∉ folder ∧
      rest ≠ [] := by
  obtain ⟨entry, hentry, rfl⟩ := List.mem_map.1 hkey
  rcases List.mem_append.1 hentry with hentry | hentry
  all_goals
    obtain ⟨file, -, rfl⟩ := List.mem_map.1 hentry
    exact ⟨_, _, segments_inFolder h (by decide) file, by decide, segments_ne_nil _⟩

theorem nodup_assetFiles {className : String} (hclass : '/' ∉ className.toList) {t : Target}
    (h : PlainAssets t) : ((assetFiles className t).map (·.1)).Nodup := by
  rw [assetFiles, List.map_append, List.nodup_append']
  refine ⟨nodup_inFolder _ _ h.costumes, nodup_inFolder _ _ h.sounds, fun key hcostume hsound => ?_⟩
  simp only [List.map_map, List.mem_map] at hcostume hsound
  obtain ⟨costume, -, rfl⟩ := hcostume
  obtain ⟨sound, -, hkey⟩ := hsound
  have hsegments := congrArg (fun key => segments (String.toList key)) hkey
  simp only [Function.comp_apply, segments_inFolder hclass (by decide : '/' ∉ "costumes".toList),
    segments_inFolder hclass (by decide : '/' ∉ "sounds".toList), List.cons.injEq] at hsegments
  exact absurd hsegments.2.1 (by decide)

theorem nodup_allFiles (h : Name.assign p = .ok table) (hplain : ∀ t ∈ p.targets, PlainAssets t) :
    ((allFiles p table).map (·.1)).Nodup := by
  have hfree := Name.Table.collisionFree_of_assign h
  have hslash : ∀ names ∈ table.targets, '/' ∉ names.className.toList :=
    fun names hin => (isIdentifier_folder (className_isIdentifier h hin)).2.1
  have hclasses : (table.targets.zip p.targets).Pairwise fun a b =>
      a.1.className ≠ b.1.className := by
    have hnodup := hfree.classes.nodup
    have hfst : (table.targets.zip p.targets).map Prod.fst = table.targets :=
      List.map_fst_zip hfree.targets.length_eq.ge
    rw [← hfst, List.map_map] at hnodup
    exact List.pairwise_map.1 hnodup
  rw [allFiles, List.map_flatMap, List.nodup_flatMap]
  refine ⟨fun entry hin => ?_, hclasses.imp_of_mem fun {a b} ha hb hne key hkey hkey' => hne ?_⟩
  · obtain ⟨hnames, ht⟩ := List.of_mem_zip hin
    exact nodup_assetFiles (hslash _ hnames) (hplain _ ht)
  · obtain ⟨folder, rest, hsegments, -⟩ :=
      segments_of_mem_assetFiles (hslash _ (List.of_mem_zip ha).1) hkey
    obtain ⟨folder', rest', hsegments', -⟩ :=
      segments_of_mem_assetFiles (hslash _ (List.of_mem_zip hb).1) hkey'
    rw [hsegments, List.cons.injEq] at hsegments'
    exact String.toList_injective hsegments'.1

theorem map_allAssets (p : Project) (table : Name.Table) :
    ((table.targets.zip p.targets).flatMap fun (names, t) => assetsOf names.className t).map
      (fun a => (a.1.path, a.2)) = allFiles p table := by
  rw [allFiles, List.map_flatMap]
  exact congrArg (fun f => (table.targets.zip p.targets).flatMap f) (funext fun entry =>
    map_assetsOf _ _)

theorem isPlain_of_mem_allFiles (h : Name.assign p = .ok table)
    (hplain : ∀ t ∈ p.targets, PlainAssets t) {entry : String × ByteArray}
    (hin : entry ∈ allFiles p table) : IsPlain entry.1.toList := by
  rw [← map_allAssets] at hin
  obtain ⟨a, ha, rfl⟩ := List.mem_map.1 hin
  exact isPlain_of_mem h hplain ha

/-- The path of an asset goes through two folders without a point in their names. -/
theorem segments_of_mem_allFiles (h : Name.assign p = .ok table) {path : String}
    (hpath : path ∈ (allFiles p table).map (·.1)) :
    ∃ first folder rest, segments path.toList = first :: folder :: rest ∧ '.' ∉ first ∧
      '.' ∉ folder ∧ rest ≠ [] := by
  obtain ⟨entry, hentry, rfl⟩ := List.mem_map.1 hpath
  obtain ⟨⟨names, t⟩, hin, hentry⟩ := List.mem_flatMap.1 hentry
  have hname := className_isIdentifier h (List.of_mem_zip hin).1
  obtain ⟨folder, rest, hsegments, hfolder, hrest⟩ := segments_of_mem_assetFiles
    (isIdentifier_folder hname).2.1 (List.mem_map_of_mem hentry)
  exact ⟨_, folder, rest, hsegments, not_point_of_isIdentifier hname, hfolder, hrest⟩

theorem assets_eq (h : Name.assign p = .ok table) (hplain : ∀ t ∈ p.targets, PlainAssets t) :
    (assets p {}).result = .ok (allFiles p table) := by
  have hfold := foldlM_addAsset (fun a ha => isPlain_of_mem h hplain ha) []
  rw [map_allAssets, Assoc.update_of_nodup (by simpa using nodup_allFiles h hplain),
    List.nil_append] at hfold
  simp only [assets, Noted.result_bind, Noted.result_lift]
  exact Outcome.bind_eq_ok.2 ⟨table, h, Outcome.bind_eq_ok.2 ⟨_, pageUrl_eq, hfold⟩⟩

/-! ### The generated files -/

/-- The paths of generated files: the page, the entry module and one file for each class. -/
def IsGenerated (classes : List String) (path : String) : Prop :=
  path = "index.html" ∨ path = "index.js" ∨ ∃ className ∈ classes, path = classPath className

theorem outputPath_local {path : String} (h : IsPlain path.toList) :
    (Job.outputPath (localOrigin ++ path)).result = .ok path := by
  simp only [Job.outputPath, Noted.result_bind, Noted.result_lift]
  exact Outcome.bind_eq_ok.2 ⟨true, isLocal_local h, filePath_local h⟩

theorem make_eq_ok_addresses {job : Job} (h : Job.make p {} = .ok job) :
    Name.assign p = .ok job.names ∧ job.options = {} ∧ job.pageUrl = localOrigin ++ "index.html" ∧
      job.entryUrl = localOrigin ++ "index.js" := by
  obtain ⟨names, hnames, h⟩ := Outcome.bind_eq_ok.1 h
  obtain ⟨pageUrl, hpage, h⟩ := Outcome.bind_eq_ok.1 h
  obtain ⟨entryUrl, hentry, h⟩ := Outcome.bind_eq_ok.1 h
  obtain ⟨runtimeUrl, -, h⟩ := Outcome.bind_eq_ok.1 h
  rw [← Outcome.pure_eq_ok.1 h]
  rw [pageUrl_eq] at hpage
  cases hpage
  have hjs := joinUrl_local "index.html" (by decide) (List.all_iff_forall_prop.1 (by decide))
    (isPlain_file (by decide : Name.IsIdentifier "index") (by decide : Name.IsIdentifier "js"))
  exact ⟨hnames, rfl, rfl, Except.ok.inj (hentry.symm.trans hjs)⟩

theorem addTargetFiles_paths {job : Job} (hoptions : job.options = {})
    (hentry : job.entryUrl = localOrigin ++ "index.js") {classes : List String}
    {numbered : List (Nat × Target × Name.TargetNames)} {files result : Files}
    (hclasses : ∀ entry ∈ numbered, Name.IsIdentifier entry.2.2.className ∧
      entry.2.2.className ∈ classes)
    (hfiles : (files.map (·.1)).Nodup ∧ ∀ path ∈ files.map (·.1), IsGenerated classes path)
    (h : (job.addTargetFiles numbered files).result = .ok result) :
    (result.map (·.1)).Nodup ∧ ∀ path ∈ result.map (·.1), IsGenerated classes path := by
  induction numbered generalizing files with
  | nil => cases h; exact hfiles
  | cons entry rest ih =>
    obtain ⟨index, t, names⟩ := entry
    obtain ⟨hname, hin⟩ := hclasses (index, t, names) (by simp)
    have hplain := isPlain_classPath hname
    simp only [Job.addTargetFiles, Noted.result_bind, Noted.result_lift] at h
    obtain ⟨url, hurl, h⟩ := Outcome.bind_eq_ok.1 h
    obtain ⟨text, -, h⟩ := Outcome.bind_eq_ok.1 h
    obtain ⟨path, hpath, h⟩ := Outcome.bind_eq_ok.1 h
    have hlocal : url = localOrigin ++ classPath names.className := by
      have hjoin :=
        joinUrl_local "index.js" (by decide) (List.all_iff_forall_prop.1 (by decide)) hplain
      have heq : job.options.entryToTarget names.className = "./" ++ classPath names.className := by
        rw [hoptions]
        show defaultEntryToTarget _ = _
        simp only [defaultEntryToTarget, classPath, String.append_assoc]
      rw [Job.targetUrl, hentry, heq, hjoin] at hurl
      exact (Except.ok.inj hurl).symm
    rw [hlocal, outputPath_local hplain] at hpath
    cases hpath
    refine ih (fun entry hrest => hclasses entry (by simp [hrest])) ⟨Assoc.nodup_keys_set hfiles.1,
      fun key hkey => ?_⟩ h
    rcases Assoc.mem_keys_set.1 hkey with rfl | hkey
    · exact .inr (.inr ⟨names.className, hin, rfl⟩)
    · exact hfiles.2 key hkey

/-- The generated files have distinct paths, each of them the page, the entry module or the file of
a class. -/
theorem files_paths {all : Files} (hassign : Name.assign p = .ok table)
    (h : (files p {}).result = .ok all) :
    (all.map (·.1)).Nodup ∧ ∀ path ∈ all.map (·.1),
    IsGenerated (table.targets.map (·.className)) path := by
  simp only [files, Noted.result_bind, Noted.result_lift] at h
  obtain ⟨job, hjob, h⟩ := Outcome.bind_eq_ok.1 h
  obtain ⟨built, hbuilt, h⟩ := Outcome.bind_eq_ok.1 h
  obtain ⟨hnames, hoptions, hpage, hentry⟩ := make_eq_ok_addresses hjob
  rw [hassign] at hnames
  cases hnames
  have hhtml : IsPlain "index.html".toList :=
    isPlain_file (by decide : Name.IsIdentifier "index") (by decide : Name.IsIdentifier "html")
  have hjs : IsPlain "index.js".toList :=
    isPlain_file (by decide : Name.IsIdentifier "index") (by decide : Name.IsIdentifier "js")
  simp only [Job.build, Noted.result_bind, Noted.result_lift, hpage, hentry, outputPath_local hhtml,
    outputPath_local hjs] at hbuilt
  obtain ⟨page, -, hbuilt⟩ := Outcome.bind_eq_ok.1 hbuilt
  obtain ⟨-, ⟨⟩, hbuilt⟩ := Outcome.bind_eq_ok.1 hbuilt
  obtain ⟨entry, -, hbuilt⟩ := Outcome.bind_eq_ok.1 hbuilt
  obtain ⟨-, ⟨⟩, hbuilt⟩ := Outcome.bind_eq_ok.1 hbuilt
  obtain ⟨-, -, hbuilt⟩ := Outcome.bind_eq_ok.1 hbuilt
  obtain ⟨added, hadded, hbuilt⟩ := Outcome.bind_eq_ok.1 hbuilt
  obtain ⟨-, -, hbuilt⟩ := Outcome.bind_eq_ok.1 hbuilt
  cases hbuilt
  cases h
  simp only [List.map_map]
  refine addTargetFiles_paths hoptions hentry (fun entry hin => ?_)
    ⟨?_, fun path hpath => ?_⟩ hadded
  · obtain ⟨-, hin⟩ := List.of_mem_zip hin
    obtain ⟨-, hin⟩ := List.of_mem_zip hin
    exact ⟨className_isIdentifier hassign hin, List.mem_map_of_mem hin⟩
  · exact Assoc.nodup_keys_set (Assoc.nodup_keys_set List.nodup_nil)
  · rcases Assoc.mem_keys_set.1 hpath with rfl | hpath
    · exact .inr (.inl rfl)
    · rcases Assoc.mem_keys_set.1 hpath with rfl | hpath
      · exact .inl rfl
      · simp at hpath

theorem isPlain_of_isGenerated {classes : List String}
    (hclasses : ∀ className ∈ classes, Name.IsIdentifier className) {path : String}
    (h : IsGenerated classes path) : IsPlain path.toList := by
  rcases h with rfl | rfl | ⟨className, hin, rfl⟩
  · exact isPlain_file (by decide : Name.IsIdentifier "index")
      (by decide : Name.IsIdentifier "html")
  · exact isPlain_file (by decide : Name.IsIdentifier "index") (by decide : Name.IsIdentifier "js")
  · exact isPlain_classPath (hclasses className hin)

theorem not_isGenerated {classes : List String}
    (hclasses : ∀ className ∈ classes, Name.IsIdentifier className) {path : String}
    {first folder : List Char} {rest : List (List Char)}
    (h : segments path.toList = first :: folder :: rest) (hrest : rest ≠ []) :
    ¬ IsGenerated classes path := by
  rintro (rfl | rfl | ⟨className, hin, rfl⟩)
  · rw [segments_of_not_mem (by decide)] at h
    cases h
  · rw [segments_of_not_mem (by decide)] at h
    cases h
  · rw [segments_classPath (hclasses className hin)] at h
    simp only [List.cons.injEq] at h
    exact hrest h.2.2.symm

/-! ### No path leads through a file -/

theorem segments_of_isGenerated {classes : List String}
    (hclasses : ∀ className ∈ classes, Name.IsIdentifier className) {path : String}
    (h : IsGenerated classes path) :
    (∃ file, '.' ∈ file ∧ segments path.toList = [file]) ∨
      ∃ className ∈ classes, segments path.toList = [className.toList,
        (className ++ ".js").toList] := by
  rcases h with rfl | rfl | ⟨className, hin, rfl⟩
  · exact .inl ⟨_, by decide, segments_of_not_mem (by decide)⟩
  · exact .inl ⟨_, by decide, segments_of_not_mem (by decide)⟩
  · exact .inr ⟨className, hin, segments_classPath (hclasses className hin)⟩

theorem exists_of_mem_allFiles {path : String} (hpath : path ∈ (allFiles p table).map (·.1)) :
    ∃ entry ∈ table.targets.zip p.targets, ∃ file,
      (file ∈ costumeFiles entry.2 ∧ path = (inFolder entry.1.className "costumes" file).1) ∨
        (file ∈ soundFiles entry.2 ∧ path = (inFolder entry.1.className "sounds" file).1) := by
  obtain ⟨_, hentry, rfl⟩ := List.mem_map.1 hpath
  obtain ⟨entry, hin, hentry⟩ := List.mem_flatMap.1 hentry
  rcases List.mem_append.1 hentry with hentry | hentry
  all_goals obtain ⟨file, hfile, rfl⟩ := List.mem_map.1 hentry
  · exact ⟨entry, hin, file, .inl ⟨hfile, rfl⟩⟩
  · exact ⟨entry, hin, file, .inr ⟨hfile, rfl⟩⟩

theorem eq_of_className_eq (h : Name.assign p = .ok table) {a b : Name.TargetNames × Target}
    (ha : a ∈ table.targets.zip p.targets) (hb : b ∈ table.targets.zip p.targets)
    (hclass : a.1.className = b.1.className) : a = b := by
  have hfree := Name.Table.collisionFree_of_assign h
  have hnodup : ((table.targets.zip p.targets).map fun entry => entry.1.className).Nodup := by
    have hfst : (table.targets.zip p.targets).map Prod.fst = table.targets :=
      List.map_fst_zip hfree.targets.length_eq.ge
    have := hfree.classes.nodup
    rwa [← hfst, List.map_map] at this
  exact List.inj_on_of_nodup_map hnodup ha hb hclass

/-- Assets meet in a folder only if they are of one target and kind. -/
theorem eq_of_segments_prefix (h : Name.assign p = .ok table)
    (hseparate : ∀ t ∈ p.targets, SeparateAssets t) {path path' : String}
    (hpath : path ∈ (allFiles p table).map (·.1)) (hpath' : path' ∈ (allFiles p table).map (·.1))
    (hstart : segments path.toList <+: segments path'.toList) : path = path' := by
  have hslash : ∀ entry ∈ table.targets.zip p.targets, '/' ∉ entry.1.className.toList :=
    fun entry hin => (isIdentifier_folder (className_isIdentifier h (List.of_mem_zip hin).1)).2.1
  have hcostumes : '/' ∉ "costumes".toList := by decide
  have hsounds : '/' ∉ "sounds".toList := by decide
  have hkinds : "costumes".toList ≠ "sounds".toList := by decide
  obtain ⟨entry, hin, file, hfile⟩ := exists_of_mem_allFiles hpath
  obtain ⟨entry', hin', file', hfile'⟩ := exists_of_mem_allFiles hpath'
  have hapart := hseparate _ (List.of_mem_zip hin).2
  rcases hfile with ⟨hfile, rfl⟩ | ⟨hfile, rfl⟩ <;> rcases hfile' with ⟨hfile', rfl⟩ | ⟨hfile', rfl⟩
  all_goals
    simp only [segments_inFolder (hslash _ hin) hcostumes, segments_inFolder (hslash _ hin) hsounds,
      segments_inFolder (hslash _ hin') hcostumes, segments_inFolder (hslash _ hin') hsounds,
      List.cons_prefix_cons] at hstart
    obtain ⟨hclass, hkind, hrest⟩ := hstart
  · cases eq_of_className_eq h hin hin' (String.toList_injective hclass)
    simp only [inFolder, hapart.costumes file hfile file' hfile' hrest]
  · exact absurd hkind hkinds
  · exact absurd hkind.symm hkinds
  · cases eq_of_className_eq h hin hin' (String.toList_injective hclass)
    simp only [inFolder, hapart.sounds file hfile file' hfile' hrest]

theorem eq_of_segments_eq {path path' : String} (h : segments path.toList = segments path'.toList) :
    path = path' := by
  refine String.toList_injective ?_
  rw [← joinWith_segments path.toList, h, joinWith_segments]

/-- No generated file lies on the way to another file, and nothing lies on the way to it. -/
theorem eq_of_mem_generated (hclasses : ∀ className ∈ classes, Name.IsIdentifier className)
    {path path' : String} (hpath : IsGenerated classes path) (hpath' : IsGenerated classes path')
    (hstart : segments path.toList <+: segments path'.toList) : path = path' := by
  refine eq_of_segments_eq ?_
  rcases segments_of_isGenerated hclasses hpath with ⟨file, hpoint, hfile⟩ | ⟨name, -, hfile⟩ <;>
    rcases segments_of_isGenerated hclasses hpath' with ⟨file', -, hfile'⟩ | ⟨name', hname', hfile'⟩
  all_goals rw [hfile, hfile'] at hstart ⊢
  · simpa using hstart
  · rw [List.cons_prefix_cons] at hstart
    exact absurd (hstart.1 ▸ hpoint) (not_point_of_isIdentifier (hclasses _ hname'))
  · simp at hstart
  · simpa using hstart

theorem not_prefix_of_isGenerated (hclasses : ∀ className ∈ classes, Name.IsIdentifier className)
    {path path' : String} (hpath : IsGenerated classes path) {first folder : List Char}
    {rest : List (List Char)} (hasset : segments path'.toList = first :: folder :: rest)
    (hfirst : '.' ∉ first) (hfolder : '.' ∉ folder) :
    ¬ segments path.toList <+: segments path'.toList := by
  intro hstart
  rw [hasset] at hstart
  rcases segments_of_isGenerated hclasses hpath with ⟨file, hpoint, hfile⟩ | ⟨name, -, hfile⟩
  all_goals rw [hfile, List.cons_prefix_cons] at hstart
  · exact hfirst (hstart.1 ▸ hpoint)
  · refine hfolder ?_
    rw [← (List.cons_prefix_cons.1 hstart.2).1, String.toList_append]
    exact List.mem_append_right _ (by decide)

theorem not_prefix_isGenerated (hclasses : ∀ className ∈ classes, Name.IsIdentifier className)
    {path path' : String} (hpath : IsGenerated classes path) {first folder : List Char}
    {rest : List (List Char)} (hasset : segments path'.toList = first :: folder :: rest)
    (hrest : rest ≠ []) : ¬ segments path'.toList <+: segments path.toList := by
  intro hstart
  have hlength := hstart.length_le
  have hpos := List.length_pos_iff_ne_nil.2 hrest
  rcases segments_of_isGenerated hclasses hpath with ⟨file, -, hfile⟩ | ⟨name, -, hfile⟩
  all_goals
    rw [hasset, hfile] at hlength
    simp only [List.length_cons, List.length_nil] at hlength
    omega

/-- No file that is written lies on the way to another. -/
theorem eq_of_written_start (h : Name.assign p = .ok table)
    (hseparate : ∀ t ∈ p.targets, SeparateAssets t) {path path' : String}
    (hpath : IsGenerated (table.targets.map (·.className)) path ∨
      path ∈ (allFiles p table).map (·.1))
    (hpath' : IsGenerated (table.targets.map (·.className)) path' ∨
      path' ∈ (allFiles p table).map (·.1))
    (hstart : segments path.toList <+: segments path'.toList) : path = path' := by
  have hclasses := (Name.Table.collisionFree_of_assign h).classes.identifier
  rcases hpath with hpath | hpath <;> rcases hpath' with hpath' | hpath'
  · exact eq_of_mem_generated hclasses hpath hpath' hstart
  · obtain ⟨first, folder, rest, hasset, hfirst, hfolder, -⟩ := segments_of_mem_allFiles h hpath'
    exact absurd hstart (not_prefix_of_isGenerated hclasses hpath hasset hfirst hfolder)
  · obtain ⟨first, folder, rest, hasset, -, -, hrest⟩ := segments_of_mem_allFiles h hpath
    exact absurd hstart (not_prefix_isGenerated hclasses hpath' hasset hrest)
  · exact eq_of_segments_prefix h hseparate hpath hpath' hstart

theorem takes_of_isGenerated {kind : OutputKind}
    (h : ∀ names ∈ table.targets, kind.Takes (classPath names.className)) {path : String}
    (hpath : IsGenerated (table.targets.map (·.className)) path) : kind.Takes path := by
  rcases hpath with rfl | rfl | ⟨className, hin, rfl⟩
  · cases kind <;> decide +kernel
  · cases kind <;> decide +kernel
  · obtain ⟨names, hnames, rfl⟩ := List.mem_map.1 hin
    exact h names hnames

end Table

theorem assign_ok {p : Project} (hnames : Name.NamesAreText p) (htyped : Name.WellTyped p) :
    ∃ table, Name.assign p = .ok table := by
  obtain ⟨result, hresult⟩ :=
      Name.assignTargets_ok (fun t ht => (hnames t ht).1) (fun t ht isStage className => by
    obtain ⟨-, hlists, hvars, hscripts⟩ := hnames t ht
    obtain ⟨hwalk, harguments⟩ := htyped t ht
    refine Name.assignTarget_ok isStage className hlists hvars (fun s hs => (hscripts s hs).1) hwalk
      fun s hs => ?_
    obtain ⟨arguments, hok⟩ := harguments s hs
    exact ⟨arguments, hok, (hscripts s hs).2 arguments hok⟩) ⟨Name.classSeed⟩ true
  exact ⟨⟨result⟩, Outcome.bind_eq_ok.2 ⟨result, hresult, rfl⟩⟩

/-- Plain assets all are written: collecting them gives one path for each, below the folder of its
target and of its kind, with its bytes; the paths are distinct, and none of them is the path of a
generated file. An archive takes them all unless a path is too long for it or holds a null
character, and so does a folder, for the names on the paths, if no asset lies where another needs a
folder. Then what is written is all generated files and all assets. -/
theorem plain_assets_written (p : Project) (hnames : Name.NamesAreText p)
    (htyped : Name.WellTyped p) (hplain : ∀ t ∈ p.targets, PlainAssets t) :
    ∃ table, Name.assign p = .ok table ∧ (assets p {}).result = .ok (allFiles p table) ∧
      ((allFiles p table).map (·.1)).Nodup ∧
      ∀ all, (files p {}).result = .ok all →
        (∀ path ∈ (allFiles p table).map (·.1), path ∉ all.map (·.1)) ∧
        ∀ kind : OutputKind, (∀ path ∈ (allFiles p table).map (·.1), kind.Takes path) →
          (∀ names ∈ table.targets, kind.Takes (classPath names.className)) →
          (kind = .folder → ∀ t ∈ p.targets, SeparateAssets t) →
          ∃ written, output all (allFiles p table) kind = .ok written ∧
            written.entries = contents all (allFiles p table) := by
  obtain ⟨table, hassign⟩ := assign_ok hnames htyped
  have hnodup := nodup_allFiles hassign hplain
  refine ⟨table, hassign, assets_eq hassign hplain, hnodup, fun all hall => ?_⟩
  obtain ⟨hdistinct, hgenerated⟩ := files_paths hassign hall
  have hclasses := (Name.Table.collisionFree_of_assign hassign).classes.identifier
  have hclear : ∀ path ∈ (allFiles p table).map (·.1), path ∉ all.map (·.1) := by
    intro path hpath hin
    obtain ⟨first, folder, rest, hsegments, -, -, hrest⟩ := segments_of_mem_allFiles hassign hpath
    exact not_isGenerated hclasses hsegments hrest (hgenerated path hin)
  refine ⟨hclear, fun kind htakes htakesClass hseparate => ?_⟩
  have hcontents : ∀ entry ∈ contents all (allFiles p table),
      IsGenerated (table.targets.map (·.className)) entry.1 ∨
        entry.1 ∈ (allFiles p table).map (·.1) := by
    intro entry hin
    rcases List.mem_append.1 hin with hin | hin
    · obtain ⟨file, hfile, rfl⟩ := List.mem_map.1 hin
      exact .inl (hgenerated _ (List.mem_map_of_mem hfile))
    · exact .inr (List.mem_map_of_mem hin)
  have hdirect : ∀ entry ∈ contents all (allFiles p table), Path.IsDirect entry.1 := by
    intro entry hin
    rcases hcontents entry hin with hpath | hpath
    · exact (isPlain_of_isGenerated hclasses hpath).steps
    · obtain ⟨entry', hin', heq⟩ := List.mem_map.1 hpath
      exact heq ▸ (isPlain_of_mem_allFiles hassign hplain hin').steps
  refine output_entries hdirect (fun entry hin => ?_) fun hkind => ?_
  · rcases hcontents entry hin with hpath | hpath
    · exact takes_of_isGenerated htakesClass hpath
    · exact htakes _ hpath
  · have hpaths : ((contents all (allFiles p table)).map (·.1)).Nodup := by
      rw [contents, List.map_append, List.map_map, List.nodup_append']
      exact ⟨hdistinct, hnodup, fun path hpath hin => hclear path hin hpath⟩
    refine (List.pairwise_map.1 hpaths).imp_of_mem fun {a b} ha hb hne => ?_
    refine apart_of_segments (hdirect a ha) (hdirect b hb) (fun hstart => hne ?_)
      fun hstart => hne ?_
    · exact eq_of_written_start hassign (hseparate hkind) (hcontents a ha) (hcontents b hb) hstart
    · exact (eq_of_written_start hassign (hseparate hkind) (hcontents b hb) (hcontents a ha)
        hstart).symm

/-- Classes with one candidate, file names that name folders and parameters, and one file name for a
costume and a sound; a costume without bytes may have any name. -/
def crowdedProject : Project where
  stage := { name := .text "Cat", costumes :=
    [{ name := .text "Cat", ext := .text "js", data := some ⟨#[1]⟩ }] }
  sprites := [
    { name := .text "cat!"
      costumes := [{ name := .text "walk/left", data := some ⟨#[2]⟩ },
        { name := .text "a.b;c", data := some ⟨#[3]⟩ },
        { name := .text "a?1" }, { name := .text "a", ext := .text "b;c", data := some ⟨#[4]⟩ }]
      sounds := [{ name := .text "walk/left", ext := .text "svg", data := some ⟨#[5]⟩ }] }]

theorem crowdedProject_assets_written :
    Name.NamesAreText crowdedProject ∧ Name.WellTyped crowdedProject ∧
      (∀ t ∈ crowdedProject.targets, PlainAssets t) ∧
      ∃ table, Name.assign crowdedProject = .ok table ∧
        (assets crowdedProject {}).result = .ok (allFiles crowdedProject table) ∧
        ((allFiles crowdedProject table).map (·.1)).Nodup ∧
        ∀ all, (files crowdedProject {}).result = .ok all →
          (∀ path ∈ (allFiles crowdedProject table).map (·.1), path ∉ all.map (·.1)) ∧
          ∀ kind, ∃ written, output all (allFiles crowdedProject table) kind = .ok written ∧
            written.entries = contents all (allFiles crowdedProject table) := by
  have hnames : Name.NamesAreText crowdedProject := by
    simp [Name.NamesAreText, crowdedProject, Project.targets]
  have htyped : Name.WellTyped crowdedProject := by
    simp [Name.WellTyped, crowdedProject, Project.targets, Target.Walkable]
  have hplain : ∀ t ∈ crowdedProject.targets, PlainAssets t := by
    simp only [crowdedProject, Project.targets, List.map_cons, List.map_nil, List.forall_mem_cons]
    exact ⟨⟨by decide, by decide, by decide⟩, ⟨by decide, by decide, by decide⟩, by simp⟩
  have hseparate : ∀ t ∈ crowdedProject.targets, SeparateAssets t := by
    simp only [crowdedProject, Project.targets, List.map_cons, List.map_nil, List.forall_mem_cons]
    exact ⟨⟨by decide, by decide⟩, ⟨by decide, by decide⟩, by simp⟩
  obtain ⟨table, htable, hassets, hnodup, hall⟩ :=
    plain_assets_written crowdedProject hnames htyped hplain
  refine ⟨hnames, htyped, hplain, table, htable, hassets, hnodup, fun all hfiles => ?_⟩
  obtain ⟨hclear, hwritten⟩ := hall all hfiles
  have hrun : (Name.assign crowdedProject).toOption.map (fun table =>
      table.targets.map (fun names => classPath names.className) ++
        (allFiles crowdedProject table).map (·.1)) =
      some ["Cat/Cat.js", "Cat2/Cat2.js", "Cat/costumes/Cat.js", "Cat2/costumes/walk/left.svg",
        "Cat2/costumes/a.b;c.svg", "Cat2/costumes/a.b;c", "Cat2/sounds/walk/left.svg"] := by
    decide +kernel
  rw [htable, Except.toOption, Option.map_some, Option.some.injEq] at hrun
  have htakes (kind : OutputKind) : ∀ path ∈
      table.targets.map (fun names => classPath names.className) ++
        (allFiles crowdedProject table).map (·.1), kind.Takes path := by
    rw [hrun]
    cases kind <;> decide +kernel
  refine ⟨hclear, fun kind => hwritten kind (fun path hpath => ?_) (fun names hin => ?_)
    fun _ => hseparate⟩
  · exact htakes kind path (List.mem_append_right _ hpath)
  · exact htakes kind _ (List.mem_append_left _ (List.mem_map_of_mem hin))

/-- Two costumes whose names differ behind a mark that ends the path of a URL. -/
def queryProject : Project where
  stage := { name := .text "Stage" }
  sprites := [
    { name := .text "Cat"
      costumes := [{ name := .text "a?1", data := some ⟨#[1]⟩ },
        { name := .text "a?2", data := some ⟨#[2]⟩ }] }]

/-- Of two costumes with different names one is lost. -/
theorem queryProject_costume_lost :
    (∀ t ∈ queryProject.targets, ((costumeFiles t).map (·.1)).Nodup) ∧
    (assets queryProject {}).result = .ok [("Cat/costumes/a", ⟨#[2]⟩)] :=
  ⟨by decide, by decide +kernel⟩

end Export

end ScratchExport
