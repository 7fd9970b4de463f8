import ScratchExport.Proofs.Assets
import ScratchExport.Proofs.ExportTotality
import ScratchExport.Proofs.LocalJoin

/-!
# No generated file is lost

With the options left as they are, an export has a page, an entry module and one file for every
target, in this order and at distinct paths: a class has a folder of its own, and classes are
distinct (`files_settles`). Nothing but a number that is too large for a double can keep the files
from being written.

The two path policies agree wherever the entry module lies: the file of a class, named from the
entry module, is the file that it names from the file of another class, so that no warning about
paths is given (`targetPaths_agree`).
-/

namespace ScratchExport.Export
open Url
open Outcome (Settles Ends)

variable {H : Prop} {p : Project} {job : Job} {className first : String}

/-! ### The way to a class -/

theorem marks_classPath (h : Name.IsIdentifier className) :
    ∀ c ∈ (classPath className).toList, (c ≠ '?' ∧ c ≠ '#' ∧ IsKept c) ∧ c ≠ ';' := by
  obtain ⟨hmarks, -, hsemi, -⟩ := isIdentifier_folder h
  have hname : ∀ c ∈ className.toList, (c ≠ '?' ∧ c ≠ '#' ∧ IsKept c) ∧ c ≠ ';' := by
    intro c hc
    exact ⟨hmarks c hc, fun heq => hsemi (heq ▸ hc)⟩
  have hext : ∀ c ∈ ".js".toList, (c ≠ '?' ∧ c ≠ '#' ∧ IsKept c) ∧ c ≠ ';' :=
    List.all_iff_forall_prop.1 (by decide)
  intro c hc
  rw [toList_classPath, String.toList_append, List.mem_append, List.mem_cons, List.mem_append] at hc
  rcases hc with hc | rfl | hc | hc
  · exact hname c hc
  · decide
  · exact hname c hc
  · exact hext c hc

theorem defaultEntryToTarget_eq (className : String) :
    (defaultEntryToTarget className).toList = '.' :: '/' :: (classPath className).toList := by
  simp [defaultEntryToTarget, classPath, String.toList_append]

theorem defaultTargetToTarget_eq (className : String) :
    (defaultTargetToTarget className).toList =
      '.' :: '.' :: '/' :: (classPath className).toList := by
  simp [defaultTargetToTarget, classPath, String.toList_append]

theorem isLocal_eq_true {url : String} (h : isLocal url = .ok true) :
    ∃ b, split url.toList = .ok b ∧ b.IsLocal := by
  obtain ⟨b, hb, h⟩ := Outcome.bind_eq_ok.1 h
  rw [Outcome.pure_eq_ok, Bool.and_eq_true, beq_iff_eq, beq_iff_eq] at h
  exact ⟨b, hb, h.1, h.2⟩

/-- The way to a class from the entry module is also the way from the file of another class. -/
theorem targetPaths_agree (hentry : isLocal job.entryUrl = .ok true)
    (hentryToTarget : job.options.entryToTarget = defaultEntryToTarget)
    (htargetToTarget : job.options.targetToTarget = defaultTargetToTarget)
    (hfirst : Name.IsIdentifier first) (hclass : Name.IsIdentifier className) :
    ∃ base url, job.targetUrl first = .ok base ∧
      job.targetUrl className = .ok url ∧ joinUrl base (job.options.targetToTarget className) =
        .ok url := by
  obtain ⟨b, hb, hlocal⟩ := isLocal_eq_true hentry
  have hnames := (isPlain_classPath hfirst).steps
  have hmarks := marks_classPath hfirst
  have hsegments := segments_classPath hfirst
  rw [hsegments] at hnames
  rw [toList_classPath] at hsegments hmarks
  obtain ⟨home, url, hhome, hurl, hsibling⟩ := join_sibling hb hlocal hsegments hnames hmarks
    (isPlain_classPath hclass).steps (marks_classPath hclass)
  rw [← toList_classPath] at hhome
  refine ⟨String.ofList home, String.ofList url, ?_, ?_, ?_⟩
  · rw [Job.targetUrl, joinUrl, hentryToTarget, defaultEntryToTarget_eq, hhome]
    rfl
  · rw [Job.targetUrl, joinUrl, hentryToTarget, defaultEntryToTarget_eq, hurl]
    rfl
  · rw [joinUrl, htargetToTarget, defaultTargetToTarget_eq, String.toList_ofList, hsibling]
    rfl

theorem forM_eq_pure {α : Type} {f : α → Noted Unit} {as : List α} (h : ∀ a ∈ as, f a = pure ()) :
    as.forM f = pure () := by
  induction as with
  | nil => rfl
  | cons a rest ih =>
    rw [List.forall_mem_cons] at h
    show (do f a; rest.forM f) = pure ()
    rw [h.1, ih h.2]
    rfl

theorem forM_result {α : Type} {f : α → Noted Unit} (h : ∀ a, (f a).result = .ok ()) {as : List α} :
    (as.forM f).result = .ok () := by
  induction as with
  | nil => rfl
  | cons a rest ih =>
    show (do f a; rest.forM f : Noted Unit).result = .ok ()
    rw [Noted.result_bind, h a]
    exact ih

theorem checkTargetPaths_eq (hentry : isLocal job.entryUrl = .ok true)
    (hentryToTarget : job.options.entryToTarget = defaultEntryToTarget)
    (htargetToTarget : job.options.targetToTarget = defaultTargetToTarget)
    (hclasses : ∀ className ∈ job.classNames, Name.IsIdentifier className) :
    job.checkTargetPaths = pure () := by
  have hpath : ∀ first ∈ job.classNames, ∃ base, job.targetUrl first = .ok base ∧
      ∀ className ∈ job.classNames, job.checkTargetPath base className = pure () := by
    intro first hfirst
    obtain ⟨base, -, hbase, -⟩ :=
      targetPaths_agree hentry hentryToTarget htargetToTarget (hclasses _ hfirst)
      (hclasses _ hfirst)
    refine ⟨base, hbase, fun className hclass => ?_⟩
    obtain ⟨base', url, hbase', hurl, hjoin⟩ :=
      targetPaths_agree hentry hentryToTarget htargetToTarget
      (hclasses _ hfirst) (hclasses _ hclass)
    cases hbase.symm.trans hbase'
    unfold Job.checkTargetPath
    rw [hjoin, hurl]
    show (if url != url then _ else pure ()) = (pure () : Noted Unit)
    rw [bne_self_eq_false]
    rfl
  unfold Job.checkTargetPaths
  split
  · next first second rest heq =>
    rw [heq] at hpath
    obtain ⟨base, hbase, hall⟩ := hpath first (List.mem_cons_self ..)
    rw [hbase]
    exact forM_eq_pure hall
  · rfl

/-! ### The files in order -/

/-- A job with the options left as they are. -/
structure Job.IsDefault (p : Project) (job : Job) : Prop where
  project : job.project = p
  names : Name.assign p = .ok job.names
  options : job.options = {}
  pageUrl : job.pageUrl = localOrigin ++ "index.html"
  entryUrl : job.entryUrl = localOrigin ++ "index.js"
  runtimeUrl : job.runtimeUrl = ({} : Options).runtimeModuleUrl

theorem make_default {table : Name.Table} (h : Name.assign p = .ok table) :
    ∃ job, Job.make p {} = .ok job ∧ job.names = table ∧ job.IsDefault p := by
  have hentry := joinUrl_local "index.html" (by decide) (List.all_iff_forall_prop.1 (by decide))
    (isPlain_file (by decide : Name.IsIdentifier "index") (by decide : Name.IsIdentifier "js"))
  have hruntime : joinUrl (localOrigin ++ "index.js") ({} : Options).runtimeModuleUrl =
      .ok ({} : Options).runtimeModuleUrl := by
    rfl
  refine ⟨⟨p, table, {}, localOrigin ++ "index.html", localOrigin ++ "index.js",
    ({} : Options).runtimeModuleUrl⟩, ?_, rfl, rfl, h, rfl, rfl, rfl, rfl⟩
  exact Outcome.bind_eq_ok.2 ⟨table, h,
    Outcome.bind_eq_ok.2 ⟨_, pageUrl_eq, Outcome.bind_eq_ok.2 ⟨_, hentry,
    Outcome.bind_eq_ok.2 ⟨_, hruntime, rfl⟩⟩⟩⟩

theorem page_ok (h : job.IsDefault p) : ∃ page, job.page = .ok page := by
  have hrelative : relativeUrl (localOrigin ++ "index.html") (localOrigin ++ "index.js") =
      .ok "./index.js" := by
    rfl
  exact ⟨_, Outcome.bind_eq_ok.2 ⟨_, by rw [h.pageUrl, h.entryUrl]; exact hrelative, rfl⟩⟩

section
variable {table : Name.Table} {t : Target} {names : Name.TargetNames} {i : Nat}

theorem targetUrl_default (h : job.IsDefault p) (hclass : Name.IsIdentifier className) :
    job.targetUrl className = .ok (localOrigin ++ classPath className) := by
  have heq : job.options.entryToTarget className = "./" ++ classPath className := by
    rw [h.options]
    show defaultEntryToTarget _ = _
    simp only [defaultEntryToTarget, classPath, String.append_assoc]
  rw [Job.targetUrl, h.entryUrl, heq]
  exact joinUrl_local "index.js" (by decide) (List.all_iff_forall_prop.1 (by decide))
    (isPlain_classPath hclass)

theorem relativeUrl_runtime (h : job.IsDefault p) (hclass : Name.IsIdentifier className) :
    relativeUrl (localOrigin ++ classPath className) job.runtimeUrl = .ok job.runtimeUrl := by
  have hlocal : isLocalChars (localOrigin ++ classPath className).toList = .ok true :=
    isLocal_local (isPlain_classPath hclass)
  have hremote : isLocalChars job.runtimeUrl.toList = .ok false := by
    rw [h.runtimeUrl]
    rfl
  rw [relativeUrl, relativeChars, hlocal, hremote]
  show Except.ok (String.ofList job.runtimeUrl.toList) = _
  rw [String.ofList_toList]

theorem targetFile_ends (h : job.IsDefault p) (hshaped : ∀ t ∈ p.targets, t.WellShaped)
    (hmoderate : ∀ v ∈ p.numbers, v.TooLarge → H) (ht : p.targets[i]? = some t)
    (hnames : job.names.targets[i]? = some names) :
    Ends H (job.targetFile i t names (localOrigin ++ classPath names.className)).result := by
  have hin := List.mem_of_getElem? ht
  have hclass := className_isIdentifier h.names (List.mem_of_getElem? hnames)
  obtain ⟨_, hfree⟩ := (Name.Table.collisionFree_of_assign h.names).targets.at ht hnames
  have hcode : Ends H (Compile.targetCode job.project job.names i).result := by
    rw [h.project]
    refine Compile.targetCode_ends h.names ht fun s hs b hb =>
      ⟨(hshaped t hin).blocks s hs b hb, fun v hv => ?_⟩
    refine hmoderate v (List.mem_append_left _ (List.mem_flatMap.2 ⟨t, hin, ?_⟩))
    exact List.mem_flatMap.2 ⟨s, hs, List.mem_flatMap.2 ⟨b, hb, hv⟩⟩
  have hconstructor (triggers : List String) :
      Ends H (constructorLines job (i == 0) t names triggers) := by
    refine constructorLines_ends (by rw [h.project]; exact hshaped)
      (by rw [h.project]; exact hin) hfree (fun v hv w hw => ?_) _ _
    refine hmoderate w
      (List.mem_append_right _ (List.mem_flatMap.2 ⟨v, List.mem_append_left _ ?_, hw⟩))
    exact List.mem_flatMap.2 ⟨t, hin, hv⟩
  simp only [Job.targetFile, Noted.result_bind, Noted.result_lift, relativeUrl_runtime h hclass]
  refine Settles.bind (Q := fun _ => True) (.ok trivial) fun _ _ => hcode.bind fun code _ => ?_
  exact (hconstructor code.triggers).bind fun _ _ => .ok trivial

theorem addTargetFiles_settles (h : job.IsDefault p) (hshaped : ∀ t ∈ p.targets, t.WellShaped)
    (hmoderate : ∀ v ∈ p.numbers, v.TooLarge → H)
    {numbered : List (Nat × Target × Name.TargetNames)} {files : Files}
    (hnumbered : ∀ entry ∈ numbered, p.targets[entry.1]? = some entry.2.1 ∧
      job.names.targets[entry.1]? = some entry.2.2)
    (hnodup : (files.map (·.1) ++ numbered.map (classPath ·.2.2.className)).Nodup) :
    Settles H (job.addTargetFiles numbered files).result fun result =>
      result.map (·.1) = files.map (·.1) ++ numbered.map (classPath ·.2.2.className) := by
  induction numbered generalizing files with
  | nil => exact .ok (by simp)
  | cons entry rest ih =>
    obtain ⟨i, t, names⟩ := entry
    rw [List.forall_mem_cons] at hnumbered
    obtain ⟨ht, hnames⟩ := hnumbered.1
    have hclass := className_isIdentifier h.names (List.mem_of_getElem? hnames)
    simp only [Job.addTargetFiles, Noted.result_bind, Noted.result_lift, targetUrl_default h hclass]
    refine Settles.bind (Q := (· = localOrigin ++ classPath names.className)) (.ok rfl)
      fun url hurl => ?_
    rw [hurl]
    refine (targetFile_ends h hshaped hmoderate ht hnames).bind fun text _ => ?_
    rw [outputPath_local (isPlain_classPath hclass)]
    refine Settles.bind (Q := (· = classPath names.className)) (.ok rfl) fun path hpath => ?_
    rw [hpath]
    have hfresh : classPath names.className ∉ files.map (·.1) := by
      intro hin
      rw [List.nodup_append'] at hnodup
      exact hnodup.2.2 hin (by simp)
    have hset : (Assoc.set (classPath names.className) text files).map (·.1) = files.map (·.1) ++
        [classPath names.className] := by
      rw [Assoc.set_of_not_mem hfresh, List.map_append]
      rfl
    have hrest : Settles H
        (job.addTargetFiles rest (Assoc.set (classPath names.className) text files)).result _ :=
      ih hnumbered.2 (by
        rw [hset, List.append_assoc]
        exact hnodup)
    rw [hset, List.append_assoc] at hrest
    exact hrest

theorem mem_numberedTargets {entry : Nat × Target × Name.TargetNames}
    (h : entry ∈ job.numberedTargets) :
    job.project.targets[entry.1]? = some entry.2.1 ∧
    job.names.targets[entry.1]? = some entry.2.2 := by
  obtain ⟨k, hk⟩ := List.mem_iff_getElem?.1 h
  obtain ⟨hrange, hzip⟩ := List.getElem?_zip_eq_some.1 hk
  obtain ⟨hlt, heq⟩ := List.getElem?_eq_some_iff.1 hrange
  rw [List.getElem_range] at heq
  subst heq
  exact List.getElem?_zip_eq_some.1 hzip

theorem exists_mem_numberedTargets (h : job.IsDefault p) {t : Target} (ht : t ∈ p.targets) :
    ∃ entry ∈ job.numberedTargets, entry.2.1 = t := by
  have hlength := (Name.Table.collisionFree_of_assign h.names).targets.length_eq
  obtain ⟨i, hi, rfl⟩ := List.getElem_of_mem ht
  have hnames : i < job.names.targets.length := hlength ▸ hi
  refine ⟨(i, p.targets[i], job.names.targets[i]), List.mem_iff_getElem?.2 ⟨i, ?_⟩, rfl⟩
  rw [Job.numberedTargets, h.project]
  refine List.getElem?_zip_eq_some.2 ⟨?_, List.getElem?_zip_eq_some.2 ⟨?_, ?_⟩⟩
  · exact List.getElem?_range hi
  · exact List.getElem?_eq_getElem hi
  · exact List.getElem?_eq_getElem hnames

theorem map_numberedTargets (h : job.IsDefault p) :
    job.numberedTargets.map (classPath ·.2.2.className) = job.classNames.map classPath := by
  have hlength := (Name.Table.collisionFree_of_assign h.names).targets.length_eq
  have hnames : job.numberedTargets.map (·.2.2) = job.names.targets := by
    rw [← h.project] at hlength
    rw [← List.map_snd_zip hlength.ge,
      ← List.map_snd_zip (show (job.project.targets.zip job.names.targets).length ≤
        (List.range job.project.targets.length).length by simp),
      List.map_map]
    rfl
  rw [Job.classNames, ← hnames, List.map_map, List.map_map]
  rfl

/-- The paths of an export: the page, the entry module, and the classes in their order. -/
def generatedPaths (classes : List String) : List String :=
  "index.html" :: "index.js" :: classes.map classPath

theorem nodup_generatedPaths {classes : List String} (h : Name.Clear Name.classSeed classes) :
    (generatedPaths classes).Nodup := by
  have hslash : ∀ path ∈ classes.map classPath, '/' ∈ path.toList := by
    intro path hpath
    obtain ⟨className, -, rfl⟩ := List.mem_map.1 hpath
    simp [toList_classPath]
  have hclasses : (classes.map classPath).Nodup := by
    refine List.Nodup.map_on (fun a ha b hb hab => ?_) h.nodup
    have hsegments := congrArg (fun path => segments (String.toList path)) hab
    simp only [segments_classPath (h.identifier a ha), segments_classPath (h.identifier b hb),
      List.cons.injEq] at hsegments
    exact String.toList_injective hsegments.1
  rw [generatedPaths, List.nodup_cons, List.nodup_cons, List.mem_cons, not_or]
  refine ⟨⟨by decide, fun hin => ?_⟩, fun hin => ?_, hclasses⟩
  · exact absurd (hslash _ hin) (by decide)
  · exact absurd (hslash _ hin) (by decide)

theorem build_settles (h : job.IsDefault p) (hshaped : ∀ t ∈ p.targets, t.WellShaped)
    (hmoderate : ∀ v ∈ p.numbers, v.TooLarge → H) :
    Settles H job.build.result fun files => files.map (·.1) = generatedPaths job.classNames := by
  have hclasses : Name.Clear Name.classSeed job.classNames :=
    (Name.Table.collisionFree_of_assign h.names).classes
  obtain ⟨page, hpage⟩ := page_ok h
  have hhtml : IsPlain "index.html".toList :=
    isPlain_file (by decide : Name.IsIdentifier "index") (by decide : Name.IsIdentifier "html")
  have hjs : IsPlain "index.js".toList :=
    isPlain_file (by decide : Name.IsIdentifier "index") (by decide : Name.IsIdentifier "js")
  have hentry : Ends H job.entry := by
    refine entry_ends (by rw [h.project]; exact hshaped) fun s hs v hv w hw => ?_
    rw [h.project] at hs
    refine hmoderate w
      (List.mem_append_right _ (List.mem_flatMap.2 ⟨v, List.mem_append_right _ ?_, hw⟩))
    exact List.mem_flatMap.2 ⟨s, hs, hv⟩
  have hcheck : job.checkTargetPaths = pure () := by
    refine checkTargetPaths_eq ?_ (by rw [h.options]) (by rw [h.options]) hclasses.identifier
    rw [h.entryUrl]
    exact isLocal_local hjs
  simp only [Job.build, Noted.result_bind, Noted.result_lift, hpage, h.pageUrl, h.entryUrl,
    outputPath_local hhtml, outputPath_local hjs, hcheck, Noted.result_pure]
  refine Settles.bind (Q := fun _ => True) (.ok trivial) fun text _ => ?_
  refine Settles.bind (Q := (· = "index.html")) (.ok rfl) fun path hpath => ?_
  refine hentry.bind fun entry _ => ?_
  refine Settles.bind (Q := (· = "index.js")) (.ok rfl) fun path' hpath' => ?_
  rw [hpath, hpath']
  refine Settles.bind (Q := fun _ => True) (.ok trivial) fun _ _ => ?_
  have hkeys : (Assoc.set "index.js" entry (Assoc.set "index.html" text [])).map (·.1) =
    ["index.html", "index.js"] := rfl
  have hfiles : Settles H (job.addTargetFiles job.numberedTargets
      (Assoc.set "index.js" entry (Assoc.set "index.html" text []))).result _ :=
      addTargetFiles_settles h hshaped hmoderate
    (fun entry hin => by rw [← h.project]; exact mem_numberedTargets hin) (by
      rw [hkeys, map_numberedTargets h]
      exact nodup_generatedPaths hclasses)
  rw [hkeys, map_numberedTargets h] at hfiles
  refine hfiles.bind fun files hfiles => ?_
  exact Settles.bind (.of_exists ⟨(), forM_result fun _ => rfl, trivial⟩) fun _ (_ : True) =>
    .ok hfiles

theorem files_settles (h : Name.assign p = .ok table) (hshaped : ∀ t ∈ p.targets, t.WellShaped)
    (hmoderate : ∀ v ∈ p.numbers, v.TooLarge → H) :
    Settles H (files p {}).result fun all =>
      all.map (·.1) = generatedPaths (table.targets.map (·.className)) := by
  obtain ⟨job, hmake, rfl, hjob⟩ := make_default h
  simp only [files, Noted.result_bind, Noted.result_lift, hmake]
  refine Settles.bind (Q := (· = job)) (.ok rfl) fun made hmade => ?_
  rw [hmade]
  refine (build_settles hjob hshaped hmoderate).bind fun built hbuilt => .ok ?_
  rw [List.map_map]
  exact hbuilt

theorem addTargetFiles_initial {numbered : List (Nat × Target × Name.TargetNames)}
    {written result : Files} (h : (job.addTargetFiles numbered written).result = .ok result) :
    ∀ entry ∈ numbered, ∀ d ∈ dataOf entry.2.1, ∃ source, Literal.initial d.value = .ok source := by
  induction numbered generalizing written with
  | nil => exact List.forall_mem_nil _
  | cons entry rest ih =>
    obtain ⟨index, t, names⟩ := entry
    simp only [Job.addTargetFiles, Noted.result_bind, Noted.result_lift] at h
    obtain ⟨url, -, h⟩ := Outcome.bind_eq_ok.1 h
    obtain ⟨text, htext, h⟩ := Outcome.bind_eq_ok.1 h
    obtain ⟨path, -, h⟩ := Outcome.bind_eq_ok.1 h
    refine List.forall_mem_cons.2 ⟨fun d hd => ?_, ih h⟩
    obtain ⟨lines, runtime, code, -, hlines, -⟩ := targetFile_eq_ok htext
    obtain ⟨-, -, data, -, -, -, -, hdata, -⟩ := constructorLines_eq_parts hlines
    obtain ⟨line, hpair⟩ := Compile.exists_mem_zip hdata hd
    obtain ⟨property, value, -, hvalue, -⟩ := dataLine_eq_ok (List.forall₂_zip hdata hpair)
    exact ⟨value, hvalue⟩

/-- An export that gives files has written all values that data starts with. -/
theorem files_initial {all : Files} (hassign : Name.assign p = .ok table)
    (h : (files p {}).result = .ok all) {t : Target} (ht : t ∈ p.targets) {d : Datum}
    (hd : d ∈ dataOf t) : ∃ source, Literal.initial d.value = .ok source := by
  obtain ⟨job, hmake, rfl, hjob⟩ := make_default hassign
  simp only [files, Noted.result_bind, Noted.result_lift, hmake] at h
  obtain ⟨_, ⟨⟩, h⟩ := Outcome.bind_eq_ok.1 h
  obtain ⟨built, hbuilt, -⟩ := Outcome.bind_eq_ok.1 h
  simp only [Job.build, Noted.result_bind, Noted.result_lift] at hbuilt
  obtain ⟨page, -, hbuilt⟩ := Outcome.bind_eq_ok.1 hbuilt
  obtain ⟨pagePath, -, hbuilt⟩ := Outcome.bind_eq_ok.1 hbuilt
  obtain ⟨entry, -, hbuilt⟩ := Outcome.bind_eq_ok.1 hbuilt
  obtain ⟨entryPath, -, hbuilt⟩ := Outcome.bind_eq_ok.1 hbuilt
  obtain ⟨-, -, hbuilt⟩ := Outcome.bind_eq_ok.1 hbuilt
  obtain ⟨added, hadded, -⟩ := Outcome.bind_eq_ok.1 hbuilt
  obtain ⟨numbered, hnumbered, rfl⟩ := exists_mem_numberedTargets hjob ht
  exact addTargetFiles_initial hadded numbered hnumbered d hd

end

/-- An export of a project with names has the page, the entry module and one file for every target,
in this order, unless a number of the project is too large for a double. Wherever the entry module
lies below the root, the default policies name the same file of a class from it and from the file of
another class. -/
theorem generated_files_complete (p : Project) (hnames : Name.NamesAreText p)
    (hshaped : ∀ t ∈ p.targets, t.WellShaped) :
    ∃ table, Name.assign p = .ok table ∧
      ((∃ all, (files p {}).result = .ok all ∧
          all.map (·.1) = "index.html" :: "index.js" :: table.targets.map (classPath ·.className) ∧
          all.length = p.targets.length + 2 ∧ (all.map (·.1)).Nodup) ∨
        (files p {}).result = .error .tooLarge ∧ ∃ v ∈ p.numbers, v.TooLarge) ∧
      ∀ o job, o.entryToTarget = defaultEntryToTarget → o.targetToTarget = defaultTargetToTarget →
        Job.make p o = .ok job → isLocal job.entryUrl = .ok true →
        (∀ first ∈ job.classNames, ∀ className ∈ job.classNames, ∃ base url,
          job.targetUrl first = .ok base ∧
          job.targetUrl className = .ok url ∧ joinUrl base (o.targetToTarget className) = .ok url) ∧
        job.checkTargetPaths = pure () := by
  obtain ⟨table, hassign⟩ := assign_ok hnames fun t ht =>
    ⟨(hshaped t ht).walkable, (hshaped t ht).arguments⟩
  have hfree := Name.Table.collisionFree_of_assign hassign
  refine ⟨table, hassign, ?_, ?_⟩
  · have hsettles := files_settles (H := ∃ v ∈ p.numbers, v.TooLarge) hassign hshaped
      fun v hv hlarge => ⟨v, hv, hlarge⟩
    refine hsettles.ok_or_tooLarge.imp_left ?_
    rintro ⟨all, hall, hkeys⟩
    refine ⟨all, hall, ?_, ?_, ?_⟩
    · rw [hkeys, generatedPaths, List.map_map]
      rfl
    · have hlength := congrArg List.length hkeys
      simpa [generatedPaths, hfree.targets.length_eq] using hlength
    · rw [hkeys]
      exact nodup_generatedPaths hfree.classes
  · intro o job hentryToTarget htargetToTarget hmake hentry
    obtain ⟨hoptions, hjobNames⟩ : job.options = o ∧ Name.assign p = .ok job.names := by
      obtain ⟨names, hnames, hmake⟩ := Outcome.bind_eq_ok.1 hmake
      obtain ⟨pageUrl, -, hmake⟩ := Outcome.bind_eq_ok.1 hmake
      obtain ⟨entryUrl, -, hmake⟩ := Outcome.bind_eq_ok.1 hmake
      obtain ⟨runtimeUrl, -, hmake⟩ := Outcome.bind_eq_ok.1 hmake
      rw [← Outcome.pure_eq_ok.1 hmake]
      exact ⟨rfl, hnames⟩
    subst hoptions
    have hclasses := (Name.Table.collisionFree_of_assign hjobNames).classes.identifier
    refine ⟨fun first hfirst className hclass => ?_,
      checkTargetPaths_eq hentry hentryToTarget htargetToTarget hclasses⟩
    exact targetPaths_agree hentry hentryToTarget htargetToTarget (hclasses _ hfirst)
      (hclasses _ hclass)

/-- Three names with one candidate for a class, a watcher with a slider, a list with members of all
kinds, and a script with a number beyond all doubles. -/
def crampedProject : Project where
  stage :=
    { name := .text "cat"
      vars := [{ name := .text "score", id := "v1", value := .text " 0x1F ", visible := .bool true,
                 mode := .text "slider", x := .bool true }] }
  sprites := [
    { name := .text "../Cat"
      lists := [{ name := .text "all", id := "l1",
                  value := .list [.null, .text "0b2", .list [.int (-7)],
                    .record [("a", .rgb 1 2 3)]] }]
      scripts := [⟨[.mk (.known (.event .whenFlagClicked)) [] "a",
        .mk (.known (.motion .moveSteps)) [("STEPS", .plain "number" (.text "1e400"))] "b"],
        .text "go", .int 0, .int 0⟩] },
    { name := .text "cat?#;" }]

theorem crampedProject_wellShaped : ∀ t ∈ crampedProject.targets, t.WellShaped := by
  simp only [crampedProject, Project.targets, List.map_cons, List.map_nil, List.forall_mem_cons]
  refine ⟨⟨by simp [Target.Walkable], by simp, by simp, .inl rfl, ?_⟩, ⟨?_, ?_, ?_, .inl rfl, ?_⟩,
    ⟨by simp [Target.Walkable], by simp, by simp, .inl rfl, by simp [dataOf]⟩, by simp⟩
  · simp only [dataOf, List.map_cons, List.map_nil, List.append_nil, List.forall_mem_cons]
    refine ⟨⟨.inl rfl, .inl rfl, ?_⟩, by simp⟩
    rintro v ⟨⟩
    rfl
  · intro s hs
    rw [List.mem_singleton.1 hs]
    rfl
  · intro s hs
    rw [List.mem_singleton.1 hs]
    exact ⟨[], rfl⟩
  · simp only [List.forall_mem_cons]
    refine ⟨⟨⟨?_, ?_⟩, ⟨?_, ?_⟩, by simp⟩, by simp⟩
    all_goals simp [Block.withInner, Block.innerInputs, innerSlots, Input.withInner, Input.blocks,
      Block.WellShaped, Block.kind, Input.WellShaped]
  · simp only [dataOf, List.map_cons, List.map_nil, List.nil_append, List.forall_mem_cons]
    refine ⟨⟨.inl rfl, .inl rfl, ?_⟩, by simp⟩
    rintro v ⟨⟩

theorem crampedProject_files :
    Name.NamesAreText crampedProject ∧ (∀ t ∈ crampedProject.targets, t.WellShaped) ∧
    (∃ all, (files crampedProject {}).result = .ok all ∧
      all.map (·.1) = ["index.html", "index.js", "Cat/Cat.js", "Cat2/Cat2.js", "Cat3/Cat3.js"]) ∧
    ∃ job, Job.make crampedProject { entryUrl := "./a;b/..//c;d/./e;f?g=../h#i" } = .ok job ∧
      isLocal job.entryUrl = .ok true ∧ job.checkTargetPaths = pure () := by
  have hnames : Name.NamesAreText crampedProject := by
    simp only [Name.NamesAreText, crampedProject, Project.targets, List.map_cons, List.map_nil,
      List.forall_mem_cons]
    refine ⟨by simp, ⟨⟨_, rfl⟩, by simp, by simp, ⟨⟨_, rfl⟩, ?_⟩, by simp⟩, by simp, by simp⟩
    intro arguments harguments
    cases harguments
    simp
  obtain ⟨hmoderate, hrun, hclasses⟩ : (∀ v ∈ crampedProject.numbers, ¬ v.TooLarge) ∧
      (do
        let job ← Job.make crampedProject { entryUrl := "./a;b/..//c;d/./e;f?g=../h#i" }
        isLocal job.entryUrl) = .ok true ∧
      (Name.assign crampedProject).map (·.targets.map (classPath ·.className)) =
        .ok ["Cat/Cat.js", "Cat2/Cat2.js", "Cat3/Cat3.js"] := by
    decide +kernel
  obtain ⟨job, hjob, hentry⟩ := Outcome.bind_eq_ok.1 hrun
  obtain ⟨table, hassign, hfiles, hpaths⟩ :=
    generated_files_complete crampedProject hnames crampedProject_wellShaped
  refine ⟨hnames, crampedProject_wellShaped, ?_, job, hjob, hentry,
    (hpaths _ job rfl rfl hjob hentry).2⟩
  rcases hfiles with ⟨all, hall, hkeys, -⟩ | ⟨-, v, hv, hlarge⟩
  · refine ⟨all, hall, hkeys.trans ?_⟩
    rw [hassign] at hclasses
    exact congrArg (fun paths => "index.html" :: "index.js" :: paths) (Except.ok.inj hclasses)
  · exact absurd hlarge (hmoderate v hv)

/-- A variable that starts with a numeral in base 16, too large for a double. -/
def longHexProject : Project where
  stage :=
    { name := .text "Stage"
      vars := [{ name := .text "score", id := "v1",
                 value := .text (String.ofList ('0' :: 'x' :: List.replicate 256 'f')) }] }

theorem longHexProject_wellShaped : ∀ t ∈ longHexProject.targets, t.WellShaped := by
  simp only [longHexProject, Project.targets, List.map_nil, List.forall_mem_cons]
  refine ⟨⟨by simp [Target.Walkable], by simp, by simp, .inl rfl, ?_⟩, by simp⟩
  simp only [dataOf, List.map_cons, List.map_nil, List.append_nil, List.forall_mem_cons]
  refine ⟨⟨.inl rfl, .inl rfl, ?_⟩, by simp⟩
  rintro v ⟨⟩
  rfl

/-- Names are texts, and still nothing is written. -/
theorem longHexProject_not_written : Name.NamesAreText longHexProject ∧
    (∀ t ∈ longHexProject.targets, t.WellShaped) ∧
    (files longHexProject {}).result = .error .tooLarge := by
  refine ⟨?_, longHexProject_wellShaped, ?_⟩
  · simp only [Name.NamesAreText, longHexProject, Project.targets, List.map_nil,
      List.forall_mem_cons]
    exact ⟨⟨⟨_, rfl⟩, by simp, ⟨⟨_, rfl⟩, by simp⟩, by simp⟩, by simp⟩
  · obtain ⟨table, hassign⟩ : ∃ table, Name.assign longHexProject = .ok table := ⟨_, rfl⟩
    have hsettles := files_settles (H := True) hassign longHexProject_wellShaped fun _ _ _ => trivial
    refine (hsettles.ok_or_tooLarge.resolve_left ?_).1
    rintro ⟨all, hall, -⟩
    obtain ⟨source, hsource⟩ := files_initial hassign hall List.mem_cons_self List.mem_cons_self
    have hread : Literal.initial (.text (String.ofList ('0' :: 'x' :: List.replicate 256 'f'))) =
        .error .tooLarge := by
      rw [Literal.initial, Literal.initialScalar, Literal.number?, Literal.ofText,
        String.toList_ofList]
      decide +kernel
    cases hread.symm.trans hsource

end ScratchExport.Export
