import ScratchExport.Proofs.Assets
import ScratchExport.Proofs.LocalJoin

/-!
# Output stays below its root

An archive chooses the names and extensions of its assets, and they stand in the URLs from which
paths are read. Whatever they are, each path of an export is relative to the root of the output and
has no step to another folder in it: the references to assets are resolved at the page
(`Url.join_reference`), and what is left of a reference to a folder above the root is a path below
it.
-/

namespace ScratchExport.Export
open Url

/-- A path that leads from the root of the output to a place below it. -/
def IsBelowRoot (path : String) : Prop :=
  path.toList.head? ≠ some '/' ∧ NoSteps path.toList

theorem isBelowRoot_of_isPlain {path : String} (h : IsPlain path.toList) : IsBelowRoot path := by
  refine ⟨fun hhead => ?_, fun s hs => (h.steps s hs).2⟩
  obtain ⟨rest, hrest⟩ := List.head?_eq_some_iff.1 hhead
  have hempty : [] ∈ segments path.toList := by
    rw [hrest, ← List.nil_append ('/' :: rest), segments_append]
    exact List.mem_cons_self
  exact (h.steps [] hempty).1 rfl

theorem isBelowRoot_dropWhile {path : List Char} (h : NoSteps path) :
    IsBelowRoot (String.ofList (path.dropWhile (· == '/'))) := by
  unfold IsBelowRoot
  rw [String.toList_ofList]
  refine ⟨fun hhead => ?_, h.dropWhile_slash⟩
  have hslash := List.head?_dropWhile_not (· == '/') path
  rw [hhead] at hslash
  simp at hslash

/-! ### Assets -/

theorem addAsset_belowRoot (found : List (String × ByteArray)) (a : AssetInfo) (bytes : ByteArray) :
    ∃ path, IsBelowRoot path ∧
      (addAsset {} (localOrigin ++ "index.html") found (a, bytes)).result =
        .ok (Assoc.set path bytes found) := by
  have hpage : split (localOrigin ++ "index.html").toList =
      .ok ⟨"https".toList, "local.invalid".toList, "/index.html".toList, [], []⟩ := by
    decide
  obtain ⟨joined, path, query, fragment, hjoin, hsteps, hsplit⟩ :=
    join_reference hpage ⟨rfl, rfl⟩ ('/' :: a.path.toList)
  have hurl : joinUrl (localOrigin ++ "index.html") (({} : Options).assetUrl a) =
      .ok (String.ofList joined) := by
    have hreference : (({} : Options).assetUrl a).toList = '.' :: '/' :: a.path.toList := by
      show (defaultAssetUrl a).toList = _
      rw [defaultAssetUrl_eq, String.toList_append]
      rfl
    rw [joinUrl, hreference, hjoin]
    rfl
  have hlocal : isLocal (String.ofList joined) = .ok true := by
    rw [isLocal, isLocalChars, String.toList_ofList, hsplit]
    rfl
  have hpath : filePath (String.ofList joined) =
      .ok (String.ofList (('/' :: path).dropWhile (· == '/'))) := by
    rw [filePath, String.toList_ofList, hsplit]
    rfl
  refine ⟨_, isBelowRoot_dropWhile hsteps.cons_slash, ?_⟩
  simp only [addAsset, Noted.result_bind, Noted.result_lift]
  refine Outcome.bind_eq_ok.2 ⟨_, hurl, Outcome.bind_eq_ok.2 ⟨true, hlocal, ?_⟩⟩
  rw [if_pos rfl]
  simp only [Noted.result_bind, Noted.result_lift, Noted.result_pure, hpath]
  rfl

theorem foldlM_addAsset_belowRoot (all : List (AssetInfo × ByteArray))
    (found : List (String × ByteArray)) (h : ∀ path ∈ found.map (·.1), IsBelowRoot path) :
    ∃ result, (all.foldlM (addAsset {} (localOrigin ++ "index.html")) found).result = .ok result ∧
      ∀ path ∈ result.map (·.1), IsBelowRoot path := by
  induction all generalizing found with
  | nil => exact ⟨found, rfl, h⟩
  | cons entry rest ih =>
    obtain ⟨path, hpath, hadd⟩ := addAsset_belowRoot found entry.1 entry.2
    have hset : ∀ key ∈ (Assoc.set path entry.2 found).map (·.1), IsBelowRoot key := by
      intro key hkey
      rcases Assoc.mem_keys_set.1 hkey with rfl | hkey
      · exact hpath
      · exact h key hkey
    obtain ⟨result, hresult, hbelow⟩ := ih _ hset
    refine ⟨result, ?_, hbelow⟩
    rw [List.foldlM_cons, Noted.result_bind]
    exact Outcome.bind_eq_ok.2 ⟨_, hadd, hresult⟩

/-- Collecting the assets of a project with names gives paths below the root, and so do its
generated files. -/
theorem output_below_root (p : Project) (hnames : Name.NamesAreText p) (htyped : Name.WellTyped p) :
    (∃ found, (assets p {}).result = .ok found ∧ ∀ path ∈ found.map (·.1), IsBelowRoot path) ∧
      ∀ all, (files p {}).result = .ok all → ∀ path ∈ all.map (·.1), IsBelowRoot path := by
  obtain ⟨table, hassign⟩ := assign_ok hnames htyped
  constructor
  · obtain ⟨found, hfound, hbelow⟩ := foldlM_addAsset_belowRoot
      ((table.targets.zip p.targets).flatMap fun entry => assetsOf entry.1.className entry.2) []
      (by simp)
    refine ⟨found, ?_, hbelow⟩
    simp only [assets, Noted.result_bind, Noted.result_lift]
    exact Outcome.bind_eq_ok.2 ⟨table, hassign, Outcome.bind_eq_ok.2 ⟨_, pageUrl_eq, hfound⟩⟩
  · intro all hall path hpath
    obtain ⟨-, hgenerated⟩ := files_paths hassign hall
    have hclasses := (Name.Table.collisionFree_of_assign hassign).classes.identifier
    exact isBelowRoot_of_isPlain (isPlain_of_isGenerated hclasses (hgenerated path hpath))

/-- Names that lead out of the output: by steps, by steps that a tab or a line end splits, behind a
parameter, and to the root of the file system. -/
def climbingProject : Project where
  stage := { name := .text "../.." }
  sprites := [
    { name := .text "/etc/\t?#;"
      costumes := [
        { name := .text "../../../../etc/passwd", ext := .text "", data := some ⟨#[1]⟩ },
        { name := .text ".\t./.\n./.\t./a", ext := .text "svg?/../..", data := some ⟨#[2]⟩ },
        { name := .text "..;/..;a/..", ext := .text "/..;b", data := some ⟨#[3]⟩ }]
      sounds := [
        { name := .text "..//..//", ext := .text "/..//../..//etc/../b#c", data := some ⟨#[4]⟩ }] }]

theorem climbingProject_below_root :
    Name.NamesAreText climbingProject ∧ Name.WellTyped climbingProject ∧
    (∃ found, (assets climbingProject {}).result = .ok found ∧ ∀ path ∈ found.map (·.1),
      IsBelowRoot path) ∧
      ∀ all, (files climbingProject {}).result = .ok all → ∀ path ∈ all.map (·.1),
      IsBelowRoot path := by
  have hnames : Name.NamesAreText climbingProject := by
    simp [Name.NamesAreText, climbingProject, Project.targets]
  have htyped : Name.WellTyped climbingProject := by
    simp [Name.WellTyped, climbingProject, Project.targets, Target.Walkable]
  exact ⟨hnames, htyped, output_below_root climbingProject hnames htyped⟩

end ScratchExport.Export
