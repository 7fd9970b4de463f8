import ScratchExport.Export.Output
import ScratchExport.Proofs.Assoc
import ScratchExport.Proofs.LocalJoin
import ScratchExport.Proofs.Outcome

/-!
# Nothing is lost in writing

A folder takes a file if the names on its path are short enough and free of null characters, if no
file lies where the path needs a folder, and if no folder lies where the file goes. `IsDirect` paths
have no detours, so that two of them meet in a folder only if the segments of one begin the other's.
Hence files whose segments never begin one another's are all written, each as it is
(`output_entries`); an archive asks less.
-/

namespace ScratchExport
open Url

/-- A path without empty segments and without steps. -/
def Path.IsDirect (path : String) : Prop :=
  ∀ s ∈ Url.segments path.toList, s ≠ [] ∧ s ≠ ['.'] ∧ s ≠ ['.', '.']

namespace Path

theorem follow_of_no_steps {rooted : Bool} {steps : List (List Char)}
    (h : ∀ s ∈ steps, s ≠ ['.', '.']) (done : List (List Char)) :
    follow rooted done steps = done.reverse ++ steps := by
  induction steps generalizing done with
  | nil => simp [follow]
  | cons s rest ih =>
    unfold follow
    rw [if_neg (by simpa using h s (by simp)), ih fun s hs => h s (by simp [hs])]
    simp

theorem reached_eq {steps : List (List Char)} (hne : steps ≠ [])
    (h : ∀ s ∈ steps, s ≠ [] ∧ s ≠ ['.'] ∧ s ≠ ['.', '.']) :
    reached [] steps = String.ofList (Text.joinWith ['/'] steps) := by
  have hjoin : Text.joinWith ['/'] steps ≠ [] := by
    obtain ⟨s, rest, rfl⟩ := List.exists_cons_of_ne_nil hne
    have hs := (h s (by simp)).1
    cases rest with
    | nil => exact hs
    | cons s' rest => simp [Text.joinWith]
  unfold reached
  rw [follow_of_no_steps fun s hs => (h s hs).2.2]
  split
  · rename_i heq
    exact absurd (by simpa using heq) hjoin
  · rfl

variable {path : String}

theorem name_mem_of_mem_way {stop : Stop} (hstop : stop ∈ way path) :
    stop.name = [] ∨ stop.name ∈ segments path.toList := by
  obtain ⟨n, -, rfl⟩ := List.mem_map.1 hstop
  cases hlast : ((segments path.toList).take n).getLast? with
  | none => exact .inl rfl
  | some s => exact .inr (List.mem_of_mem_take (List.mem_of_getLast? hlast))

namespace IsDirect

theorem segments_eq (h : IsDirect path) : segments path.toList = Url.segments path.toList := by
  refine List.filter_eq_self.2 fun s hs => ?_
  obtain ⟨hempty, hdot, -⟩ := h s hs
  simp [hempty, hdot]

theorem root_eq (h : IsDirect path) : root path.toList = [] := by
  rw [root.eq_def]
  split
  all_goals first
    | rfl
    | rename_i heq
      refine absurd rfl (h [] ?_).1
      rw [heq, ← List.nil_append ('/' :: _), Url.segments_append]
      exact List.mem_cons_self

theorem resolved_eq (h : IsDirect path) : resolved path = path := by
  rw [resolved, h.root_eq, h.segments_eq, reached_eq (segments_ne_nil _) h, joinWith_segments,
    String.ofList_toList]

theorem endsAbove_eq (h : IsDirect path) : endsAbove path = false := by
  obtain ⟨inner, last, hsegments⟩ :=
    (Url.segments path.toList).eq_nil_or_concat'.resolve_left (segments_ne_nil _)
  have hlast := (h last (by simp [hsegments])).2.2
  simp [endsAbove, name, h.segments_eq, hsegments, hlast]

theorem ne_dot (h : IsDirect path) : path ≠ "." := by
  rintro rfl
  exact (h ['.'] (by decide)).2.1 rfl

/-- A folder on the way to a file is the start of the way, or some of its segments lead there. -/
theorem place_of_mem_way (h : IsDirect path) {stop : Stop} (hstop : stop ∈ way path) :
    stop.place = "." ∨ Url.segments stop.place.toList <+: Url.segments path.toList ∧
      Url.segments stop.place.toList ≠ Url.segments path.toList := by
  obtain ⟨n, hn, rfl⟩ := List.mem_map.1 hstop
  rw [List.mem_range] at hn
  simp only [h.segments_eq, h.root_eq] at hn ⊢
  rcases Nat.eq_zero_or_pos n with rfl | hpos
  · rw [List.take_zero]
    exact .inl rfl
  · have hne : (Url.segments path.toList).take n ≠ [] := by
      rw [← List.length_pos_iff_ne_nil, List.length_take]
      omega
    have hplace : Url.segments (reached [] ((Url.segments path.toList).take n)).toList =
        (Url.segments path.toList).take n := by
      rw [reached_eq hne fun s hs => h s (List.mem_of_mem_take hs), String.toList_ofList]
      exact segments_joinWith hne fun s hs => not_mem_of_mem_segments (List.mem_of_mem_take hs)
    right
    rw [hplace]
    refine ⟨List.take_prefix _ _, fun heq => ?_⟩
    have hlength := congrArg List.length heq
    rw [List.length_take] at hlength
    omega

end IsDirect

end Path

namespace Export

/-! ### One file -/

/-- What the names on a path and its length must be for a kind of output. -/
def OutputKind.Takes : OutputKind → String → Prop
  | .folder, path => '\x00' ∉ path.toList ∧
      ∀ s ∈ segments path.toList, (String.ofList s).utf8ByteSize ≤ longestName
  | .zip, path => '\x00' ∉ path.toList ∧ path.utf8ByteSize ≤ longestEntry

instance (kind : OutputKind) (path : String) : Decidable (kind.Takes path) :=
  match kind with
  | .folder => inferInstanceAs (Decidable (_ ∧ _))
  | .zip => inferInstanceAs (Decidable (_ ∧ _))

/-- Neither of two files lies on the way to the other. -/
structure Apart (path path' : String) : Prop where
  distinct : path ≠ path'
  before : ∀ stop ∈ Path.way path', path ≠ stop.place
  behind : ∀ stop ∈ Path.way path, path' ≠ stop.place

theorem apart_of_segments {path path' : String} (h : Path.IsDirect path) (h' : Path.IsDirect path')
    (hbefore : ¬ segments path.toList <+: segments path'.toList)
    (hbehind : ¬ segments path'.toList <+: segments path.toList) : Apart path path' where
  distinct := by
    rintro rfl
    exact hbefore List.prefix_rfl
  before stop hstop := by
    rintro rfl
    rcases h'.place_of_mem_way hstop with hdot | ⟨hpre, -⟩
    · exact h.ne_dot hdot
    · exact hbefore hpre
  behind stop hstop := by
    rintro rfl
    rcases h.place_of_mem_way hstop with hdot | ⟨hpre, -⟩
    · exact h'.ne_dot hdot
    · exact hbehind hpre

namespace Store
variable {s : Store}

/-- The store has nothing in the way of a file. -/
structure Clear (s : Store) (path : String) : Prop where
  files : ∀ stop ∈ Path.way path, stop.place ∉ s.files.map (·.1)
  folder : path ∉ s.folders
  absent : path ∉ s.files.map (·.1)

theorem makeFolders_eq {stops : List Path.Stop}
    (hshort : ∀ stop ∈ stops, isTooLong stop.name = false)
    (hclear : ∀ stop ∈ stops, stop.place ∉ s.files.map (·.1)) :
    s.makeFolders stops = .ok { s with folders := s.folders ++ stops.map (·.place) } := by
  induction stops generalizing s with
  | nil => simp [makeFolders]
  | cons stop rest ih =>
    have hlookup : s.files.lookup stop.place = none := by
      refine List.lookup_eq_none_iff.2 fun entry hentry => ?_
      have := hclear stop (by simp)
      simp only [List.mem_map, not_exists, not_and] at this
      simpa using Ne.symm (this entry hentry)
    rw [makeFolders, hshort stop (by simp), hlookup]
    refine (ih (fun stop hin => hshort stop (by simp [hin])) fun stop hin => ?_).trans ?_
    · exact hclear stop (by simp [hin])
    · simp

theorem makeFolders_way {path : String} (hdirect : Path.IsDirect path)
    (hshort : ∀ name ∈ segments path.toList, isTooLong name = false) (hclear : s.Clear path) :
    s.makeFolders (Path.way path) =
      .ok { s with folders := s.folders ++ (Path.way path).map (·.place) } := by
  refine makeFolders_eq (fun stop hstop => ?_) hclear.files
  rcases Path.name_mem_of_mem_way hstop with hname | hname
  · rw [hname]
    rfl
  · exact hshort _ (hdirect.segments_eq ▸ hname)

theorem not_mem_folders_way {path : String} (hdirect : Path.IsDirect path)
    (hclear : s.Clear path) : path ∉ s.folders ++ (Path.way path).map (·.place) := by
  rw [List.mem_append, List.mem_map, not_or]
  refine ⟨hclear.folder, ?_⟩
  rintro ⟨stop, hstop, hplace⟩
  rcases hdirect.place_of_mem_way hstop with hdot | ⟨-, hne⟩
  · exact hdirect.ne_dot (hplace.symm.trans hdot)
  · exact hne (hplace ▸ rfl)

theorem put_eq {path : String} (bytes : ByteArray) (hdirect : Path.IsDirect path)
    (htakes : OutputKind.folder.Takes path) (hclear : s.Clear path) :
    s.put path bytes = .ok
      { files := s.files ++ [(path, bytes)],
        folders := s.folders ++ (Path.way path).map (·.place) } := by
  obtain ⟨hnull, hnames⟩ := htakes
  have hshort : ∀ name ∈ segments path.toList, isTooLong name = false := fun name hin => by
    simpa [isTooLong] using hnames name hin
  have hnone : (Path.segments path.toList).dropLast.any (·.any (· == '\x00')) = false := by
    rw [hdirect.segments_eq, List.any_eq_false]
    intro name hname
    simp only [List.any_eq_true, beq_iff_eq, exists_eq_right]
    exact fun hin => hnull (mem_of_mem_segments (List.mem_of_mem_dropLast hname) hin)
  have hclean : path.toList.any (· == '\x00') = false := by
    simpa [List.any_eq_false] using fun c hc (heq : c = '\x00') => hnull (heq ▸ hc)
  have hlast : isTooLong (Path.name path) = false := by
    rw [Path.name, hdirect.segments_eq]
    cases hlast : (segments path.toList).getLast? with
    | none => rfl
    | some last => exact hshort last (List.mem_of_getLast? hlast)
  simp only [put, hnone, makeFolders_way hdirect hshort hclear, hclean, hlast,
    hdirect.endsAbove_eq, hdirect.resolved_eq, Bool.false_eq_true, if_false, Bool.false_or]
  show (if (s.folders ++ (Path.way path).map (·.place)).contains path = true then
    Except.error Fault.folderForFile else _) = _
  rw [if_neg (mt List.contains_iff_mem.1 (not_mem_folders_way hdirect hclear)),
    Assoc.set_of_not_mem hclear.absent]

theorem Clear.put {path later : String} (h : s.Clear later) (bytes : ByteArray)
    (hapart : Apart path later) :
    Clear { files := s.files ++ [(path, bytes)],
            folders := s.folders ++ (Path.way path).map (·.place) } later where
  files stop hstop := by
    simpa using ⟨by simpa using h.files stop hstop, (hapart.before stop hstop).symm⟩
  folder := by
    rw [List.mem_append, List.mem_map, not_or]
    exact ⟨h.folder, fun ⟨stop, hstop, hplace⟩ => hapart.behind stop hstop hplace.symm⟩
  absent := by
    simpa using ⟨by simpa using h.absent, hapart.distinct.symm⟩

theorem foldlM_put {entries : List (String × ByteArray)}
    (hdirect : ∀ entry ∈ entries, Path.IsDirect entry.1)
    (htakes : ∀ entry ∈ entries, OutputKind.folder.Takes entry.1)
    (hapart : entries.Pairwise fun a b => Apart a.1 b.1)
    (hclear : ∀ entry ∈ entries, s.Clear entry.1) :
    ∃ s', entries.foldlM (fun s entry => s.put entry.1 entry.2) s = .ok s' ∧
      s'.files = s.files ++ entries := by
  induction entries generalizing s with
  | nil => exact ⟨s, rfl, (List.append_nil _).symm⟩
  | cons entry rest ih =>
    obtain ⟨hnext, hapart⟩ := List.pairwise_cons.1 hapart
    have hput := put_eq entry.2 (hdirect entry (by simp)) (htakes entry (by simp))
      (hclear entry (by simp))
    obtain ⟨s', hs', hfiles⟩ := ih (fun e he => hdirect e (by simp [he]))
      (fun e he => htakes e (by simp [he])) hapart
      fun e he => (hclear e (by simp [he])).put entry.2 (hnext e he)
    refine ⟨s', ?_, ?_⟩
    · rw [List.foldlM_cons, hput]
      exact hs'
    · rw [hfiles, List.append_assoc]
      rfl

end Store

/-! ### All of them -/

theorem entryPath_eq {path : String} (hdirect : Path.IsDirect path)
    (h : OutputKind.zip.Takes path) : entryPath path = .ok path := by
  obtain ⟨hnull, hlength⟩ := h
  have hkept : path.toList.takeWhile (· != '\x00') = path.toList :=
    List.takeWhile_eq_self_iff.2 fun c hc => bne_iff_ne.2 fun heq => hnull (heq ▸ hc)
  have hempty : path.isEmpty = false := by
    rw [Bool.eq_false_iff, Ne, String.isEmpty_iff]
    rintro rfl
    exact (hdirect [] (by decide)).1 rfl
  simp only [entryPath, hkept, String.ofList_toList, hempty, if_neg (Nat.not_lt.2 hlength),
    Bool.false_eq_true, if_false]

/-- What is written, by path. -/
def Output.entries : Output → List (String × ByteArray)
  | .folder files => files
  | .zip entries => entries

theorem mapM_entryPath {entries : List (String × ByteArray)}
    (hdirect : ∀ entry ∈ entries, Path.IsDirect entry.1)
    (htakes : ∀ entry ∈ entries, OutputKind.zip.Takes entry.1) :
    entries.mapM (fun entry => do return (← entryPath entry.1, entry.2)) = .ok entries := by
  induction entries with
  | nil => rfl
  | cons entry rest ih =>
    obtain ⟨hentry, hrest⟩ := List.forall_mem_cons.1 hdirect
    obtain ⟨hentry', hrest'⟩ := List.forall_mem_cons.1 htakes
    rw [List.mapM_cons, entryPath_eq hentry hentry', ih hrest hrest']
    rfl

/-- If no path begins another and none is too long, all is written as it is. -/
theorem output_entries {all : Files} {found : List (String × ByteArray)} {kind : OutputKind}
    (hdirect : ∀ entry ∈ contents all found, Path.IsDirect entry.1)
    (htakes : ∀ entry ∈ contents all found, kind.Takes entry.1)
    (hapart : kind = .folder → (contents all found).Pairwise fun a b => Apart a.1 b.1) :
    ∃ written, output all found kind = .ok written ∧ written.entries = contents all found := by
  cases kind with
  | zip =>
    exact ⟨.zip (contents all found), by rw [output, mapM_entryPath hdirect htakes]; rfl, rfl⟩
  | folder =>
    obtain ⟨s, hs, hfiles⟩ := Store.foldlM_put (s := {}) hdirect htakes (hapart rfl)
      fun entry _ => ⟨fun _ _ => List.not_mem_nil, List.not_mem_nil, List.not_mem_nil⟩
    exact ⟨.folder s.files, by rw [output, hs]; rfl, hfiles⟩

example : output [] [("walk.svg", ⟨#[1]⟩), ("walk.svg/left.svg", ⟨#[2]⟩)] .folder =
    .error .fileForFolder := rfl

end Export

end ScratchExport
