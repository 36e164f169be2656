import OperationLibrary.Disk.FileTree
import OperationLibrary.Proofs.TrimmedText

/-!
Files after writing. A file that was written has the contents that were written and is found again
at its path; every other file is as it was, and no directory is gone.
-/

namespace OperationLibrary

/-! ### Trees -/

namespace FileTree

variable {tree : FileTree} {place other : List String} {contents : ByteArray}

theorem isDirectory_iff :
    tree.isDirectory place = true ↔
      place = [] ∨ (∃ directory ∈ tree.directories, place <+: directory) ∨
        ∃ file ∈ tree.files.map Prod.fst, place <+: file ∧ place.length < file.length := by
  simp [isDirectory, or_assoc]

theorem isDirectory_makeDirectory_iff :
    (tree.makeDirectory place).isDirectory other = true ↔
      tree.isDirectory other = true ∨ other <+: place := by
  simp only [isDirectory_iff, makeDirectory, List.mem_append, List.mem_singleton, or_and_right,
    exists_or, exists_eq_left]
  grind

/-- Replacing the contents of a file where it stands. -/
theorem lookup_map_replace (files : List (List String × ByteArray)) :
    (files.map fun file => if file.1 == place then (place, contents) else file).lookup other =
      if other = place then (files.lookup place).map fun _ => contents
      else files.lookup other := by
  induction files with
  | nil => simp
  | cons file files ih =>
      obtain ⟨name, old⟩ := file
      rw [List.map_cons]
      by_cases hname : name = place
      · subst hname
        by_cases hother : other = name
        · simp [hother]
        · have hbeq : (other == name) = false := beq_eq_false_iff_ne.mpr hother
          simpa [List.lookup_cons, hother, hbeq] using ih
      · have hkept : (name == place) = false := beq_eq_false_iff_ne.mpr hname
        have hbeq : (place == name) = false := beq_eq_false_iff_ne.mpr (Ne.symm hname)
        rw [hkept, List.lookup_cons, List.lookup_cons, List.lookup_cons, hbeq, ih]
        by_cases hother : other = place
        · simp [hother, hbeq]
        · simp [hother]

theorem file?_write :
    (tree.write place contents).file? other =
      if other = place then some contents else tree.file? other := by
  rw [file?, file?, write]
  by_cases hfile : tree.isFile place = true
  · obtain ⟨old, hold⟩ := Option.isSome_iff_exists.mp hfile
    rw [if_pos hfile, lookup_map_replace, show tree.files.lookup place = some old from hold,
      Option.map_some]
  · have hnone : tree.files.lookup place = none := Option.not_isSome_iff_eq_none.mp hfile
    rw [if_neg hfile, List.lookup_append]
    by_cases hother : other = place
    · simp [hother, hnone]
    · simp [hother, List.lookup_cons, beq_eq_false_iff_ne.mpr hother]

/-- The files after writing: those that were there, and the one that was written. -/
theorem mem_files_write {file : List String} :
    file ∈ (tree.write place contents).files.map Prod.fst ↔
      file ∈ tree.files.map Prod.fst ∨ file = place := by
  unfold write
  split
  case isTrue hfile =>
    have hmem : place ∈ tree.files.map Prod.fst := by
      obtain ⟨old, hold⟩ := Option.isSome_iff_exists.mp hfile
      obtain ⟨before, behind, hfiles, -⟩ := List.lookup_eq_some_iff.mp hold
      simp [hfiles]
    have hreplaced : (tree.files.map fun file =>
        if file.1 == place then (place, contents) else file).map Prod.fst =
          tree.files.map Prod.fst := by
      rw [List.map_map]
      refine List.map_congr_left fun file _ => ?_
      by_cases h : file.1 = place <;> simp [h]
    rw [hreplaced]
    exact ⟨.inl, fun h => h.elim id (· ▸ hmem)⟩
  case isFalse => simp

theorem isDirectory_write_iff :
    (tree.write place contents).isDirectory other = true ↔
      tree.isDirectory other = true ∨ other <+: place ∧ other.length < place.length := by
  have hfiles : (∃ file ∈ (tree.write place contents).files.map Prod.fst,
      other <+: file ∧ other.length < file.length) ↔
        (∃ file ∈ tree.files.map Prod.fst, other <+: file ∧ other.length < file.length) ∨
          other <+: place ∧ other.length < place.length := by
    simp only [mem_files_write, or_and_right, exists_or, exists_eq_left]
  rw [isDirectory_iff, isDirectory_iff, hfiles]
  simp only [write, or_assoc]

end FileTree

/-! ### Paths -/

namespace Path

theorem split_ne_nil (text : List Char) : split text ≠ [] := by
  cases text with
  | nil => simp [split]
  | cons c text =>
      rw [split]
      split
      · simp
      · split <;> simp

theorem split_append_slash (front back : List Char) :
    split (front ++ '/' :: back) = split front ++ split back := by
  induction front with
  | nil => simp [split]
  | cons c front ih =>
      rw [List.cons_append, split, split, ih]
      by_cases hc : c = '/'
      · simp [hc]
      · cases hsplit : split front with
        | nil => exact absurd hsplit (split_ne_nil front)
        | cons first others => simp [hc]

/-- Segments in front of another one are those of a text in front of a slash. -/
theorem exists_front_of_split {text : List Char} {first last : List (List Char)}
    (h : split text = first ++ last) (hfirst : first ≠ []) (hlast : last ≠ []) :
    ∃ front back, text = front ++ '/' :: back ∧ split front = first := by
  induction text generalizing first with
  | nil =>
      have hlengths := congrArg List.length h
      simp only [split, List.length_singleton, List.length_append] at hlengths
      have := List.length_pos_iff.mpr hfirst
      have := List.length_pos_iff.mpr hlast
      omega
  | cons c text ih =>
      obtain ⟨segment, rest, rfl⟩ := List.exists_cons_of_ne_nil hfirst
      rw [split] at h
      by_cases hc : c = '/'
      · simp only [hc, if_true, List.cons_append, List.cons.injEq] at h
        obtain ⟨rfl, hrest⟩ := h
        -- this slash ends the segments in front, or a later one does
        by_cases hnil : rest = []
        · exact ⟨[], text, by simp [hc], by simp [hnil, split]⟩
        · obtain ⟨front, back, rfl, hfront⟩ := ih hrest hnil
          exact ⟨'/' :: front, back, by simp [hc], by simp [split, hfront]⟩
      · cases hsplit : split text with
        | nil => exact absurd hsplit (split_ne_nil text)
        | cons start others =>
            simp only [hc, if_false, hsplit, List.cons_append, List.cons.injEq] at h
            obtain ⟨rfl, rfl⟩ := h
            have hrest : split text = (start :: rest) ++ last := hsplit
            obtain ⟨front, back, rfl, hfront⟩ := ih hrest (List.cons_ne_nil _ _)
            exact ⟨c :: front, back, rfl, by simp [split, hc, hfront]⟩

/-- The directory part of a path starts with what stands in front of a slash, and ends there or goes
on with the slash. -/
theorem toList_parent {path : String} {front back : List Char} {c : Char}
    (hpath : path.toList = front ++ c :: '/' :: back) (hc : c ≠ '/') :
    ∃ more, (parent path).toList = front ++ c :: more ∧
      (more = [] ∨ ∃ rest, more = '/' :: rest) := by
  let name := Text.dropEndWhile (· ≠ '/') back
  have hhead : Text.dropEndWhile (· ≠ '/') path.toList = front ++ c :: '/' :: name := by
    have hshift : path.toList = (front ++ [c]) ++ '/' :: back := by simp [hpath]
    rw [hshift, Text.dropEndWhile_append_cons (by simp)]
    simp [name]
  have htrimmed : Text.dropEndWhile (· == '/') (front ++ c :: '/' :: name) =
      front ++ c :: Text.dropEndWhile (· == '/') ('/' :: name) :=
    Text.dropEndWhile_append_cons (by simpa using hc) front _
  have hparent : (parent path).toList =
      front ++ c :: Text.dropEndWhile (· == '/') ('/' :: name) := by
    rw [parent, hhead, htrimmed]
    simp
  refine ⟨_, hparent, ?_⟩
  obtain ⟨cut, hcut⟩ := Text.dropEndWhile_prefix (· == '/') ('/' :: name)
  cases hmore : Text.dropEndWhile (· == '/') ('/' :: name) with
  | nil => exact .inl rfl
  | cons first rest =>
      rw [hmore, List.cons_append, List.cons.injEq] at hcut
      exact .inr ⟨rest, by rw [hcut.1]⟩

/-- What stands in front of a slash is on the way to the directory of a path, unless it ends in a
slash itself. -/
theorem mem_ancestors_parent {path : String} {front back : List Char} {c : Char}
    (hpath : path.toList = front ++ c :: '/' :: back) (hc : c ≠ '/') :
    String.ofList (front ++ [c]) ∈ ancestors (parent path) := by
  obtain ⟨more, hparent, hmore⟩ := toList_parent hpath hc
  rw [ancestors, List.mem_filterMap]
  refine ⟨front.length, by simp [hparent], ?_⟩
  have hlast : (parent path).toList[front.length]? = some c := by simp [hparent]
  have hnext : (parent path).toList[front.length + 1]? = more.head? := by
    simp [hparent, List.getElem?_append_right, List.head?_eq_getElem?]
  simp only [hlast, hnext]
  rcases hmore with rfl | ⟨rest, rfl⟩
  · simp [← hparent]
  · have hshift : front ++ c :: '/' :: rest = (front ++ [c]) ++ '/' :: rest := by simp
    simp only [hparent, List.head?_cons, hshift]
    rw [List.take_left' (by simp)]

end Path

namespace Workspace

/-! ### Reaching a path -/

/-- The directory that paths start from is there. -/
def Grounded (workspace : Workspace) : Prop :=
  workspace.tree.isDirectory workspace.directory = true

/-- The directories on the way to a path are there. -/
def Opens (workspace : Workspace) (path : String) : Prop :=
  ∀ above ∈ Path.ancestors (Path.parent path),
    workspace.tree.isDirectory (workspace.place above) = true

variable {workspace before after : Workspace} {path contents : String}

theorem Grounded.isDirectory_start (h : workspace.Grounded) (path : String) :
    workspace.tree.isDirectory (Path.start workspace.directory path) = true := by
  unfold Path.start
  split
  · rfl
  · exact h

theorem foldlM_step_eq {isDirectory : List String → Bool} {segments : List String}
    {here : List String} (h : ∀ first last, segments = first ++ last → last ≠ [] →
      isDirectory (first.foldl Path.step here) = true) :
    segments.foldlM (fun here segment =>
      if isDirectory here then some (Path.step here segment) else none) here =
        some (segments.foldl Path.step here) := by
  induction segments generalizing here with
  | nil => rfl
  | cons segment segments ih =>
      have hhere : isDirectory here = true := h [] _ rfl (List.cons_ne_nil _ _)
      rw [List.foldlM_cons, if_pos hhere, List.foldl_cons]
      refine ih fun first last hsplit hlast => ?_
      exact h (segment :: first) last (by rw [hsplit, List.cons_append]) hlast

/-- What stands in front of a slash leads to a directory. -/
theorem Opens.isDirectory_front (h : workspace.Opens path) (hground : workspace.Grounded)
    {front back : List Char} (hpath : path.toList = front ++ '/' :: back) :
    workspace.tree.isDirectory (((Path.split front).map String.ofList).foldl Path.step
      (Path.start workspace.directory path)) = true := by
  induction front using List.reverseRecOn generalizing back with
  | nil => exact hground.isDirectory_start path
  | append_singleton front c ih =>
      by_cases hc : c = '/'
      · -- a further slash leads nowhere
        subst hc
        rw [Path.split_append_slash, List.map_append, List.foldl_append]
        have hshift : path.toList = front ++ '/' :: ('/' :: back) := by simpa using hpath
        exact ih hshift
      · have habove := h _ (Path.mem_ancestors_parent (by simpa using hpath) hc)
        have hstart : Path.start workspace.directory (String.ofList (front ++ [c])) =
            Path.start workspace.directory path := by
          have hhead : (front ++ [c]).head? = path.toList.head? := by
            rw [hpath]
            cases front <;> simp
          rw [Path.start, Path.start, Path.isAbsolute, Path.isAbsolute, String.toList_ofList, hhead]
        rwa [Workspace.place, Path.place, Path.segments, String.toList_ofList, hstart] at habove

theorem Opens.reach?_eq (h : workspace.Opens path) (hground : workspace.Grounded)
    (hpath : path ≠ "") : workspace.reach? path = some (workspace.place path) := by
  have hempty : path.isEmpty = false := by simpa using hpath
  rw [reach?, hempty, if_neg Bool.false_ne_true, Workspace.place, Path.place]
  refine foldlM_step_eq fun first last hsplit hlast => ?_
  by_cases hfirst : first = []
  · rw [hfirst]
    exact hground.isDirectory_start path
  · obtain ⟨parts, others, hparts, rfl, rfl⟩ := List.map_eq_append_iff.mp hsplit
    obtain ⟨front, back, hfront, rfl⟩ := Path.exists_front_of_split hparts
      (fun hnil => hfirst (by rw [hnil, List.map_nil]))
      (fun hnil => hlast (by rw [hnil, List.map_nil]))
    exact h.isDirectory_front hground hfront

/-! ### Making directories -/

/-- What making directories leaves: the files that were there, and more directories. -/
structure Extends (before after : Workspace) : Prop where
  directory : after.directory = before.directory
  files : ∀ place, after.tree.file? place = before.tree.file? place
  directories : ∀ place, before.tree.isDirectory place = true →
    after.tree.isDirectory place = true

theorem Extends.refl (workspace : Workspace) : workspace.Extends workspace :=
  ⟨rfl, fun _ => rfl, fun _ => id⟩

theorem Extends.trans {between : Workspace} (h : before.Extends between)
    (hafter : between.Extends after) : before.Extends after :=
  ⟨hafter.directory.trans h.directory, fun place => (hafter.files place).trans (h.files place),
    fun place hplace => hafter.directories place (h.directories place hplace)⟩

theorem Extends.place_eq (h : before.Extends after) (path : String) :
    after.place path = before.place path := by
  rw [Workspace.place, Workspace.place, h.directory]

theorem extends_makeDirectory (workspace : Workspace) (place : List String) :
    workspace.Extends { workspace with tree := workspace.tree.makeDirectory place } :=
  ⟨rfl, fun _ => rfl, fun _ h => FileTree.isDirectory_makeDirectory_iff.mpr (.inl h)⟩

/-- All directories are there after they were made. -/
theorem extends_of_makeDirectories {paths : List String}
    (h : workspace.makeDirectories paths = .ok after) :
    workspace.Extends after ∧
      ∀ path ∈ paths, after.tree.isDirectory (workspace.place path) = true := by
  induction paths generalizing workspace with
  | nil =>
      obtain rfl := Except.ok.inj h
      exact ⟨.refl workspace, by simp⟩
  | cons path paths ih =>
      rw [makeDirectories] at h
      by_cases hthere : workspace.tree.isDirectory (workspace.place path) = true
      · rw [if_pos hthere] at h
        obtain ⟨hextends, hmade⟩ := ih h
        exact ⟨hextends, List.forall_mem_cons.mpr ⟨hextends.directories _ hthere, hmade⟩⟩
      · rw [if_neg hthere] at h
        split at h
        · contradiction
        · obtain ⟨hextends, hmade⟩ := ih h
          have hnew := extends_makeDirectory workspace (workspace.place path)
          refine ⟨hnew.trans hextends, List.forall_mem_cons.mpr ⟨?_, hmade⟩⟩
          refine hextends.directories _ ?_
          exact FileTree.isDirectory_makeDirectory_iff.mpr (.inr (List.prefix_refl _))

theorem makeDirectories_eq_self {paths : List String}
    (h : ∀ path ∈ paths, workspace.tree.isDirectory (workspace.place path) = true) :
    workspace.makeDirectories paths = .ok workspace := by
  induction paths with
  | nil => rfl
  | cons path paths ih =>
      rw [List.forall_mem_cons] at h
      rw [makeDirectories, if_pos h.1, ih h.2]

/-! ### Writing a file -/

/-- What writing a file leaves. -/
structure Wrote (before : Workspace) (path contents : String) (after : Workspace) : Prop where
  directory : after.directory = before.directory
  here : after.tree.file? (before.place path) = some contents.toUTF8
  elsewhere : ∀ place ≠ before.place path, after.tree.file? place = before.tree.file? place
  directories : ∀ place, before.tree.isDirectory place = true →
    after.tree.isDirectory place = true
  way : after.Opens path
  free : after.tree.isDirectory (before.place path) = false

theorem write_eq (workspace : Workspace) (path contents : String) :
    workspace.write path contents =
      match workspace.makeDirectories (Path.ancestors (Path.parent path)) with
      | .error fault => .error fault
      | .ok made =>
        if made.tree.isDirectory (made.place path) then .error (.directoryInPlaceOfFile path)
        else .ok { made with tree := made.tree.write (made.place path) contents.toUTF8 } := by
  rw [write]
  cases workspace.makeDirectories (Path.ancestors (Path.parent path)) <;> rfl

theorem wrote_of_write (h : before.write path contents = .ok after) :
    before.Wrote path contents after := by
  rw [write_eq] at h
  cases hmade : before.makeDirectories (Path.ancestors (Path.parent path)) with
  | error fault => simp [hmade] at h
  | ok made =>
      obtain ⟨hextends, hway⟩ := extends_of_makeDirectories hmade
      simp only [hmade, hextends.place_eq] at h
      by_cases hdirectory : made.tree.isDirectory (before.place path) = true
      · simp [hdirectory] at h
      rw [if_neg hdirectory] at h
      obtain rfl := Except.ok.inj h
      have hgrows : ∀ place, made.tree.isDirectory place = true →
          (made.tree.write (before.place path) contents.toUTF8).isDirectory place = true :=
        fun place hplace => FileTree.isDirectory_write_iff.mpr (.inl hplace)
      refine ⟨hextends.directory, ?_, fun place hplace => ?_, fun place hplace => ?_,
        fun above habove => ?_, ?_⟩
      · rw [FileTree.file?_write, if_pos rfl]
      · rw [FileTree.file?_write, if_neg hplace, hextends.files]
      · exact hgrows place (hextends.directories place hplace)
      · exact hgrows _ ((hextends.place_eq above).symm ▸ hway above habove)
      · refine Bool.eq_false_iff.mpr fun hthere => ?_
        rcases FileTree.isDirectory_write_iff.mp hthere with hthere | ⟨-, hlength⟩
        · exact hdirectory hthere
        · exact Nat.lt_irrefl _ hlength

variable (h : before.Wrote path contents after)
include h

theorem Wrote.place_eq (path : String) : after.place path = before.place path := by
  rw [Workspace.place, Workspace.place, h.directory]

theorem Wrote.grounded (hground : before.Grounded) : after.Grounded :=
  h.directories _ (h.directory.symm ▸ hground)

/-- A file that was written is found at its path. -/
theorem Wrote.reach?_eq (hground : before.Grounded) :
    after.reach? path = some (before.place path) := by
  rw [h.way.reach?_eq (h.grounded hground), h.place_eq]
  rintro rfl
  -- without a path there is only the directory itself
  have hthere : after.tree.isDirectory (before.place "") = true := h.directories _ hground
  rw [h.free] at hthere
  contradiction

/-- A file that was written is read back. -/
theorem Wrote.read?_eq (hground : before.Grounded) : after.read? path = some contents.toUTF8 := by
  rw [read?, h.reach?_eq hground, Option.bind_some, h.here]

omit h in
/-- With all directories on the way and none in its place, a file is written. -/
theorem Opens.write_eq (hopens : before.Opens path)
    (hfree : before.tree.isDirectory (before.place path) = false) (contents : String) :
    before.write path contents =
      .ok { before with tree := before.tree.write (before.place path) contents.toUTF8 } := by
  rw [Workspace.write_eq, makeDirectories_eq_self hopens]
  simp [hfree]

/-- A file that was written can be written again. -/
theorem Wrote.write_again (other : String) :
    ∃ again, after.write path other = .ok again ∧ after.Wrote path other again :=
  have hwrite := h.way.write_eq (h.place_eq path ▸ h.free) other
  ⟨_, hwrite, wrote_of_write hwrite⟩

omit h

/-! ### Writing files -/

/-- What writing files leaves, whether or not all of them could be written. -/
structure WroteSome (before : Workspace) (files : List (String × String)) (after : Workspace) :
    Prop where
  directory : after.directory = before.directory
  elsewhere : ∀ place, (∀ file ∈ files, place ≠ before.place file.1) →
    after.tree.file? place = before.tree.file? place
  directories : ∀ place, before.tree.isDirectory place = true →
    after.tree.isDirectory place = true

theorem WroteSome.grounded {files : List (String × String)} (h : before.WroteSome files after)
    (hground : before.Grounded) : after.Grounded :=
  h.directories _ (h.directory.symm ▸ hground)

theorem WroteSome.cons {between : Workspace} {files : List (String × String)}
    (hfirst : before.Wrote path contents between) (hrest : between.WroteSome files after) :
    before.WroteSome ((path, contents) :: files) after where
  directory := hrest.directory.trans hfirst.directory
  elsewhere place hplace := by
    rw [List.forall_mem_cons] at hplace
    rw [hrest.elsewhere place fun file hfile => hfirst.place_eq file.1 ▸ hplace.2 file hfile]
    exact hfirst.elsewhere place hplace.1
  directories place hplace := hrest.directories place (hfirst.directories place hplace)

end Workspace

end OperationLibrary
