import Keyforge.Proofs.Firmware.Fallout
import Mathlib.Data.List.Nodup

/-!
# What a successful write leaves behind

Files are written under their temporary names and then moved into place, which changes nothing but the
entries under these names (`entryAt?_of_write`). The names all differ, so that no file is in the way of
another one (`nodup_namesIn`).
-/

namespace Keyforge.Firmware.Artifacts

open File (Tree Path)

variable {a : Artifacts} {directory : Path} {tree made now now' : Tree} {home : List String}
  {files : List (String × String)} {name other : String}

/-! ### Names -/

/-- The name under which a file is written at first. -/
def temporaryName (name : String) : String := "." ++ name ++ ".tmp"

theorem toList_temporaryName (name : String) :
    (temporaryName name).toList = '.' :: (name.toList ++ ['.', 't', 'm', 'p']) := by
  simp [temporaryName]

theorem temporaryName_inj : temporaryName name = temporaryName other ↔ name = other := by
  rw [← String.toList_inj, toList_temporaryName, toList_temporaryName, List.cons_inj_right,
    List.append_left_inj, String.toList_inj]

theorem length_temporaryName (name : String) :
    (temporaryName name).toList.length = name.toList.length + 5 := by
  simp [toList_temporaryName]

theorem temporaryName_ne (h : other.toList.length < name.toList.length + 5) :
    temporaryName name ≠ other := by
  rintro rfl
  rw [length_temporaryName] at h
  omega

theorem temporaryName_ne_dots (name : String) : temporaryName name ≠ ".." :=
  temporaryName_ne (show 2 < _ by omega)

def stagedAt (directory : Path) (name : String) : Staged :=
  ⟨⟨directory.root, directory.parts ++ [temporaryName name]⟩,
    ⟨directory.root, directory.parts ++ [name]⟩⟩

theorem child_eq (h : Path.ofString name = ⟨"", [name]⟩) :
    directory.child name = (stagedAt directory name).target := by
  unfold Path.child
  rw [h]
  rfl

theorem paths_eq (h : Path.ofString name = ⟨"", [name]⟩) :
    paths directory name = .ok (stagedAt directory name) := by
  have htemporary : Path.ofString (temporaryName name) = ⟨"", [temporaryName name]⟩ := by
    obtain ⟨hslash, -⟩ := Path.ofString_eq_iff.mp h
    refine Path.ofString_eq_iff.mpr ⟨?_, temporaryName_ne (by simp), temporaryName_ne (by simp)⟩
    simpa [toList_temporaryName] using hslash
  unfold paths
  rw [child_eq h]
  show (Path.withName _ (temporaryName name)).map _ = _
  unfold Path.withName
  rw [htemporary]
  have hlast : (temporaryName name).toList.getLast? = some 'p' := by
    rw [toList_temporaryName, ← List.cons_append, List.getLast?_append_of_ne_nil _ (by decide)]
    rfl
  simp [stagedAt, hlast, Except.map]

/-! ### Moving files into place -/

/-- The names that files of a directory have at first and in the end. -/
def namesIn (home : List String) (files : List (String × String)) : List (List String) :=
  files.flatMap fun file => [home ++ [file.1], home ++ [temporaryName file.1]]

theorem mem_namesIn {names : List String} : names ∈ namesIn home files ↔
    ∃ file ∈ files, names = home ++ [file.1] ∨ names = home ++ [temporaryName file.1] := by
  simp [namesIn]

theorem move_spec (hhome : now.place directory = .found home .directory)
    (h : now.move (stagedAt directory name).temporary (stagedAt directory name).target = .ok now')
    {content : String} (hstaged : now.content? (home ++ [temporaryName name]) = some content) :
    now.SameDirectories now' ∧ Tree.nameError? (stagedAt directory name).target.text = none ∧
      now.reach (stagedAt directory name).target = some (home ++ [name]) ∧
      now'.content? = Function.update
        (Function.update now.content? (home ++ [temporaryName name]) none) (home ++ [name])
        (some content) := by
  obtain ⟨hasked, hdots⟩ := Tree.name_of_move h
  have hdots : name ≠ ".." := by simpa [stagedAt, Path.name] using hdots
  obtain ⟨source, goal, found, hsource, hgoal, hfound, hsame, hcontent⟩ := Tree.move_eq_ok h
  obtain rfl := Tree.reach_child hhome (temporaryName_ne_dots name) hsource
  obtain rfl := Tree.reach_child hhome hdots hgoal
  cases hfound.symm.trans hstaged
  exact ⟨hsame, hasked, hgoal, hcontent⟩

/-- All files are in place, and nothing else has changed. -/
theorem commit_spec (hhome : now.place directory = .found home .directory)
    (hdistinct : (namesIn home files).Nodup)
    (hstaged : ∀ file ∈ files, now.content? (home ++ [temporaryName file.1]) = some file.2)
    (h : commit (files.map fun file => stagedAt directory file.1) now = (now', .ok ())) :
    now.SameDirectories now' ∧
    (∀ file ∈ files, Tree.nameError? (stagedAt directory file.1).target.text = none ∧
      now'.reach (stagedAt directory file.1).target = some (home ++ [file.1]) ∧
      now'.content? (home ++ [file.1]) = some file.2 ∧
      now'.content? (home ++ [temporaryName file.1]) = none) ∧
    ∀ names ∉ namesIn home files, now'.content? names = now.content? names := by
  induction files generalizing now with
  | nil =>
    cases h
    exact ⟨.refl _, List.forall_mem_nil _, fun _ _ => rfl⟩
  | cons file files ih =>
    rw [List.map_cons, commit] at h
    cases hmove : now.move (stagedAt directory file.1).temporary (stagedAt directory file.1).target with
    | error e =>
      rw [hmove] at h
      cases h
    | ok now₁ =>
      rw [hmove] at h
      obtain ⟨hhead, hrest⟩ := List.forall_mem_cons.mp hstaged
      obtain ⟨hsame, hasked, hgoal, hcontent⟩ := move_spec hhome hmove hhead
      rw [namesIn, List.flatMap_cons, List.cons_append, List.cons_append, List.nil_append,
        List.nodup_cons, List.nodup_cons, List.mem_cons, not_or] at hdistinct
      obtain ⟨⟨hapart, hgoalNew⟩, hsourceNew, hdistinct⟩ := hdistinct
      -- what the other files need is under none of the two names that have changed
      have hothers : ∀ other ∈ files,
          now₁.content? (home ++ [temporaryName other.1]) = some other.2 := by
        intro other hother
        have hmem : home ++ [temporaryName other.1] ∈ namesIn home files :=
          mem_namesIn.mpr ⟨other, hother, .inr rfl⟩
        rw [hcontent, Function.update_of_ne (ne_of_mem_of_not_mem hmem hgoalNew),
          Function.update_of_ne (ne_of_mem_of_not_mem hmem hsourceNew), hrest other hother]
      obtain ⟨hsame', hplaced, hframe⟩ := ih (Tree.place_congr_directory hsame hhome) hdistinct hothers h
      refine ⟨hsame.trans hsame', List.forall_mem_cons.mpr ⟨⟨hasked, ?_, ?_, ?_⟩, hplaced⟩, ?_⟩
      · rw [Tree.reach_congr (hsame.trans hsame'), hgoal]
      · rw [hframe _ hgoalNew, hcontent, Function.update_self]
      · rw [hframe _ hsourceNew, hcontent, Function.update_of_ne (Ne.symm hapart), Function.update_self]
      · intro names hout
        rw [namesIn, List.flatMap_cons, List.cons_append, List.cons_append, List.nil_append,
          List.mem_cons, List.mem_cons, not_or, not_or] at hout
        obtain ⟨hgoalNe, hsourceNe, hout⟩ := hout
        rw [hframe names hout, hcontent, Function.update_of_ne hgoalNe, Function.update_of_ne hsourceNe]

/-! ### Writing files -/

/-- All files are under their temporary names, and nothing else has changed. -/
theorem StagedTo.spec {staged : List Staged} (h : StagedTo made directory files staged now)
    (hhome : made.place directory = .found home .directory)
    (hnames : ∀ file ∈ files, Path.ofString file.1 = ⟨"", [file.1]⟩)
    (hdistinct : (files.map Prod.fst).Nodup) :
    staged = files.map (fun file => stagedAt directory file.1) ∧
    (∀ file ∈ files, now.content? (home ++ [temporaryName file.1]) = some file.2 ∧
      made.entryAt? (home ++ [temporaryName file.1]) ≠ some .directory) ∧
    ∀ names, (∀ file ∈ files, names ≠ home ++ [temporaryName file.1]) →
      now.content? names = made.content? names := by
  have hstaged : staged = files.map fun file => stagedAt directory file.1 := by
    have hpaths := h.paths
    clear h hdistinct
    induction hpaths with
    | nil => rfl
    | cons hpath _ ih =>
      obtain ⟨hname, hnames⟩ := List.forall_mem_cons.mp hnames
      rw [paths_eq hname] at hpath
      cases hpath
      rw [ih hnames, List.map_cons]
  have hplaces : ∀ file ∈ files,
      temporary? made directory file.1 = some (home ++ [temporaryName file.1]) ∧
        made.entryAt? (home ++ [temporaryName file.1]) ≠ some .directory := by
    intro file hfile
    have hmem : stagedAt directory file.1 ∈ staged := hstaged ▸ List.mem_map_of_mem hfile
    obtain ⟨names, hreach, hentry⟩ := h.places _ hmem
    obtain rfl := Tree.reach_child hhome (temporaryName_ne_dots file.1) hreach
    exact ⟨(temporary?_of_paths (paths_eq (hnames file hfile))).trans hreach, hentry⟩
  have hstagings : stagings made directory files =
      (files.map fun file => (home ++ [temporaryName file.1], some file.2)).reverse := by
    unfold stagings
    refine congrArg List.reverse ?_
    rw [← List.filterMap_eq_map]
    refine List.filterMap_congr fun file hfile => ?_
    rw [(hplaces file hfile).1]
    rfl
  refine ⟨hstaged, fun file hfile => ⟨?_, (hplaces file hfile).2⟩, fun names hout => ?_⟩
  · have hkeys : ((stagings made directory files).map Prod.fst).Nodup := by
      rw [hstagings, List.map_reverse, List.nodup_reverse, List.map_map]
      have hinj : Function.Injective fun name => home ++ [temporaryName name] := by
        intro name other heq
        simpa [temporaryName_inj] using heq
      have := hdistinct.map hinj
      rwa [List.map_map] at this
    have hmem : (home ++ [temporaryName file.1], some file.2) ∈ stagings made directory files := by
      rw [hstagings, List.mem_reverse]
      exact List.mem_map_of_mem hfile
    rw [h.content, altered, (Pairs.lookup_eq_some_iff hkeys).mpr hmem]
    rfl
  · have hlookup : (stagings made directory files).lookup names = none := by
      refine List.lookup_eq_none_iff.mpr fun change hchange => ?_
      rw [hstagings, List.mem_reverse] at hchange
      obtain ⟨file, hfile, rfl⟩ := List.mem_map.mp hchange
      simpa using hout file hfile
    rw [h.content, altered, hlookup]
    rfl

theorem nodup_namesIn (home : List String) (hdistinct : (files.map Prod.fst).Nodup)
    (hapart : ∀ file ∈ files, ∀ other ∈ files, file.1 ≠ temporaryName other.1) :
    (namesIn home files).Nodup := by
  refine List.nodup_flatMap.mpr ⟨fun file hfile => ?_,
    (List.pairwise_map.mp hdistinct).imp_of_mem fun {file other} hfile hother hne => ?_⟩
  · simpa using hapart file hfile file hfile
  · have htemporary := hapart other hother file hfile
    have htemporary' := (hapart file hfile other hother).symm
    simp [Function.onFun, temporaryName_inj, hne.symm, htemporary, htemporary']

theorem write_eq_ok {tree' : Tree} {placed : List Path}
    (h : a.write directory tree = (tree', .ok placed)) :
    ∃ made all staged, tree.makeDirectories directory = (made, .ok ()) ∧
      stage directory a.files [] made = (all, .ok staged) ∧
      commit staged all = (tree', .ok ()) ∧ placed = staged.map (·.target) := by
  unfold write at h
  split at h
  · cases h
  next made hmake =>
    split at h
    · cases h
    next all staged hstage =>
      split at h
      · cases h
      next moved hcommit =>
        cases h
        exact ⟨made, all, staged, hmake, hstage, hcommit, rfl⟩

/-- **A successful write changes exactly its targets.** Files with single names, none of which is the
temporary name of another one, are all in place, their temporary names are free, and every other entry
is as before but for directories that are made on the way. -/
theorem entryAt?_of_write {a : Artifacts} {directory : Path} {tree tree' : Tree} {placed : List Path}
    (hnames : ∀ file ∈ a.files, Path.ofString file.1 = ⟨"", [file.1]⟩)
    (hdistinct : (a.files.map Prod.fst).Nodup)
    (hapart : ∀ file ∈ a.files, ∀ other ∈ a.files, file.1 ≠ temporaryName other.1)
    (h : a.write directory tree = (tree', .ok placed)) :
    placed = a.files.map (fun file => directory.child file.1) ∧
    ∃ home, tree'.place directory = .found home .directory ∧
      (∀ file ∈ a.files, tree'.read (directory.child file.1) = .ok file.2 ∧
        tree'.entryAt? (home ++ [file.1]) = some (.file file.2) ∧
        tree'.entryAt? (home ++ [temporaryName file.1]) = none) ∧
      ∀ names, (∀ file ∈ a.files, names ≠ home ++ [file.1] ∧ names ≠ home ++ [temporaryName file.1]) →
        tree'.entryAt? names = tree.entryAt? names ∨
        tree.entryAt? names = none ∧ tree'.entryAt? names = some .directory ∧
          ∃ n, tree'.reach ⟨directory.root, directory.parts.take n⟩ = some names := by
  obtain ⟨made, all, staged, hmake, hstage, hcommit, rfl⟩ := write_eq_ok h
  obtain ⟨hpaved, hmade⟩ := Tree.makeDirectories_spec tree directory
  rw [hmake] at hpaved hmade
  obtain ⟨home, hhome⟩ := hmade rfl
  have hstaged : StagedTo made directory a.files staged all :=
    (StagedTo.start made directory).of_stage hstage
  obtain ⟨rfl, hcontent, hkept⟩ := hstaged.spec hhome hnames hdistinct
  obtain ⟨hsame, hplaced, hframe⟩ := commit_spec
    (Tree.place_congr_directory hstaged.directories hhome) (nodup_namesIn home hdistinct hapart)
    (fun file hfile => (hcontent file hfile).1) hcommit
  have hdirectories := hstaged.directories.trans hsame
  refine ⟨?_, home, Tree.place_congr_directory hdirectories hhome, fun file hfile => ?_,
    fun names hout => ?_⟩
  · rw [List.map_map]
    exact List.map_congr_left fun file hfile => (child_eq (hnames file hfile)).symm
  · obtain ⟨hasked, hreach, hfound, hfree⟩ := hplaced file hfile
    refine ⟨?_, Tree.content?_eq_some_iff.mp hfound, ?_⟩
    · rw [child_eq (hnames file hfile), Tree.read, hasked, Tree.place_eq_of_reach hreach,
        Tree.placeAt, Tree.content?_eq_some_iff.mp hfound]
    · refine Tree.entryAt?_eq_none hfree fun hdirectory => ?_
      exact (hcontent file hfile).2 ((hdirectories _).mp hdirectory)
  · have hentry : tree'.entryAt? names = made.entryAt? names := by
      refine Tree.entryAt?_congr ?_ (hdirectories names)
      rw [hframe names ?_, hkept names fun file hfile => (hout file hfile).2]
      intro hmem
      obtain ⟨file, hfile, heq | heq⟩ := mem_namesIn.mp hmem
      · exact (hout file hfile).1 heq
      · exact (hout file hfile).2 heq
    rw [hentry]
    rcases hpaved names with hsame | ⟨hnone, hmade, n, hreach⟩
    · exact .inl hsame
    · exact .inr ⟨hnone, hmade, n, (Tree.reach_congr hdirectories _).trans hreach⟩

/-- A directory in which an earlier write was torn. -/
def tornPlace : Tree := ⟨[(["out"], .directory), (["out", ".rules.mk.tmp"], .file "torn")]⟩

def keymapFiles : Artifacts where
  keyboard? := none
  keymap := "default"
  files := [("rules.mk", "a\n"), ("keymap.c", "b\n")]

/-- The path goes through a directory that is made for that and leaves it again. -/
theorem entryAt?_of_write_keymapFiles :
    ∃ tree' placed, keymapFiles.write ⟨"", ["new", "..", "out"]⟩ tornPlace = (tree', .ok placed) ∧
      tornPlace.entryAt? ["new"] = none ∧ tree'.entryAt? ["new"] = some .directory ∧
      ∃ home, tree'.place ⟨"", ["new", "..", "out"]⟩ = .found home .directory ∧
        tree'.entryAt? (home ++ [".rules.mk.tmp"]) = none ∧
        ∀ file ∈ keymapFiles.files, tree'.entryAt? (home ++ [file.1]) = some (.file file.2) := by
  have hwrite : keymapFiles.write ⟨"", ["new", "..", "out"]⟩ tornPlace =
      (⟨[(["out"], .directory), (["new"], .directory), (["out", "rules.mk"], .file "a\n"),
        (["out", "keymap.c"], .file "b\n")]⟩,
        .ok [⟨"", ["new", "..", "out", "rules.mk"]⟩, ⟨"", ["new", "..", "out", "keymap.c"]⟩]) := by
    decide +kernel
  obtain ⟨-, home, hhome, hfiles, -⟩ := entryAt?_of_write (by decide +kernel) (by decide) (by decide)
    hwrite
  exact ⟨_, _, hwrite, rfl, rfl, home, hhome, (hfiles ("rules.mk", "a\n") (by decide)).2.2,
    fun file hfile => (hfiles file hfile).2.1⟩

end Keyforge.Firmware.Artifacts
