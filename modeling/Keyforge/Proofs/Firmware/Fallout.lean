import Keyforge.Firmware.Artifacts
import Keyforge.Proofs.File.Tree
import Mathlib.Data.List.Forall2

/-!
# What a failed write leaves behind

Files are written under temporary names and then moved into place. `Artifacts.Fallout` lists the
changes for each point of failure, from the input alone. While files are staged the tree is known from
those that are done (`StagedTo`, `fallout_of_stage`); when one cannot be moved, those before it are in
place already (`fallout_of_commit`).
-/

namespace Keyforge.Firmware.Artifacts

open File (Tree Path)

variable {file : String × String} {s : Staged} {done rest : List (String × String)}
  {staged : List Staged}

/-! ### Changes of files -/

/-- A change of one file: its names, and its new content unless it is gone. -/
abbrev Change := List String × Option String

/-- Contents of files after changes, the last of which stands first. -/
def altered (files : List String → Option String) (changes : List Change) (names : List String) :
    Option String :=
  (changes.lookup names).getD (files names)

/-- Nothing is left of the files that were changed. -/
def freed (changes : List Change) : List Change := changes.map fun change => (change.1, none)

section Altered

variable {files : List String → Option String} {changes : List Change} {names : List String}

theorem altered_cons (names : List String) (content? : Option String) :
    altered files ((names, content?) :: changes) =
      Function.update (altered files changes) names content? := by
  funext other
  unfold altered
  rw [List.lookup_cons]
  by_cases hother : other = names
  · subst hother
    rw [beq_self_eq_true, Function.update_self]
    rfl
  · rw [beq_false_of_ne hother, Function.update_of_ne hother]

theorem altered_eq_iff :
    altered files changes names = files names ↔
      ∀ content?, changes.lookup names = some content? → files names = content? := by
  unfold altered
  cases changes.lookup names with
  | none => exact ⟨fun _ => nofun, fun _ => rfl⟩
  | some content? =>
    constructor
    · rintro h _ ⟨⟩
      exact h.symm
    · intro h
      exact (h content? rfl).symm

theorem lookup_freed : (freed changes).lookup names = (changes.lookup names).map fun _ => none :=
  Pairs.lookup_map_snd (fun _ => none) names changes

end Altered

/-! ### Changes at each point of failure -/

def temporary? (tree : Tree) (directory : Path) (name : String) : Option (List String) :=
  (paths directory name).toOption.bind fun s => tree.reach s.temporary

def target? (tree : Tree) (directory : Path) (name : String) : Option (List String) :=
  tree.reach (directory.child name)

/-- The changes when files are written under their temporary names. -/
def stagings (tree : Tree) (directory : Path) (files : List (String × String)) : List Change :=
  (files.filterMap fun file =>
    (temporary? tree directory file.1).map fun names => (names, some file.2)).reverse

/-- The changes when, after others, a file is moved into its place. -/
def moving (tree : Tree) (directory : Path) (changes : List Change) (file : String × String) :
    List Change :=
  match temporary? tree directory file.1, target? tree directory file.1 with
  | some source, some goal =>
    (goal, altered tree.content? changes source) :: (source, none) :: changes
  | _, _ => changes

/-- The point at which a file is about to be written under its temporary name: the directories are
made, and the files before it are written. -/
structure Staging (a : Artifacts) (directory : Path) (tree made : Tree)
    (done : List (String × String)) (file : String × String) (now : Tree) : Prop where
  make : tree.makeDirectories directory = (made, .ok ())
  files : ∃ rest, a.files = done ++ file :: rest
  done : ∃ staged, stage directory done [] made = (now, .ok staged)

/-- The point at which a file is about to be moved into its place: all files are written under their
temporary names, and those before it are moved. -/
structure Moving (a : Artifacts) (directory : Path) (tree made : Tree)
    (done : List (String × String)) (s : Staged) (now : Tree) : Prop where
  make : tree.makeDirectories directory = (made, .ok ())
  done : ∃ all moved rest, stage directory a.files [] made = (all, .ok (moved ++ s :: rest)) ∧
    commit moved all = (now, .ok ()) ∧ done = a.files.take moved.length

/-- The error that writing files ends in, with the changes that it leaves behind. -/
inductive Fallout (a : Artifacts) (directory : Path) (tree : Tree) :
    WriteError → List Change → Prop where
  | unmade {made : Tree} {e : File.Error}
      (hmake : tree.makeDirectories directory = (made, .error e)) :
      a.Fallout directory tree (.file e) []
  /-- The system refuses to open a temporary file. Those before it are removed, and with them what was
  under their names. -/
  | refused {made now : Tree} {done : List (String × String)} {file : String × String} {s : Staged}
      {e : File.Error} (hstaging : a.Staging directory tree made done file now)
      (hpaths : paths directory file.1 = .ok s) (hclear : now.clear s.temporary = .error e)
      (hrefusal : e.isRefusal = true) :
      a.Fallout directory tree (.file e) (freed (stagings made directory done))
  /-- A temporary file has a path that the system cannot be asked for. Those before it stay. -/
  | unaskable {made now : Tree} {done : List (String × String)} {file : String × String} {s : Staged}
      {e : File.Error} (hstaging : a.Staging directory tree made done file now)
      (hpaths : paths directory file.1 = .ok s) (hclear : now.clear s.temporary = .error e)
      (hrefusal : e.isRefusal = false) :
      a.Fallout directory tree (.file e) (stagings made directory done)
  /-- There is no temporary path at all. The files before it stay. -/
  | nameless {made now : Tree} {done : List (String × String)} {file : String × String}
      {e : Path.NameError} (hstaging : a.Staging directory tree made done file now)
      (hpaths : paths directory file.1 = .error e) :
      a.Fallout directory tree (.name e) (stagings made directory done)
  /-- A content cannot be encoded. An empty temporary file stays, and those before it. -/
  | unencodable {made now : Tree} {done : List (String × String)} {file : String × String}
      {names : List String} {cause : Text.Unencodable}
      (hstaging : a.Staging directory tree made done file now)
      (hnames : temporary? made directory file.1 = some names)
      (hcontent : Text.unencodable? file.2 = some cause) :
      a.Fallout directory tree (.file (.unencodable cause))
        ((names, some "") :: stagings made directory done)
  /-- A file cannot be moved. It stays under its temporary name, as do those after it, and those
  before it are in place. -/
  | unmoved {made now : Tree} {done : List (String × String)} {s : Staged} {e : File.Error}
      (hmoving : a.Moving directory tree made done s now)
      (hmove : now.move s.temporary s.target = .error e) :
      a.Fallout directory tree (.file e)
        (done.foldl (moving made directory) (stagings made directory a.files))

/-! ### Staging -/

variable {a : Artifacts} {directory : Path} {tree made now now' : Tree}

theorem target_of_paths {name : String} (h : paths directory name = .ok s) :
    s.target = directory.child name := by
  unfold paths at h
  dsimp only at h
  cases hname : (directory.child name).withName ("." ++ name ++ ".tmp") with
  | error e =>
    rw [hname] at h
    cases h
  | ok temporary =>
    rw [hname] at h
    cases h
    rfl

theorem temporary?_of_paths {name : String} (h : paths directory name = .ok s) :
    temporary? made directory name = made.reach s.temporary := by
  unfold temporary?
  rw [h, Except.toOption, Option.bind_some]

theorem stagings_snoc {names : List String} (h : temporary? made directory file.1 = some names) :
    stagings made directory (done ++ [file]) =
      (names, some file.2) :: stagings made directory done := by
  unfold stagings
  rw [List.filterMap_append, List.reverse_append, List.filterMap_cons, h]
  rfl

theorem stage_cons_of_ok (rest : List (String × String)) (staged : List Staged)
    (hpaths : paths directory file.1 = .ok s)
    (hwrite : now.write s.temporary file.2 = (now', .ok ())) :
    stage directory (file :: rest) staged now = stage directory rest (staged ++ [s]) now' := by
  conv_lhs => unfold stage
  rw [hpaths]
  dsimp only
  rw [hwrite]

/-- What comes of one file: it has no temporary path, it cannot be written, or the others follow. -/
theorem stage_cons (directory : Path) (file : String × String) (rest : List (String × String))
    (staged : List Staged) (now : Tree) :
    (∃ e, paths directory file.1 = .error e ∧
      stage directory (file :: rest) staged now = (now, .error (.name e))) ∨
    (∃ s e now', paths directory file.1 = .ok s ∧ now.write s.temporary file.2 = (now', .error e) ∧
      stage directory (file :: rest) staged now =
        (if e.isRefusal then discard now' staged else now', .error (.file e))) ∨
    ∃ s now', paths directory file.1 = .ok s ∧ now.write s.temporary file.2 = (now', .ok ()) ∧
      stage directory (file :: rest) staged now = stage directory rest (staged ++ [s]) now' := by
  cases hpaths : paths directory file.1 with
  | error e =>
    refine .inl ⟨e, rfl, ?_⟩
    unfold stage
    rw [hpaths]
  | ok s =>
    right
    cases hwrite : now.write s.temporary file.2 with
    | mk now' result =>
      cases result with
      | error e =>
        refine .inl ⟨s, e, now', rfl, hwrite, ?_⟩
        unfold stage
        rw [hpaths]
        dsimp only
        rw [hwrite]
      | ok _ => exact .inr ⟨s, now', rfl, hwrite, stage_cons_of_ok rest staged hpaths hwrite⟩

theorem of_stage_cons {all : List Staged}
    (h : stage directory (file :: rest) staged now = (now', .ok all)) :
    ∃ s now₁, paths directory file.1 = .ok s ∧ now.write s.temporary file.2 = (now₁, .ok ()) ∧
      stage directory rest (staged ++ [s]) now₁ = (now', .ok all) := by
  obtain ⟨e, -, hstage⟩ | ⟨s, e, now₁, -, -, hstage⟩ | ⟨s, now₁, hpaths, hwrite, hstage⟩ :=
    stage_cons directory file rest staged now <;> rw [hstage] at h
  · cases h
  · cases h
  · exact ⟨s, now₁, hpaths, hwrite, h⟩

theorem stage_append {all : List Staged} (h : stage directory done staged made = (now, .ok all)) :
    stage directory (done ++ rest) staged made = stage directory rest all now := by
  induction done generalizing staged made with
  | nil =>
    cases h
    rfl
  | cons file done ih =>
    obtain ⟨s, now', hpaths, hwrite, h⟩ := of_stage_cons h
    rw [List.cons_append, stage_cons_of_ok _ staged hpaths hwrite]
    exact ih h

/-- What holds once files are written under their temporary names. -/
structure StagedTo (made : Tree) (directory : Path) (done : List (String × String))
    (staged : List Staged) (now : Tree) : Prop where
  run : stage directory done [] made = (now, .ok staged)
  paths : List.Forall₂ (fun file s => Artifacts.paths directory file.1 = .ok s) done staged
  places : ∀ s ∈ staged, ∃ names, made.reach s.temporary = some names ∧
    made.entryAt? names ≠ some .directory
  directories : made.SameDirectories now
  content : now.content? = altered made.content? (stagings made directory done)

namespace StagedTo

variable {all : List Staged}

theorem start (made : Tree) (directory : Path) : StagedTo made directory [] [] made where
  run := rfl
  paths := .nil
  places := by simp
  directories := .refl made
  content := rfl

theorem snoc (h : StagedTo made directory done staged now)
    (hpaths : Artifacts.paths directory file.1 = .ok s)
    (hwrite : now.write s.temporary file.2 = (now', .ok ())) :
    StagedTo made directory (done ++ [file]) (staged ++ [s]) now' := by
  obtain ⟨names, hreach, hsame, hcontent⟩ := Tree.write_eq_ok hwrite
  rw [Tree.reach_congr h.directories] at hreach
  have hdirectories := h.directories.trans hsame
  have hentry : made.entryAt? names ≠ some .directory := by
    -- there is a file now, and the directories are those of before
    have hfile : now'.content? names = some file.2 := by rw [hcontent, Function.update_self]
    rw [Tree.content?_eq_some_iff] at hfile
    intro hdirectory
    rw [(hdirectories names).mpr hdirectory] at hfile
    cases hfile
  refine ⟨?_, ?_, ?_, hdirectories, ?_⟩
  · rw [stage_append h.run, stage_cons_of_ok [] staged hpaths hwrite]
    rfl
  · exact List.rel_append h.paths (.cons hpaths .nil)
  · exact forall_mem_concat.mpr ⟨h.places, names, hreach, hentry⟩
  · rw [hcontent, h.content, stagings_snoc ((temporary?_of_paths hpaths).trans hreach), altered_cons]

theorem of_stage (h : StagedTo made directory done staged now)
    (hrun : stage directory rest staged now = (now', .ok all)) :
    StagedTo made directory (done ++ rest) all now' := by
  induction rest generalizing done staged now with
  | nil =>
    cases hrun
    rwa [List.append_nil]
  | cons file rest ih =>
    obtain ⟨s, now₁, hpaths, hwrite, hrun⟩ := of_stage_cons hrun
    rw [List.append_cons]
    exact ih (h.snoc hpaths hwrite) hrun

end StagedTo

/-! ### Removing what was staged -/

theorem content?_discard
    (hplaces : ∀ s ∈ staged, ∃ names, made.reach s.temporary = some names ∧
      made.entryAt? names ≠ some .directory)
    (hsame : made.SameDirectories now) (names : List String) :
    (discard now staged).content? names =
      if ∃ s ∈ staged, made.reach s.temporary = some names then none else now.content? names := by
  induction staged generalizing now with
  | nil => simp [discard]
  | cons s staged ih =>
    obtain ⟨own, hreach, hentry⟩ := hplaces s List.mem_cons_self
    obtain ⟨hremove, hcontent⟩ := Tree.remove_spec ((Tree.reach_congr hsame _).trans hreach)
      fun hdirectory => hentry ((hsame own).mp hdirectory)
    have hrest := ih (List.forall_mem_cons.mp hplaces).2 (hsame.trans hremove)
    show (discard (now.remove s.temporary) staged).content? names = _
    rw [hrest, hcontent]
    -- two files may share a temporary name, so a later removal comes first
    by_cases hlater : ∃ s' ∈ staged, made.reach s'.temporary = some names
    · rw [if_pos hlater, if_pos (by simp [hlater])]
    · rw [if_neg hlater]
      by_cases hown : names = own
      · subst hown
        rw [Function.update_self, if_pos ⟨s, List.mem_cons_self, hreach⟩]
      · rw [Function.update_of_ne hown, if_neg]
        simpa [hreach, Ne.symm hown] using hlater

theorem isSome_lookup_stagings (made : Tree)
    (h : List.Forall₂ (fun file s => paths directory file.1 = .ok s) done staged)
    (names : List String) :
    ((stagings made directory done).lookup names).isSome ↔
      ∃ s ∈ staged, made.reach s.temporary = some names := by
  have hkeys : names ∈ (stagings made directory done).map Prod.fst ↔
      ∃ s ∈ staged, made.reach s.temporary = some names := by
    unfold stagings
    rw [List.map_reverse, List.mem_reverse]
    induction h with
    | nil => simp
    | @cons file s done staged hpaths _ ih =>
      rw [List.filterMap_cons, temporary?_of_paths hpaths]
      cases hreach : made.reach s.temporary with
      | none => simp [hreach, ih]
      | some own => simp [hreach, ih, eq_comm]
  rw [← hkeys, List.lookup_isSome_iff, List.mem_map]
  simp only [beq_iff_eq]
  exact exists_congr fun change => and_congr_right fun _ => eq_comm

theorem StagedTo.content?_discard (h : StagedTo made directory done staged now) :
    (discard now staged).content? = altered made.content? (freed (stagings made directory done)) := by
  funext names
  rw [Artifacts.content?_discard h.places h.directories, altered, lookup_freed, h.content, altered]
  have hsome := isSome_lookup_stagings made h.paths names
  cases hlookup : (stagings made directory done).lookup names with
  | none =>
    rw [hlookup] at hsome
    rw [if_neg (by simpa using hsome)]
    rfl
  | some content? =>
    rw [hlookup] at hsome
    rw [if_pos (by simpa using hsome)]
    rfl

/-! ### Points of failure -/

theorem fallout_of_stage {tree' : Tree} {e : WriteError}
    (hmake : tree.makeDirectories directory = (made, .ok ())) (hfiles : a.files = done ++ rest)
    (h : StagedTo made directory done staged now)
    (hrun : stage directory rest staged now = (tree', .error e)) :
    ∃ changes, a.Fallout directory tree e changes ∧
      tree'.content? = altered made.content? changes := by
  induction rest generalizing done staged now with
  | nil => cases hrun
  | cons file rest ih =>
    have hstaging : a.Staging directory tree made done file now := ⟨hmake, ⟨rest, hfiles⟩, _, h.run⟩
    obtain ⟨e, hpaths, hstage⟩ | ⟨s, e, now', hpaths, hwrite, hstage⟩ |
      ⟨s, now', hpaths, hwrite, hstage⟩ := stage_cons directory file rest staged now
    · -- there is no temporary path
      rw [hstage] at hrun
      cases hrun
      exact ⟨_, .nameless hstaging hpaths, h.content⟩
    · rw [hstage] at hrun
      cases hrun
      obtain ⟨hclear, rfl⟩ | ⟨⟨cause, hcause, rfl⟩, names, hreach, -, hcontent⟩ :=
        Tree.write_eq_error hwrite
      · -- the file is not opened, and only a refusal has the others removed
        by_cases hrefusal : e.isRefusal = true
        · rw [if_pos hrefusal]
          exact ⟨_, .refused hstaging hpaths hclear hrefusal, h.content?_discard⟩
        · rw [if_neg hrefusal]
          exact ⟨_, .unaskable hstaging hpaths hclear (by simpa using hrefusal), h.content⟩
      · -- the file is opened, and so emptied, before its content turns out to be unencodable
        rw [Tree.reach_congr h.directories, ← temporary?_of_paths hpaths] at hreach
        refine ⟨_, .unencodable hstaging hreach hcause, ?_⟩
        show now'.content? = _
        rw [hcontent, h.content, altered_cons]
    · rw [hstage] at hrun
      rw [List.append_cons] at hfiles
      exact ih hfiles (h.snoc hpaths hwrite) hrun

theorem commit_append {moved rest : List Staged} (h : commit moved made = (now, .ok ())) :
    commit (moved ++ rest) made = commit rest now := by
  induction moved generalizing made with
  | nil =>
    cases h
    rfl
  | cons s moved ih =>
    rw [commit] at h
    rw [List.cons_append, commit]
    cases hmove : made.move s.temporary s.target with
    | error e =>
      rw [hmove] at h
      cases h
    | ok made' =>
      rw [hmove] at h
      exact ih h

theorem moving_eq {source goal : List String} (changes : List Change)
    (hpaths : paths directory file.1 = .ok s) (hsource : made.reach s.temporary = some source)
    (hgoal : made.reach s.target = some goal) :
    moving made directory changes file =
      (goal, altered made.content? changes source) :: (source, none) :: changes := by
  unfold moving target?
  rw [temporary?_of_paths hpaths, hsource, ← target_of_paths hpaths, hgoal]

/-- The files before the one that cannot be moved are in place. -/
theorem fallout_of_commit {moved left : List Staged} {all tree' : Tree} {e : WriteError}
    (hmake : tree.makeDirectories directory = (made, .ok ()))
    (hstage : stage directory a.files [] made = (all, .ok (moved ++ left)))
    (hfiles : a.files = done ++ rest) (hmoved : moved.length = done.length)
    (hcommit : commit moved all = (now, .ok ()))
    (hleft : List.Forall₂ (fun file s => paths directory file.1 = .ok s) rest left)
    (hdirectories : made.SameDirectories now)
    (hcontent : now.content? = altered made.content?
      (done.foldl (moving made directory) (stagings made directory a.files)))
    (hrun : commit left now = (tree', .error e)) :
    ∃ changes, a.Fallout directory tree e changes ∧
      tree'.content? = altered made.content? changes := by
  induction hleft generalizing done moved now with
  | nil => cases hrun
  | @cons file s rest left hpaths hleft ih =>
    rw [commit] at hrun
    cases hmove : now.move s.temporary s.target with
    | error e =>
      rw [hmove] at hrun
      cases hrun
      have htake : done = a.files.take moved.length := by
        rw [hmoved, hfiles, List.take_left]
      exact ⟨_, .unmoved ⟨hmake, all, moved, left, hstage, hcommit, htake⟩ hmove, hcontent⟩
    | ok now' =>
      rw [hmove] at hrun
      obtain ⟨source, goal, content, hsource, hgoal, hfound, hsame, hcontent'⟩ :=
        Tree.move_eq_ok hmove
      -- moving files leaves the directories alone, so all paths lead where they led at first
      rw [Tree.reach_congr hdirectories] at hsource hgoal
      rw [List.append_cons] at hfiles hstage
      refine ih hstage hfiles (by simp [hmoved]) ?_ (hdirectories.trans hsame) ?_ hrun
      · rw [commit_append hcommit, commit, hmove]
        rfl
      · rw [List.foldl_append, List.foldl_cons, List.foldl_nil, moving_eq _ hpaths hsource hgoal,
          altered_cons, altered_cons, hcontent', hcontent]
        rw [hcontent] at hfound
        rw [hfound]

/-- A failed write changes what its point of failure says, and no other files. So it has changed
nothing exactly if the files that it wrote, moved or removed were there like that before. -/
theorem content?_of_failed_write {tree' : Tree} {e : WriteError}
    (h : a.write directory tree = (tree', .error e)) :
    ∃ changes, a.Fallout directory tree e changes ∧
      tree'.content? = altered tree.content? changes ∧
      (tree.SameFiles tree' ↔ ∀ names content?, changes.lookup names = some content? →
        tree.content? names = content?) := by
  suffices hfallout : ∃ changes, a.Fallout directory tree e changes ∧
      tree'.content? = altered tree.content? changes by
    obtain ⟨changes, hpoint, hcontent⟩ := hfallout
    refine ⟨changes, hpoint, hcontent, forall_congr' fun names => ?_⟩
    rw [hcontent, altered_eq_iff]
  have hmade := Tree.content?_makeDirectories tree directory
  unfold write at h
  cases hmake : tree.makeDirectories directory with
  | mk made result =>
    rw [hmake] at h hmade
    rw [← hmade]
    cases result with
    | error e' =>
      cases h
      exact ⟨[], .unmade hmake, rfl⟩
    | ok _ =>
      dsimp only at h
      cases hstage : stage directory a.files [] made with
      | mk all result =>
        rw [hstage] at h
        cases result with
        | error e' =>
          cases h
          exact fallout_of_stage hmake rfl (.start made directory) hstage
        | ok staged =>
          dsimp only at h
          have hstaged := (StagedTo.start made directory).of_stage hstage
          cases hcommit : commit staged all with
          | mk moved result =>
            rw [hcommit] at h
            cases result with
            | error e' =>
              cases h
              exact fallout_of_commit hmake (List.nil_append staged ▸ hstage) (List.nil_append _).symm
                rfl rfl hstaged.paths hstaged.directories hstaged.content hcommit
            | ok _ => cases h

/-- A directory that stands in the place of the second of two files. -/
def blockedPlace : Tree := ⟨[(["out"], .directory), (["out", "config.h"], .directory)]⟩

/-- Two files, the second of which has no place. -/
def blockedFiles : Artifacts where
  keyboard? := none
  keymap := "default"
  files := [("keymap.c", "a\n"), ("config.h", "b\n")]

/-- The first file stays in its place, and the second one under its temporary name. -/
theorem content?_of_failed_write_blockedFiles :
    ∃ tree' e, blockedFiles.write ⟨"", ["out"]⟩ blockedPlace = (tree', .error e) ∧
      tree'.content? ["out", "keymap.c"] = some "a\n" ∧
      tree'.content? ["out", ".config.h.tmp"] = some "b\n" ∧ ¬ blockedPlace.SameFiles tree' ∧
      ∃ changes, blockedFiles.Fallout ⟨"", ["out"]⟩ blockedPlace e changes ∧
        tree'.content? = altered blockedPlace.content? changes ∧
        (blockedPlace.SameFiles tree' ↔ ∀ names content?, changes.lookup names = some content? →
          blockedPlace.content? names = content?) := by
  have hwrite : blockedFiles.write ⟨"", ["out"]⟩ blockedPlace =
      (⟨[(["out"], .directory), (["out", "config.h"], .directory),
        (["out", ".config.h.tmp"], .file "b\n"), (["out", "keymap.c"], .file "a\n")]⟩,
        .error (.file (.moveRefused .isDirectory "out/.config.h.tmp" "out/config.h"))) := by
    decide +kernel
  refine ⟨_, _, hwrite, by decide +kernel, by decide +kernel, fun hsame => ?_,
    content?_of_failed_write hwrite⟩
  exact absurd (hsame ["out", "keymap.c"]) (by decide +kernel)

end Keyforge.Firmware.Artifacts
