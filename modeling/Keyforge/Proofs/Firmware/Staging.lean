import Keyforge.Firmware.Artifacts

/-!
# Refusals when files are written

If the names and contents of files are such that the system can be asked to write them
(`Artifacts.Askable`), the only thing that can go wrong is that it refuses (`isRefusal_of_write`).
-/

namespace Keyforge

/-! ### Single operations -/

namespace File.Tree

variable {t : Tree} {p : Path} {e : Error}

theorem isRefusal_of_makeDirectory (hname : nameError? p.text = none)
    (h : t.makeDirectory p = .error e) : e.isRefusal = true := by
  unfold makeDirectory at h
  rw [hname] at h
  cases hplace : t.place p with
  | found names entry =>
    rw [hplace] at h
    cases h
    rfl
  | vacant names =>
    rw [hplace] at h
    cases h
  | refused refusal =>
    rw [hplace] at h
    cases h
    rfl

theorem isRefusal_of_ensureDirectory (hname : nameError? p.text = none)
    (h : (t.ensureDirectory p).2 = .error e) : e.isRefusal = true := by
  unfold ensureDirectory at h
  cases hmake : t.makeDirectory p with
  | ok t' =>
    rw [hmake] at h
    cases h
  | error e' =>
    rw [hmake] at h
    dsimp only at h
    split at h
    · cases h
      exact isRefusal_of_makeDirectory hname hmake
    · cases h

theorem isRefusal_of_makeDirectoriesFrom {depth : Nat}
    (hnames : ∀ n, nameError? (Path.text ⟨p.root, p.parts.take n⟩) = none)
    (h : (makeDirectoriesFrom depth t p).2 = .error e) : e.isRefusal = true := by
  have hname : nameError? p.text = none := by
    have hwhole := hnames p.parts.length
    rwa [List.take_length] at hwhole
  induction depth generalizing t p with
  | zero => exact isRefusal_of_ensureDirectory hname h
  | succ depth ih =>
    have hparents : ∀ n, nameError? (Path.text ⟨p.parent.root, p.parent.parts.take n⟩) = none := by
      intro n
      show nameError? (Path.text ⟨p.root, p.parts.dropLast.take n⟩) = none
      rw [List.dropLast_eq_take, List.take_take]
      exact hnames _
    have hparent : nameError? p.parent.text = none := by
      have hwhole := hparents p.parent.parts.length
      rwa [List.take_length] at hwhole
    unfold makeDirectoriesFrom at h
    split at h
    · split at h
      next t' e' hfailed =>
        cases h
        exact ih hparents (by rw [hfailed]) hparent
      next => exact isRefusal_of_ensureDirectory hname h
    · exact isRefusal_of_ensureDirectory hname h

theorem isRefusal_of_write {content : String} (hname : nameError? p.text = none)
    (hcontent : Text.unencodable? content = none) (h : (t.write p content).2 = .error e) :
    e.isRefusal = true := by
  unfold write at h
  rw [hcontent] at h
  cases hclear : t.clear p with
  | ok cleared =>
    rw [hclear] at h
    cases h
  | error e' =>
    rw [hclear] at h
    cases h
    unfold clear at hclear
    rw [hname] at hclear
    cases hplace : t.place p with
    | found names entry =>
      rw [hplace] at hclear
      cases entry with
      | file content => cases hclear
      | directory =>
        cases hclear
        rfl
    | vacant names =>
      rw [hplace] at hclear
      cases hclear
    | refused refusal =>
      rw [hplace] at hclear
      cases hclear
      rfl

theorem isRefusal_of_move {target : Path} (hname : nameError? p.text = none)
    (htarget : nameError? target.text = none) (h : t.move p target = .error e) :
    e.isRefusal = true := by
  unfold move at h
  rw [hname, htarget] at h
  dsimp only [Option.orElse_eq_orElse, Option.orElse] at h
  split at h
  · simp_all
  · cases h
    rfl
  · split at h <;> cases h <;> rfl

end File.Tree

/-! ### All files -/

namespace Firmware.Artifacts

/-- Whether files could not be written because the system refused it. -/
def WriteError.isRefusal : WriteError → Bool
  | .file error => error.isRefusal
  | _ => false

/-- A file whose names and content are such that the system can be asked to write it. -/
structure AskableFile (directory : File.Path) (name content : String) : Prop where
  names : ∃ s, paths directory name = .ok s ∧ File.Tree.nameError? s.temporary.text = none ∧
    File.Tree.nameError? s.target.text = none
  content : Text.unencodable? content = none

/-- All files, and the directories on the way to them, are such that the system can be asked. -/
structure Askable (directory : File.Path) (a : Artifacts) : Prop where
  directories : ∀ n,
    File.Tree.nameError? (File.Path.text ⟨directory.root, directory.parts.take n⟩) = none
  files : ∀ file ∈ a.files, AskableFile directory file.1 file.2

/-- Files under temporary names that can be moved. -/
def Staged.Movable (s : Staged) : Prop :=
  File.Tree.nameError? s.temporary.text = none ∧ File.Tree.nameError? s.target.text = none

variable {directory : File.Path} {tree : File.Tree} {e : WriteError}

theorem stage_spec (tree : File.Tree) {files : List (String × String)} {staged : List Staged}
    (hfiles : ∀ file ∈ files, AskableFile directory file.1 file.2)
    (hstaged : ∀ s ∈ staged, s.Movable) :
    (∀ e, (stage directory files staged tree).2 = .error e → e.isRefusal = true) ∧
      ∀ all, (stage directory files staged tree).2 = .ok all → ∀ s ∈ all, s.Movable := by
  induction files generalizing staged tree with
  | nil =>
    refine ⟨nofun, fun all hall => ?_⟩
    cases hall
    exact hstaged
  | cons file rest ih =>
    obtain ⟨name, content⟩ := file
    obtain ⟨⟨s, hpaths, htemporary, htarget⟩, hcontent⟩ := hfiles _ List.mem_cons_self
    unfold stage
    rw [hpaths]
    dsimp only
    cases hwrite : tree.write s.temporary content with
    | mk tree' result =>
      cases result with
      | error e' =>
        refine ⟨fun e he => ?_, nofun⟩
        cases he
        exact File.Tree.isRefusal_of_write htemporary hcontent (by rw [hwrite])
      | ok done =>
        exact ih tree' (List.forall_mem_cons.mp hfiles).2
          (forall_mem_concat.mpr ⟨hstaged, htemporary, htarget⟩)

theorem isRefusal_of_commit {staged : List Staged} (hstaged : ∀ s ∈ staged, s.Movable)
    (h : (commit staged tree).2 = .error e) : e.isRefusal = true := by
  induction staged generalizing tree with
  | nil => cases h
  | cons s rest ih =>
    obtain ⟨htemporary, htarget⟩ := hstaged s List.mem_cons_self
    unfold commit at h
    cases hmove : tree.move s.temporary s.target with
    | error e' =>
      rw [hmove] at h
      cases h
      exact File.Tree.isRefusal_of_move htemporary htarget hmove
    | ok tree' =>
      rw [hmove] at h
      exact ih (List.forall_mem_cons.mp hstaged).2 h

/-- Only a refusal keeps files from being written. -/
theorem isRefusal_of_write {a : Artifacts} (h : a.Askable directory)
    (he : (a.write directory tree).2 = .error e) : e.isRefusal = true := by
  unfold write at he
  cases hmake : tree.makeDirectories directory with
  | mk tree₁ result =>
    rw [hmake] at he
    cases result with
    | error e' =>
      cases he
      exact File.Tree.isRefusal_of_makeDirectoriesFrom h.directories
        (by rw [← File.Tree.makeDirectories, hmake])
    | ok done =>
      dsimp only at he
      have hspec := stage_spec tree₁ h.files (List.forall_mem_nil Staged.Movable)
      cases hstage : stage directory a.files [] tree₁ with
      | mk tree₂ result =>
        rw [hstage] at he hspec
        cases result with
        | error e' =>
          cases he
          exact hspec.1 _ rfl
        | ok staged =>
          dsimp only at he
          cases hcommit : commit staged tree₂ with
          | mk tree₃ result =>
            rw [hcommit] at he
            cases result with
            | error e' =>
              cases he
              exact isRefusal_of_commit (hspec.2 staged rfl) (by rw [hcommit])
            | ok done => cases he

end Firmware.Artifacts

end Keyforge
