import Keyforge.File.Tree
import Keyforge.Proofs.Text.Lines
import Mathlib.Data.Option.Basic

/-!
# Contents of file trees

What operations on a tree do to its files, by the names that lead to them. Where a path leads
depends on the directories alone (`reach_congr`).
-/

namespace Keyforge.File

theorem Path.ofString_eq_iff {name : String} :
    Path.ofString name = ⟨"", [name]⟩ ↔ '/' ∉ name.toList ∧ name ≠ "" ∧ name ≠ "." := by
  constructor
  · intro h
    have hparts : name ∈ (Path.ofString name).parts := by
      rw [h]
      exact List.mem_singleton_self name
    obtain ⟨hpiece, hname⟩ := List.mem_filter.mp hparts
    obtain ⟨piece, hsplit, rfl⟩ := List.mem_map.mp hpiece
    rw [String.toList_ofList]
    exact ⟨fun hmem => (Text.mem_of_mem_splitAt hsplit '/' hmem).2 rfl, by simpa using hname⟩
  · rintro ⟨hslash, hne, hdot⟩
    have hslashes : (name.toList.takeWhile (· == '/')) = [] := by
      refine List.takeWhile_eq_nil_iff.mpr fun hpos => ?_
      simpa using fun heq : _ = '/' => hslash (heq ▸ List.getElem_mem hpos)
    unfold Path.ofString
    simp only [hslashes, Text.splitAt_of_notMem hslash]
    simp [hne, hdot]

/-- The names that a path leads to, whether something is there or not. -/
def Place.names? : Place → Option (List String)
  | .found names _ | .vacant names => some names
  | .refused _ => none

namespace Tree

/-! ### Views of a tree -/

def content? (t : Tree) (names : List String) : Option String :=
  match t.entryAt? names with
  | some (.file content) => some content
  | _ => none

def reach (t : Tree) (p : Path) : Option (List String) := (t.place p).names?

/-- What a path meets that leads to some names. -/
def placeAt (t : Tree) (names : List String) : Place :=
  match t.entryAt? names with
  | some entry => .found names entry
  | none => .vacant names

/-- All files of one tree are in the other one, with their contents, and no others. -/
def SameFiles (t t' : Tree) : Prop := ∀ names, t'.content? names = t.content? names

def SameDirectories (t t' : Tree) : Prop :=
  ∀ names, t'.entryAt? names = some .directory ↔ t.entryAt? names = some .directory

namespace SameDirectories

variable {t t₁ t₂ : Tree}

theorem refl (t : Tree) : t.SameDirectories t := fun _ => Iff.rfl

theorem trans (h₁ : t.SameDirectories t₁) (h₂ : t₁.SameDirectories t₂) : t.SameDirectories t₂ :=
  fun names => (h₂ names).trans (h₁ names)

end SameDirectories

/-! ### Entries -/

section Entries

variable {t : Tree} {names other : List String} {entry : Entry}

theorem entryAt?_nil (t : Tree) : t.entryAt? [] = some .directory := rfl

theorem entryAt?_of_ne_nil (h : names ≠ []) : t.entryAt? names = t.entries.lookup names := by
  unfold entryAt?
  rw [if_neg (by simpa using h)]

theorem entryAt?_of_lookup {t' : Tree} {found? : Option Entry} (h : names ≠ [])
    (hlookup : t'.entries.lookup other = if other == names then found? else t.entries.lookup other) :
    t'.entryAt? other = if other = names then found? else t.entryAt? other := by
  by_cases hother : other = []
  · subst hother
    rw [if_neg (Ne.symm h), entryAt?_nil, entryAt?_nil]
  · rw [entryAt?_of_ne_nil hother, entryAt?_of_ne_nil hother, hlookup]
    simp only [beq_iff_eq]

theorem entryAt?_put (h : names ≠ []) :
    (t.put names entry).entryAt? other = if other = names then some entry else t.entryAt? other :=
  entryAt?_of_lookup h (Pairs.lookup_put names other entry t.entries)

theorem entryAt?_erase (h : names ≠ []) :
    (t.erase names).entryAt? other = if other = names then none else t.entryAt? other :=
  entryAt?_of_lookup h (Pairs.lookup_erase names other t.entries)

theorem content?_eq_some_iff {content : String} :
    t.content? names = some content ↔ t.entryAt? names = some (.file content) := by
  unfold content?
  split
  next content' h => simp [h]
  next h =>
    refine ⟨nofun, fun hfile => absurd hfile (h content)⟩

theorem ne_nil_of_not_directory (h : t.entryAt? names ≠ some .directory) : names ≠ [] := by
  rintro rfl
  exact h (entryAt?_nil t)

/-- There is nothing where there is neither a file nor a directory. -/
theorem entryAt?_eq_none (hcontent : t.content? names = none)
    (hdirectory : t.entryAt? names ≠ some .directory) : t.entryAt? names = none := by
  cases hentry : t.entryAt? names with
  | none => rfl
  | some entry =>
    cases entry with
    | directory => exact absurd hentry hdirectory
    | file content =>
      rw [content?_eq_some_iff.mpr hentry] at hcontent
      cases hcontent

theorem entryAt?_congr {t' : Tree} (hcontent : t'.content? names = t.content? names)
    (hdirectory : t'.entryAt? names = some .directory ↔ t.entryAt? names = some .directory) :
    t'.entryAt? names = t.entryAt? names := by
  by_cases hfound : t.entryAt? names = some .directory
  · rw [hfound, hdirectory.mpr hfound]
  · cases hfile : t.content? names with
    | none =>
      rw [entryAt?_eq_none hfile hfound,
        entryAt?_eq_none (hcontent.trans hfile) fun h => hfound (hdirectory.mp h)]
    | some content =>
      rw [content?_eq_some_iff.mp hfile, content?_eq_some_iff.mp (hcontent.trans hfile)]

end Entries

/-! ### Changes of files -/

section Changes

variable {t : Tree} {names : List String}

theorem changes_of_entryAt? {t' : Tree} {content? : Option String}
    (h : t.entryAt? names ≠ some .directory)
    (hentries : ∀ other, t'.entryAt? other =
      if other = names then content?.map .file else t.entryAt? other) :
    t.SameDirectories t' ∧ t'.content? = Function.update t.content? names content? := by
  refine ⟨fun other => ?_, funext fun other => ?_⟩
  · rw [hentries]
    split
    next heq =>
      subst heq
      cases content? with
      | none => exact ⟨nofun, fun hdirectory => absurd hdirectory h⟩
      | some content => exact ⟨nofun, fun hdirectory => absurd hdirectory h⟩
    next => rfl
  · rw [Function.update_apply, Tree.content?, hentries]
    by_cases heq : other = names
    · rw [if_pos heq, if_pos heq]
      cases content? <;> rfl
    · rw [if_neg heq, if_neg heq]
      rfl

theorem changes_put_file (h : t.entryAt? names ≠ some .directory) (content : String) :
    t.SameDirectories (t.put names (.file content)) ∧
      (t.put names (.file content)).content? = Function.update t.content? names (some content) :=
  changes_of_entryAt? h fun _ => entryAt?_put (ne_nil_of_not_directory h)

theorem changes_erase (h : t.entryAt? names ≠ some .directory) :
    t.SameDirectories (t.erase names) ∧
      (t.erase names).content? = Function.update t.content? names none :=
  changes_of_entryAt? h fun _ => entryAt?_erase (ne_nil_of_not_directory h)

theorem changes_erase_put {goal : List String} {content : String}
    (h : t.entryAt? names = some (.file content)) (hgoal : t.entryAt? goal ≠ some .directory) :
    t.SameDirectories ((t.erase names).put goal (.file content)) ∧
      ((t.erase names).put goal (.file content)).content? =
        Function.update (Function.update t.content? names none) goal (some content) := by
  have hsource : t.entryAt? names ≠ some .directory := by
    rw [h]
    nofun
  have hput : (t.erase names).entryAt? goal ≠ some .directory := by
    rw [entryAt?_erase (ne_nil_of_not_directory hsource)]
    split
    · nofun
    · exact hgoal
  obtain ⟨hdirectories, hcontents⟩ := changes_erase hsource
  obtain ⟨hdirectories', hcontents'⟩ := changes_put_file hput content
  exact ⟨hdirectories.trans hdirectories', by rw [hcontents', hcontents]⟩

end Changes

/-! ### Where paths lead -/

section Reach

variable {t t' : Tree} {p : Path} {here names parts : List String}

theorem follow_eq_of_names? (h : (t.follow here parts).names? = some names) :
    t.follow here parts = t.placeAt names := by
  fun_induction follow t here parts with
  | case1 here entry hentry =>
    cases h
    rw [placeAt, hentry]
  | case2 here hentry =>
    cases h
    rw [placeAt, hentry]
  | case3 | case4 | case5 | case7 => cases h
  | case6 _ _ _ _ _ _ ih | case8 _ _ _ _ _ _ ih => exact ih h

theorem place_eq_of_reach (h : t.reach p = some names) : t.place p = t.placeAt names := by
  unfold reach place at h
  unfold place
  split at h
  · cases h
  next hshort =>
    rw [if_neg hshort]
    split at h
    next hroot =>
      rw [if_pos hroot]
      exact follow_eq_of_names? h
    next => cases h

/-- Where a way goes from a directory by one name. -/
def step? (here : List String) (name : String) : Option (List String) :=
  if name == ".." then if here.isEmpty then none else some here.dropLast
  else if nameLimit < (Text.encode name).length then none
  else some (here ++ [name])

theorem names?_follow_nil (t : Tree) (here : List String) :
    (t.follow here []).names? = some here := by
  unfold follow
  cases t.entryAt? here <;> rfl

/-- A way goes on from a directory, and ends at anything else. -/
theorem names?_follow_cons (t : Tree) (here : List String) (name : String) (rest : List String) :
    (t.follow here (name :: rest)).names? =
      if t.entryAt? here = some .directory then
        (step? here name).bind fun there => (t.follow there rest).names?
      else none := by
  conv_lhs => unfold follow
  cases t.entryAt? here with
  | none => rfl
  | some entry =>
    cases entry with
    | file content => rfl
    | directory =>
      rw [if_pos rfl]
      dsimp only [step?]
      split
      · split <;> rfl
      · split <;> rfl

theorem names?_follow_append (t : Tree) (here front back : List String) :
    (t.follow here (front ++ back)).names? =
      (t.follow here front).names?.bind fun there => (t.follow there back).names? := by
  induction front generalizing here with
  | nil => rw [names?_follow_nil, List.nil_append, Option.bind_some]
  | cons name front ih =>
    rw [List.cons_append, names?_follow_cons, names?_follow_cons]
    split
    · rw [Option.bind_assoc]
      exact congrArg _ (funext ih)
    · rfl

/-- A way stays as it is when directories are made. -/
theorem names?_follow_mono
    (h : ∀ names, t.entryAt? names = some .directory → t'.entryAt? names = some .directory)
    (hway : (t.follow here parts).names? = some names) :
    (t'.follow here parts).names? = some names := by
  induction parts generalizing here with
  | nil =>
    rw [names?_follow_nil] at hway ⊢
    exact hway
  | cons name rest ih =>
    rw [names?_follow_cons] at hway ⊢
    split at hway
    next hdirectory =>
      obtain ⟨there, hstep, hway⟩ := Option.bind_eq_some_iff.mp hway
      rw [if_pos (h here hdirectory), hstep]
      exact ih hway
    next => cases hway

theorem reach_eq (t : Tree) (p : Path) :
    t.reach p = if (Text.encode p.text).length < pathLimit ∧ p.root = "" then
      (t.follow [] p.parts).names? else none := by
  unfold reach place
  split
  · rw [if_neg (by omega)]
    rfl
  next hlong =>
    by_cases hroot : p.root = ""
    · rw [if_pos (by simpa using hroot), if_pos ⟨by omega, hroot⟩]
    · rw [if_neg (by simpa using hroot), if_neg fun h => hroot h.2]
      rfl

theorem reach_mono
    (h : ∀ names, t.entryAt? names = some .directory → t'.entryAt? names = some .directory)
    (hreach : t.reach p = some names) : t'.reach p = some names := by
  rw [reach_eq] at hreach ⊢
  split at hreach
  next hasked =>
    rw [if_pos hasked]
    exact names?_follow_mono h hreach
  next => cases hreach

/-- Trees with the same directories are walked alike. -/
theorem reach_congr (h : t.SameDirectories t') (p : Path) : t'.reach p = t.reach p :=
  Option.ext fun _ => ⟨reach_mono fun names => (h names).mp, reach_mono fun names => (h names).mpr⟩

end Reach

/-! ### Operations -/

section Operations

variable {t t' : Tree} {p : Path} {names : List String}

theorem reach_of_place_found {entry : Entry} (h : t.place p = .found names entry) :
    t.reach p = some names ∧ t.entryAt? names = some entry := by
  have hreach : t.reach p = some names := congrArg Place.names? h
  have hplace := place_eq_of_reach hreach
  rw [h, placeAt] at hplace
  split at hplace
  next hentry =>
    cases hplace
    exact ⟨hreach, hentry⟩
  next => cases hplace

theorem reach_of_place_vacant (h : t.place p = .vacant names) :
    t.reach p = some names ∧ t.entryAt? names = none := by
  have hreach : t.reach p = some names := congrArg Place.names? h
  have hplace := place_eq_of_reach hreach
  rw [h, placeAt] at hplace
  split at hplace
  next => cases hplace
  next hentry => exact ⟨hreach, hentry⟩

theorem place_congr_directory (h : t.SameDirectories t') {home : List String}
    (hp : t.place p = .found home .directory) :
    t'.place p = .found home .directory := by
  obtain ⟨hreach, hentry⟩ := reach_of_place_found hp
  rw [← reach_congr h] at hreach
  rw [place_eq_of_reach hreach, placeAt, (h home).mpr hentry]

/-- In a directory, a name leads to what is there under it. -/
theorem reach_child {home : List String} (hhome : t.place p = .found home .directory) {name : String}
    (hdots : name ≠ "..") (hreach : t.reach ⟨p.root, p.parts ++ [name]⟩ = some names) :
    names = home ++ [name] := by
  obtain ⟨hway, hdirectory⟩ := reach_of_place_found hhome
  rw [reach_eq] at hway hreach
  split at hway
  next =>
    split at hreach
    next =>
      rw [names?_follow_append, hway, Option.bind_some, names?_follow_cons, if_pos hdirectory] at hreach
      obtain ⟨there, hstep, hend⟩ := Option.bind_eq_some_iff.mp hreach
      rw [names?_follow_nil] at hend
      cases hend
      rw [step?, if_neg (by simpa using hdots)] at hstep
      split at hstep
      · cases hstep
      · cases hstep
        rfl
    next => cases hreach
  next => cases hway

theorem clear_eq_ok (h : t.clear p = .ok (t', names)) :
    t.reach p = some names ∧ t.entryAt? names ≠ some .directory ∧ t' = t.put names (.file "") := by
  unfold clear at h
  split at h
  · cases h
  next content hname hplace =>
    cases h
    obtain ⟨hreach, hentry⟩ := reach_of_place_found hplace
    exact ⟨hreach, by rw [hentry]; nofun, rfl⟩
  next hname hplace =>
    cases h
    obtain ⟨hreach, hentry⟩ := reach_of_place_vacant hplace
    exact ⟨hreach, by rw [hentry]; nofun, rfl⟩
  · cases h
  · cases h

/-- A file that was written has its new content, and nothing else has changed. -/
theorem write_eq_ok {content : String} (h : t.write p content = (t', .ok ())) :
    ∃ names, t.reach p = some names ∧ t.SameDirectories t' ∧
      t'.content? = Function.update t.content? names (some content) := by
  unfold write at h
  split at h
  · cases h
  · cases h
  next t₁ names hclear _ =>
    cases h
    obtain ⟨hreach, hentry, rfl⟩ := clear_eq_ok hclear
    have hempty : (t.put names (.file "")).entryAt? names ≠ some .directory := by
      rw [entryAt?_put (ne_nil_of_not_directory hentry), if_pos rfl]
      nofun
    obtain ⟨hdirectories, hcontents⟩ := changes_put_file hentry ""
    obtain ⟨hdirectories', hcontents'⟩ := changes_put_file hempty content
    refine ⟨names, hreach, hdirectories.trans hdirectories', ?_⟩
    rw [hcontents', hcontents, Function.update_idem]

/-- A file that could not be written is as before, unless its content is what cannot be encoded: then
it is left empty. -/
theorem write_eq_error {content : String} {e : Error} (h : t.write p content = (t', .error e)) :
    (t.clear p = .error e ∧ t' = t) ∨
      (∃ cause, Text.unencodable? content = some cause ∧ e = .unencodable cause) ∧
        ∃ names, t.reach p = some names ∧ t.SameDirectories t' ∧
          t'.content? = Function.update t.content? names (some "") := by
  unfold write at h
  split at h
  next e' _ hclear =>
    cases h
    exact .inl ⟨hclear, rfl⟩
  next t₁ names cause hclear hcontent =>
    cases h
    obtain ⟨hreach, hentry, rfl⟩ := clear_eq_ok hclear
    exact .inr ⟨⟨cause, hcontent, rfl⟩, names, hreach, changes_put_file hentry ""⟩
  · cases h

theorem remove_spec (hreach : t.reach p = some names) (hentry : t.entryAt? names ≠ some .directory) :
    t.SameDirectories (t.remove p) ∧
      (t.remove p).content? = Function.update t.content? names none := by
  have hplace := place_eq_of_reach hreach
  unfold placeAt at hplace
  unfold remove
  cases hfound : t.entryAt? names with
  | none =>
    rw [hfound] at hplace
    rw [hplace]
    refine ⟨.refl t, ?_⟩
    have hnone : t.content? names = none := by
      unfold content?
      rw [hfound]
    rw [← hnone, Function.update_eq_self]
  | some entry =>
    rw [hfound] at hplace
    cases entry with
    | directory => exact absurd hfound hentry
    | file content =>
      rw [hplace]
      exact changes_erase hentry

/-- A file that was moved has gone from one place to the other, and nothing else has changed. -/
theorem move_eq_ok {target : Path} (h : t.move p target = .ok t') :
    ∃ source goal content, t.reach p = some source ∧ t.reach target = some goal ∧
      t.content? source = some content ∧ t.SameDirectories t' ∧
      t'.content? = Function.update (Function.update t.content? source none) goal (some content) := by
  unfold move at h
  dsimp only at h
  split at h
  · cases h
  · cases h
  · split at h
    next source content goal old hsource hgoal =>
      obtain ⟨hreach, hentry⟩ := reach_of_place_found hsource
      obtain ⟨hreach', hentry'⟩ := reach_of_place_found hgoal
      have hcontent := content?_eq_some_iff.mpr hentry
      refine ⟨source, goal, content, hreach, hreach', hcontent, ?_⟩
      split at h
      next heq =>
        -- both names are those of one file
        cases h
        subst heq
        refine ⟨.refl t, ?_⟩
        rw [Function.update_idem, ← hcontent, Function.update_eq_self]
      next =>
        cases h
        exact changes_erase_put hentry (by rw [hentry']; nofun)
    next source content goal hsource hgoal =>
      cases h
      obtain ⟨hreach, hentry⟩ := reach_of_place_found hsource
      obtain ⟨hreach', hentry'⟩ := reach_of_place_vacant hgoal
      exact ⟨source, goal, content, hreach, hreach', content?_eq_some_iff.mpr hentry,
        changes_erase_put hentry (by rw [hentry']; nofun)⟩
    all_goals cases h

/-- A file is moved to a name that can be asked for and does not lead back. -/
theorem name_of_move {target : Path} (h : t.move p target = .ok t') :
    nameError? target.text = none ∧ target.name ≠ ".." := by
  unfold move at h
  dsimp only at h
  split at h
  · cases h
  · cases h
  next herror hplace =>
    refine ⟨((Option.orElse_eq_none _ _).mp herror).2, fun hdots => ?_⟩
    unfold noTarget? at hplace
    split at hplace
    · cases hplace
    · cases hplace
    · cases hplace
    · rw [if_pos (by simpa using hdots)] at hplace
      cases hplace

end Operations

/-! ### Making directories -/

section Directories

variable {t t' : Tree} {p : Path} {names : List String}

/-- Nothing has changed but that directories are made on the way to a path. -/
def Paved (t : Tree) (p : Path) (t' : Tree) : Prop :=
  ∀ names, t'.entryAt? names = t.entryAt? names ∨
    t.entryAt? names = none ∧ t'.entryAt? names = some .directory ∧
      ∃ n, t'.reach ⟨p.root, p.parts.take n⟩ = some names

namespace Paved

variable {t₁ : Tree}

theorem refl (t : Tree) (p : Path) : Paved t p t := fun _ => .inl rfl

theorem keeps (h : Paved t p t') (names : List String)
    (hdirectory : t.entryAt? names = some .directory) : t'.entryAt? names = some .directory := by
  obtain hsame | ⟨hnone, -⟩ := h names
  · rw [hsame, hdirectory]
  · rw [hnone] at hdirectory
    cases hdirectory

theorem content? (h : Paved t p t') : t'.content? = t.content? := by
  funext names
  unfold Tree.content?
  obtain hsame | ⟨hnone, hmade, -⟩ := h names
  · rw [hsame]
  · rw [hnone, hmade]

theorem of_parent (h : Paved t p.parent t') : Paved t p t' := fun names =>
  (h names).imp_right fun ⟨hnone, hmade, n, hreach⟩ => by
    rw [Path.parent, List.dropLast_eq_take, List.take_take] at hreach
    exact ⟨hnone, hmade, _, hreach⟩

theorem trans (h : Paved t p t₁) (h' : Paved t₁ p t') : Paved t p t' := by
  intro names
  obtain hsame | ⟨hnone, hmade, n, hreach⟩ := h names
  · rw [← hsame]
    exact h' names
  · exact .inr ⟨hnone, h'.keeps names hmade, n, reach_mono h'.keeps hreach⟩

theorem put (hreach : t.reach p = some names) (hvacant : t.entryAt? names = none) :
    Paved t p (t.put names .directory) ∧
      (t.put names .directory).place p = .found names .directory := by
  have hne : names ≠ [] := ne_nil_of_not_directory (by rw [hvacant]; nofun)
  have hmade : (t.put names .directory).entryAt? names = some .directory := by
    rw [entryAt?_put hne, if_pos rfl]
  have hreach' : (t.put names .directory).reach p = some names := by
    refine reach_mono (fun other hother => ?_) hreach
    rw [entryAt?_put hne]
    split
    · rfl
    · exact hother
  refine ⟨fun other => ?_, by rw [place_eq_of_reach hreach', placeAt, hmade]⟩
  by_cases hother : other = names
  · subst hother
    refine .inr ⟨hvacant, hmade, p.parts.length, ?_⟩
    rwa [List.take_length]
  · exact .inl (by rw [entryAt?_put hne, if_neg hother])

end Paved

theorem ensureDirectory_spec (t : Tree) (p : Path) :
    Paved t p (t.ensureDirectory p).1 ∧ ((t.ensureDirectory p).2 = .ok () →
      ∃ home, (t.ensureDirectory p).1.place p = .found home .directory) := by
  unfold ensureDirectory
  split
  next t' hmake =>
    unfold makeDirectory at hmake
    split at hmake
    · cases hmake
    · cases hmake
    next names _ hplace =>
      cases hmake
      obtain ⟨hreach, hvacant⟩ := reach_of_place_vacant hplace
      exact (Paved.put hreach hvacant).imp_right fun hmade _ => ⟨names, hmade⟩
    · cases hmake
  next e hmake =>
    refine ⟨.refl t p, fun hok => ?_⟩
    split at hok
    · cases hok
    next hfound =>
      simp only [Bool.or_eq_true, Bool.not_eq_true', not_or, Bool.not_eq_false] at hfound
      unfold isDirectory at hfound
      split at hfound
      next home hplace => exact ⟨home, hplace⟩
      · cases hfound.2

/-- Directories are made on the way to a path, up to it if all goes well. -/
theorem makeDirectoriesFrom_spec (depth : Nat) (t : Tree) (p : Path) :
    Paved t p (makeDirectoriesFrom depth t p).1 ∧ ((makeDirectoriesFrom depth t p).2 = .ok () →
      ∃ home, (makeDirectoriesFrom depth t p).1.place p = .found home .directory) := by
  induction depth generalizing t p with
  | zero => exact ensureDirectory_spec t p
  | succ depth ih =>
    unfold makeDirectoriesFrom
    split
    · obtain ⟨hparents, -⟩ := ih t p.parent
      split
      next t' e hfailed =>
        rw [hfailed] at hparents
        exact ⟨hparents.of_parent, nofun⟩
      next t' hmade =>
        rw [hmade] at hparents
        exact (ensureDirectory_spec t' p).imp_left hparents.of_parent.trans
    · exact ensureDirectory_spec t p

theorem makeDirectories_spec (t : Tree) (p : Path) :
    Paved t p (t.makeDirectories p).1 ∧ ((t.makeDirectories p).2 = .ok () →
      ∃ home, (t.makeDirectories p).1.place p = .found home .directory) :=
  makeDirectoriesFrom_spec p.parts.length t p

theorem content?_makeDirectories (t : Tree) (p : Path) :
    (t.makeDirectories p).1.content? = t.content? :=
  (makeDirectories_spec t p).1.content?

end Directories

end Tree

end Keyforge.File
