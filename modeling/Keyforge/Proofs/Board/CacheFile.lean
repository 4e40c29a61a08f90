import Keyforge.Proofs.Board.Search
import Keyforge.Proofs.File.Tree
import Keyforge.Proofs.Json.Ascii

/-!
# Cache files

The cache is one directory, and every keyboard has a file in it (`cacheFile_eq`). Whether the system
takes the name of the file is a matter of the name alone (`Kept`).
-/

namespace Keyforge.Board

open Keyforge.File Tree

variable {keyboard : String}

/-! ### Cache files -/

def cacheName (keyboard : String) : String :=
  String.ofList (keyboard.toList.map fun c => if c == '/' then '@' else c) ++ ".json"

theorem cacheFile_eq (keyboard : String) :
    cacheFile keyboard = ⟨"", ["cache", cacheName keyboard]⟩ := by
  have hslash : '/' ∉ (cacheName keyboard).toList := by
    unfold cacheName
    rw [String.toList_append, String.toList_ofList]
    intro hmem
    rcases List.mem_append.mp hmem with hmem | hmem
    · obtain ⟨c, -, hc⟩ := List.mem_map.mp hmem
      split at hc
      · exact absurd hc (by decide)
      next hne => simp [hc] at hne
    · exact absurd hmem (by decide)
  have hlength : 5 ≤ (cacheName keyboard).toList.length := by
    unfold cacheName
    rw [String.toList_append, List.length_append]
    exact Nat.le_add_left 5 _
  have hpath : Path.ofString (cacheName keyboard) = ⟨"", [cacheName keyboard]⟩ := by
    have hne : ∀ short : String, short.toList.length < 5 → cacheName keyboard ≠ short := by
      rintro short hshort heq
      rw [heq] at hlength
      omega
    exact Path.ofString_eq_iff.mpr ⟨hslash, hne "" (by decide), hne "." (by decide)⟩
  show cacheDirectory.child (cacheName keyboard) = _
  unfold Path.child
  rw [hpath]
  rfl

theorem cacheFile_inj {other : String} :
    cacheFile keyboard = cacheFile other ↔ cacheName keyboard = cacheName other := by
  rw [cacheFile_eq, cacheFile_eq]
  simp

/-- The cache file of a keyboard can be read and written: its name is one for the system and not too
long. -/
structure Kept (keyboard : String) : Prop where
  named : Tree.nameError? (cacheFile keyboard).text = none
  path : (Text.encode (cacheFile keyboard).text).length < Tree.pathLimit
  name : (Text.encode (cacheName keyboard)).length ≤ Tree.nameLimit

theorem Kept.congr {other : String} (h : Kept keyboard)
    (hfile : cacheFile keyboard = cacheFile other) : Kept other :=
  ⟨hfile ▸ h.named, hfile ▸ h.path, cacheFile_inj.mp hfile ▸ h.name⟩

/-- The system tells whether the cache file of a keyboard is there. -/
def Lookable (opened : Prop) (keyboard : String) : Prop :=
  Tree.nameError? (cacheFile keyboard).text = none →
    (Text.encode (cacheFile keyboard).text).length < Tree.pathLimit ∧
      (opened → (Text.encode (cacheName keyboard)).length ≤ Tree.nameLimit)

theorem Kept.lookable (h : Kept keyboard) (opened : Prop) :
    Lookable opened keyboard := fun _ => ⟨h.path, fun _ => h.name⟩

section Places

variable {t : Tree}

theorem place_cacheFile (hpath : (Text.encode (cacheFile keyboard).text).length < pathLimit) :
    t.place (cacheFile keyboard) = t.follow ["cache"] [cacheName keyboard] := by
  unfold place
  rw [if_neg (Nat.not_le.mpr hpath), cacheFile_eq]
  have hcache : ¬nameLimit < (Text.encode "cache").length := by decide
  have hdots : ("cache" == "..") = false := by decide
  simp [follow, entryAt?, hcache, hdots]

theorem follow_of_vacant (h : t.entryAt? ["cache"] = none) (name : String) :
    t.follow ["cache"] [name] = .refused .missing := by
  rw [follow, h]

theorem cacheName_ne_dots (keyboard : String) : (cacheName keyboard == "..") = false := by
  refine beq_eq_false_iff_ne.mpr fun heq => ?_
  have hlast := congrArg (fun s : String => s.toList.getLast?) heq
  unfold cacheName at hlast
  rw [String.toList_append, List.getLast?_append_of_ne_nil _ (by decide)] at hlast
  exact absurd hlast (by decide)

theorem follow_of_directory (h : t.entryAt? ["cache"] = some .directory) :
    t.follow ["cache"] [cacheName keyboard] =
      if nameLimit < (Text.encode (cacheName keyboard)).length then .refused .nameTooLong
      else t.placeAt ["cache", cacheName keyboard] := by
  rw [follow, h]
  simp only [cacheName_ne_dots, Bool.false_eq_true, if_false]
  rfl

theorem place_of_tooLong (h : (Text.encode (cacheFile keyboard).text).length < pathLimit →
      t.entryAt? ["cache"] = some .directory ∧
        nameLimit < (Text.encode (cacheName keyboard)).length) :
    t.place (cacheFile keyboard) = .refused .nameTooLong := by
  by_cases hpath : pathLimit ≤ (Text.encode (cacheFile keyboard).text).length
  · unfold place
    rw [if_pos hpath]
  · obtain ⟨hthere, hname⟩ := h (Nat.not_le.mp hpath)
    rw [place_cacheFile (Nat.not_le.mp hpath), follow_of_directory hthere, if_pos hname]

theorem place_of_directory (h : t.entryAt? ["cache"] = some .directory) (hkept : Kept keyboard) :
    t.place (cacheFile keyboard) = t.placeAt ["cache", cacheName keyboard] := by
  rw [place_cacheFile hkept.path, follow_of_directory h, if_neg (Nat.not_lt.mpr hkept.name)]

end Places

/-! ### Looking -/

section Look

variable {t : Tree}

theorem look_of_unnamed (h : nameError? (cacheFile keyboard).text ≠ none) :
    t.look (cacheFile keyboard) isFile = .ok false := by
  unfold look
  rw [if_pos (Option.isSome_iff_ne_none.mpr h)]

theorem look_of_vacant (h : t.entryAt? ["cache"] = none) (hlook : Lookable False keyboard) :
    t.look (cacheFile keyboard) isFile = .ok false := by
  by_cases hname : nameError? (cacheFile keyboard).text = none
  · have hplace : t.place (cacheFile keyboard) = .refused .missing := by
      rw [place_cacheFile (hlook hname).1, follow_of_vacant h]
    simp [look, isFile, hname, hplace]
  · exact look_of_unnamed hname

theorem look_of_directory (h : t.entryAt? ["cache"] = some .directory) (hkept : Kept keyboard) :
    t.look (cacheFile keyboard) isFile =
      .ok (t.content? ["cache", cacheName keyboard]).isSome := by
  unfold look isFile content?
  rw [hkept.named, place_of_directory h hkept]
  unfold placeAt
  cases t.entryAt? ["cache", cacheName keyboard] with
  | none => rfl
  | some entry => cases entry <;> rfl

theorem read_of_directory (h : t.entryAt? ["cache"] = some .directory) (hkept : Kept keyboard)
    {content : String} (hfile : t.entryAt? ["cache", cacheName keyboard] = some (.file content)) :
    t.read (cacheFile keyboard) = .ok content := by
  unfold Tree.read
  rw [hkept.named, place_of_directory h hkept, placeAt, hfile]

theorem look_of_not_lookable {opened : Prop}
    (hopened : opened → t.entryAt? ["cache"] = some .directory) (h : ¬Lookable opened keyboard) :
    ∃ e, t.look (cacheFile keyboard) isFile = .error e := by
  unfold Lookable at h
  push Not at h
  obtain ⟨hname, hlong⟩ := h
  have hplace := place_of_tooLong fun hpath => (hlong hpath).imp_left hopened
  exact ⟨.refused .nameTooLong (cacheFile keyboard).text, by simp [look, hname, hplace]⟩

end Look

/-! ### Storing -/

section Store

variable {s : Shelf} {value : Datum}

theorem makeDirectories_cache (keyboard : String) {t : Tree}
    (h : t.entryAt? ["cache"] = none ∨ t.entryAt? ["cache"] = some .directory) :
    ∃ t', t.makeDirectories (cacheFile keyboard).parent = (t', .ok ()) ∧
      t'.entryAt? ["cache"] = some .directory ∧
      ∀ names, names ≠ ["cache"] → t'.entryAt? names = t.entryAt? names := by
  have hparent : (cacheFile keyboard).parent = ⟨"", ["cache"]⟩ := by
    rw [cacheFile_eq]
    rfl
  have hname : nameError? (Path.text ⟨"", ["cache"]⟩) = none := by decide
  have hplace : t.place ⟨"", ["cache"]⟩ = t.placeAt ["cache"] := by
    have hpath : ¬pathLimit ≤ (Text.encode (Path.text ⟨"", ["cache"]⟩)).length := by decide
    have hlimit : ¬nameLimit < (Text.encode "cache").length := by decide
    have hdots : ("cache" == "..") = false := by decide
    unfold place
    rw [if_neg hpath]
    simp only [follow, entryAt?_nil, hlimit, hdots]
    rfl
  rw [hparent]
  rcases h with hvacant | hthere
  · have hmake : t.makeDirectory ⟨"", ["cache"]⟩ = .ok (t.put ["cache"] .directory) := by
      simp [makeDirectory, hname, hplace, placeAt, hvacant]
    refine ⟨t.put ["cache"] .directory, ?_, ?_, ?_⟩
    · simp [makeDirectories, makeDirectoriesFrom, hmake, ensureDirectory]
    · rw [entryAt?_put (by simp), if_pos rfl]
    · intro names hnames
      rw [entryAt?_put (by simp), if_neg hnames]
  · have hmake : t.makeDirectory ⟨"", ["cache"]⟩ =
        .error (.refused .present (Path.text ⟨"", ["cache"]⟩)) := by
      simp [makeDirectory, hname, hplace, placeAt, hthere]
    refine ⟨t, ?_, hthere, fun _ _ => rfl⟩
    simp [makeDirectories, makeDirectoriesFrom, hmake, ensureDirectory,
      isDirectory, hplace, placeAt, hthere, Error.isRefusal]

theorem run_store_eq {p : Path} {t t' : Tree} {result : Except File.Error Unit}
    (hmake : s.tree.makeDirectories p.parent = (t, .ok ()))
    (hwrite : t.write p (Json.write value) = (t', result)) :
    (store p value).run.run s = (result.mapError .file, { s with tree := t' }) := by
  unfold store
  rw [run_bind_ok (show (get : Search Shelf).run.run s = (.ok s, s) from rfl), hmake]
  dsimp only
  rw [run_bind_ok (show (modify fun s => { s with tree := t } : Search Unit).run.run s =
    (.ok (), { s with tree := t }) from rfl), hwrite]
  exact run_withFiles result _

/-- A definition is stored in the cache file of its keyboard, and no other file changes. -/
theorem run_store (value : Datum) (hkept : Kept keyboard)
    (hcache : s.tree.entryAt? ["cache"] = none ∨ s.tree.entryAt? ["cache"] = some .directory)
    (hfile : s.tree.entryAt? ["cache", cacheName keyboard] ≠ some .directory) :
    ∃ tree, (store (cacheFile keyboard) value).run.run s = (.ok (), { s with tree }) ∧
      tree.entryAt? ["cache"] = some .directory ∧
      ∀ name, tree.entryAt? ["cache", name] =
        if name = cacheName keyboard then some (.file (Json.write value))
        else s.tree.entryAt? ["cache", name] := by
  obtain ⟨t, hmake, hthere, hothers⟩ := makeDirectories_cache keyboard hcache
  have hclear : t.clear (cacheFile keyboard) =
      .ok (t.put ["cache", cacheName keyboard] (.file ""), ["cache", cacheName keyboard]) := by
    have hentry : t.entryAt? ["cache", cacheName keyboard] ≠ some .directory := by
      rw [hothers _ (by simp)]
      exact hfile
    unfold clear
    rw [hkept.named, place_of_directory hthere hkept]
    unfold placeAt
    cases hcase : t.entryAt? ["cache", cacheName keyboard] with
    | none => rfl
    | some entry =>
      cases entry with
      | file content => rfl
      | directory => exact absurd hcase hentry
  have hwrite : t.write (cacheFile keyboard) (Json.write value) =
      ((t.put ["cache", cacheName keyboard] (.file "")).put ["cache", cacheName keyboard]
        (.file (Json.write value)), .ok ()) := by
    unfold Tree.write
    rw [hclear, Json.unencodable?_write]
  refine ⟨_, run_store_eq hmake hwrite, ?_, fun name => ?_⟩
  · rw [entryAt?_put (by simp), entryAt?_put (by simp)]
    simpa using hthere
  · rw [entryAt?_put (by simp), entryAt?_put (by simp), hothers _ (by simp)]
    by_cases hname : name = cacheName keyboard
    · simp [hname]
    · simp [hname]

theorem run_store_of_not_kept (value : Datum) (hkept : ¬Kept keyboard)
    (hcache : s.tree.entryAt? ["cache"] = none ∨ s.tree.entryAt? ["cache"] = some .directory) :
    ∃ e s', (store (cacheFile keyboard) value).run.run s = (.error (.file e), s') := by
  obtain ⟨t, hmake, hthere, -⟩ := makeDirectories_cache keyboard hcache
  have hclear : ∃ e, t.clear (cacheFile keyboard) = .error e := by
    unfold clear
    cases hname : nameError? (cacheFile keyboard).text with
    | some e => exact ⟨e, rfl⟩
    | none =>
      rw [place_of_tooLong fun hpath => ⟨hthere, Nat.not_le.mp fun hshort =>
        hkept ⟨hname, hpath, hshort⟩⟩]
      exact ⟨_, rfl⟩
  obtain ⟨e, hclear⟩ := hclear
  have hwrite : t.write (cacheFile keyboard) (Json.write value) = (t, .error e) := by
    unfold Tree.write
    rw [hclear]
  exact ⟨e, _, run_store_eq hmake hwrite⟩

end Store

/-! ### Reading -/

section Read

variable {s : Shelf} {p : Path} {value : Datum}

def Shelf.recall (s : Shelf) (p : Path) (value : Datum) : Shelf :=
  { s with remembered := ((p, value) :: Pairs.erase p s.remembered).take memory }

theorem lookup_recall {q : Path} {other : Datum}
    (h : (s.recall p value).remembered.lookup q = some other) :
    q = p ∧ other = value ∨ s.remembered.lookup q = some other := by
  have hfull : ((p, value) :: Pairs.erase p s.remembered).lookup q = some other := by
    rw [← List.take_append_drop memory ((p, value) :: Pairs.erase p s.remembered), List.lookup_append]
    have htake : (((p, value) :: Pairs.erase p s.remembered).take memory).lookup q = some other := h
    rw [htake]
    rfl
  rw [List.lookup_cons] at hfull
  by_cases hp : q = p
  · subst hp
    exact .inl ⟨rfl, by simpa using hfull.symm⟩
  · rw [beq_eq_false_iff_ne.mpr hp] at hfull
    exact .inr (by simpa [Pairs.lookup_erase, hp] using hfull)

/-- A file is read at most once: what is remembered of it is taken for it. -/
theorem run_readDefinition {failure : Error} {content : String}
    (hremembered : ∀ other, s.remembered.lookup p = some other → other = value)
    (hread : s.tree.read p = .ok content) (hjson : Json.readFile content = .ok value) :
    (readDefinition p failure).run.run s = (.ok value, s.recall p value) := by
  unfold readDefinition
  rw [run_bind_ok (show (get : Search Shelf).run.run s = (.ok s, s) from rfl)]
  dsimp only
  cases hlookup : s.remembered.lookup p with
  | some other =>
    obtain rfl := hremembered other hlookup
    rfl
  | none =>
    dsimp only
    have hcontent : (withFiles (s.tree.read p)).run.run s = (.ok content, s) := by
      rw [run_withFiles, hread]
      rfl
    have hvalue : (ofJson failure content).run.run s = (.ok value, s) := by
      unfold ofJson
      rw [hjson]
      rfl
    rw [run_bind_ok hcontent, run_bind_ok hvalue]
    rfl

end Read

end Keyforge.Board
