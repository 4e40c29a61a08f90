import Keyforge.Board.Source
import Keyforge.Proofs.Result

/-!
# What a search leaves behind

A search for a board reads and writes the shelf it works with.
-/

namespace Keyforge.Board

variable {α β : Type} {s s' : Shelf}

/-! ### Steps of a search -/

theorem run_bind_ok {x : Search α} {a : α} (h : x.run.run s = (.ok a, s')) (f : α → Search β) :
    (x >>= f).run.run s = (f a).run.run s' := by
  rw [ExceptT.run_bind, StateT.run_bind, h]
  rfl

theorem run_bind_error {x : Search α} {e : Error} (h : x.run.run s = (.error e, s'))
    (f : α → Search β) : (x >>= f).run.run s = (.error e, s') := by
  rw [ExceptT.run_bind, StateT.run_bind, h]
  rfl

theorem exists_of_run_bind {x : Search α} {f : α → Search β} {b : β}
    (h : (x >>= f).run.run s = (.ok b, s')) :
    ∃ a s₁, x.run.run s = (.ok a, s₁) ∧ (f a).run.run s₁ = (.ok b, s') := by
  cases hx : x.run.run s with
  | mk result s₁ =>
    cases result with
    | error e =>
      rw [run_bind_error hx] at h
      cases h
    | ok a =>
      rw [run_bind_ok hx] at h
      exact ⟨a, s₁, rfl, h⟩

theorem run_withFiles (result : Except File.Error α) (s : Shelf) :
    (withFiles result).run.run s = (result.mapError .file, s) := by
  cases result <;> rfl

theorem run_seesFile (p : File.Path) (s : Shelf) :
    (seesFile p).run.run s = ((s.tree.look p File.Tree.isFile).mapError .file, s) :=
  run_withFiles _ s

theorem run_seesDirectory (p : File.Path) (s : Shelf) :
    (seesDirectory p).run.run s = ((s.tree.look p File.Tree.isDirectory).mapError .file, s) :=
  run_withFiles _ s

/-! ### The server -/

theorem run_ofJson (failure : Error) (content : String) (s : Shelf) :
    (ofJson failure content).run.run s = (((ofJson failure content).run.run {}).1, s) := by
  unfold ofJson
  split <;> rfl

theorem run_answerEntry (keyboard : String) (answer : Datum) (s : Shelf) :
    (answerEntry keyboard answer).run.run s = (((answerEntry keyboard answer).run.run {}).1, s) := by
  unfold answerEntry
  split
  · split
    · rfl
    · split <;> rfl
    · rfl
  · rfl

theorem run_ofAnswer (keyboard : String) (answer : Remote) (s : Shelf) :
    (ofAnswer keyboard answer).run.run s = (((ofAnswer keyboard answer).run.run {}).1, s) := by
  cases answer with
  | httpError | unreachable => rfl
  | body text =>
    have hjson := run_ofJson (.fetch keyboard .malformed) text
    unfold ofAnswer
    cases hread : ((ofJson (.fetch keyboard .malformed) text).run.run {}).1 with
    | error e =>
      rw [hread] at hjson
      rw [run_bind_error (hjson s), run_bind_error (hjson {})]
    | ok value =>
      rw [hread] at hjson
      rw [run_bind_ok (hjson s), run_bind_ok (hjson {})]
      exact run_answerEntry keyboard value s

/-- The definition of a keyboard that a server has, or why there is none. -/
def definition (server : Server) (keyboard : String) : Except Error Datum :=
  ((ofAnswer keyboard (server (address keyboard))).run.run {}).1

/-- The shelf after the server was asked for a keyboard. -/
def Shelf.visited (s : Shelf) (keyboard : String) : Shelf :=
  { s with log := s.log ++ [.visit (address keyboard)] }

/-- A fetch gives what the server has and leaves a note. -/
theorem run_fetch (keyboard : String) (s : Shelf) :
    (fetch keyboard).run.run s = (definition s.remote keyboard, s.visited keyboard) :=
  run_ofAnswer keyboard (s.remote (address keyboard)) _

theorem definition_ne_file (server : Server) (keyboard : String) (e : File.Error) :
    definition server keyboard ≠ .error (.file e) := by
  unfold definition
  cases server (address keyboard) with
  | httpError | unreachable => nofun
  | body text =>
    unfold ofAnswer ofJson
    dsimp only
    cases Json.readFile text with
    | error error => cases error <;> nofun
    | ok value =>
      change ((answerEntry keyboard value).run.run {}).1 ≠ .error (.file e)
      unfold answerEntry
      split
      · split
        · nofun
        · split <;> nofun
        · nofun
      · nofun

/-! ### Boards of definitions -/

/-- The board of a definition that is in no root, or what is wrong with it. -/
def built (keyboard : String) (layoutName? : Option String) (value : Datum) : Except Error Board :=
  ((ofDefinition value (.text keyboard) layoutName? "").run.run {}).1

theorem run_ofDefinition (keyboard : String) (layoutName? : Option String) (value : Datum)
    (s : Shelf) :
    ∃ log, (ofDefinition value (.text keyboard) layoutName? "").run.run s =
      (built keyboard layoutName? value, { s with log }) := by
  unfold built ofDefinition
  cases Info.ofDatum (.text keyboard) value with
  | error e => exact ⟨s.log, rfl⟩
  | ok info =>
    dsimp only
    cases info.toBoard (.text keyboard) layoutName? "" with
    | mk log result =>
      refine ⟨s.log ++ log, ?_⟩
      cases result <;> rfl

theorem toBoard_ne_file (info : Info) (keyboard : Datum) (layoutName? : Option String)
    (baseConfig : String) (e : File.Error) :
    (info.toBoard keyboard layoutName? baseConfig).2 ≠ .error (.file e) := by
  unfold Info.toBoard
  split
  next error hchoose =>
    unfold Info.chooseLayout at hchoose
    intro heq
    cases heq
    split at hchoose
    · cases hchoose
    · split at hchoose
      · cases hchoose
      · split at hchoose <;> cases hchoose
  next name keys _ =>
    unfold Info.makeBoard
    intro heq
    split at heq
    · cases heq
    · split at heq <;> cases heq

theorem built_ne_file (keyboard : String) (layoutName? : Option String) (value : Datum)
    (e : File.Error) : built keyboard layoutName? value ≠ .error (.file e) := by
  unfold built ofDefinition
  cases hinfo : Info.ofDatum (.text keyboard) value with
  | error error =>
    intro heq
    cases heq
    unfold Info.ofDatum at hinfo
    split at hinfo
    · split at hinfo <;> cases hinfo
    · cases hinfo
  | ok info =>
    have hboard := toBoard_ne_file info (.text keyboard) layoutName? "" e
    dsimp only
    cases hresult : info.toBoard (.text keyboard) layoutName? "" with
    | mk log result =>
      rw [hresult] at hboard
      cases result with
      | ok board => nofun
      | error error => exact hboard

/-! ### Roots -/

section Roots

variable {found found' : Found} {directory : File.Path}

theorem run_seesFile_eq_ok {p : File.Path} {sees : Bool} (h : (seesFile p).run.run s = (.ok sees, s')) :
    s' = s := by
  rw [run_seesFile] at h
  exact (Prod.mk.inj h).2.symm

theorem run_readText_eq_ok {p : File.Path} {text : String}
    (h : (readText p).run.run s = (.ok text, s')) : s' = s := by
  obtain ⟨shelf, s₀, ⟨⟩, h⟩ := exists_of_run_bind h
  obtain ⟨content, s₁, hread, h⟩ := exists_of_run_bind h
  rw [run_withFiles] at hread
  cases h
  exact (Prod.mk.inj hread).2.symm

theorem untouched_addDefinition {name : String}
    (h : (addDefinition directory found name).run.run s = (.ok found', s'))
    (hnone : found'.any = false) : found.any = false ∧ s' = s := by
  obtain ⟨sees, s₁, hsees, h⟩ := exists_of_run_bind h
  obtain rfl := run_seesFile_eq_ok hsees
  cases sees with
  | false =>
    cases h
    exact ⟨hnone, rfl⟩
  | true =>
    obtain ⟨value, s₂, -, h⟩ := exists_of_run_bind h
    cases value with
    | map es =>
      cases h
      cases hnone
    | null | bool | int | float | text | bytes | date | stamp | list | tuple | set | enclosing =>
      cases h

theorem untouched_foldlM {names : List String}
    (h : (names.foldlM (addDefinition directory) found).run.run s = (.ok found', s'))
    (hnone : found'.any = false) : found.any = false ∧ s' = s := by
  induction names generalizing found s with
  | nil =>
    cases h
    exact ⟨hnone, rfl⟩
  | cons name names ih =>
    rw [List.foldlM_cons] at h
    obtain ⟨found₁, s₁, hfirst, h⟩ := exists_of_run_bind h
    obtain ⟨hnone₁, rfl⟩ := ih h
    exact untouched_addDefinition hfirst hnone₁

theorem untouched_addDirectory
    (h : (addDirectory directory found).run.run s = (.ok found', s'))
    (hnone : found'.any = false) : found.any = false ∧ s' = s := by
  obtain ⟨found₁, s₁, hfold, h⟩ := exists_of_run_bind h
  obtain ⟨sees, s₂, hsees, h⟩ := exists_of_run_bind h
  obtain rfl := run_seesFile_eq_ok hsees
  cases sees with
  | false =>
    cases h
    exact untouched_foldlM hfold hnone
  | true =>
    rw [if_pos rfl] at h
    obtain ⟨text, s₃, htext, hlast⟩ := exists_of_run_bind h
    obtain rfl := run_readText_eq_ok htext
    cases hlast
    exact untouched_foldlM hfold hnone

theorem untouched_addDirectories {names : List String}
    (h : (addDirectories directory names found).run.run s = (.ok found', s'))
    (hnone : found'.any = false) : found.any = false ∧ s' = s := by
  induction names generalizing directory found s with
  | nil =>
    cases h
    exact ⟨hnone, rfl⟩
  | cons name names ih =>
    obtain ⟨found₁, s₁, hfirst, h⟩ := exists_of_run_bind h
    obtain ⟨hnone₁, rfl⟩ := ih h
    exact untouched_addDirectory hfirst hnone₁

end Roots

theorem run_findLocal_eq_none {root : File.Path} {keyboard : String}
    (h : (findLocal root keyboard).run.run s = (.ok none, s')) : s' = s := by
  obtain ⟨sees, s₁, hsees, h⟩ := exists_of_run_bind h
  rw [run_seesDirectory] at hsees
  obtain rfl := (Prod.mk.inj hsees).2
  cases sees with
  | false =>
    cases h
    rfl
  | true =>
    obtain ⟨found, s₂, hfound, h⟩ := exists_of_run_bind h
    cases hany : found.any with
    | true =>
      rw [hany] at h
      cases h
    | false =>
      rw [hany] at h
      cases h
      exact (untouched_addDirectories hfound hany).2

/-- A keyboard that is found in no root leaves the shelf as it was. -/
theorem run_findInRoots_eq_none {roots : List File.Path} {keyboard : String}
    (h : (findInRoots roots keyboard).run.run s = (.ok none, s')) : s' = s := by
  induction roots generalizing s with
  | nil =>
    cases h
    rfl
  | cons root roots ih =>
    obtain ⟨found?, s₁, hlocal, h⟩ := exists_of_run_bind h
    cases found? with
    | some found => cases h
    | none =>
      obtain rfl := ih h
      exact run_findLocal_eq_none hlocal

end Keyforge.Board
