import Keyforge.Proofs.Board.CacheFile
import Mathlib

/-!
# The cache of definitions

Calls for boards with the cache of definitions and without it. One call keeps the cache as it should
be (`run_cached`), and calls get the same as without it just in case each of them agrees with what
the earlier ones left (`results_cache_alike_iff`).
-/

namespace Keyforge.Board

open Keyforge.File

variable {s : Shelf} {value : Datum}

/-! ### Looking in the cache and on the server -/

section Find

variable {lookup : Lookup} {s' : Shelf} {keyboard : String} {e : Error}

theorem run_findRemote_plain (hcache : lookup.useCache = false)
    (hremote : lookup.allowRemote = true) (keyboard : String) (s : Shelf) :
    (findRemote lookup keyboard).run.run s = (definition s.remote keyboard, s.visited keyboard) := by
  unfold findRemote
  simp only [hcache, hremote, Bool.false_eq_true, if_false, if_true, pure_bind, bind_pure]
  exact run_fetch keyboard s

variable (hcache : lookup.useCache = true) (hremote : lookup.allowRemote = true)

include hcache

theorem run_findRemote_of_error {error : File.Error}
    (hlook : s.tree.look (cacheFile keyboard) Tree.isFile = .error error) :
    (findRemote lookup keyboard).run.run s = (.error (.file error), s) := by
  unfold findRemote
  simp only [hcache, if_true]
  refine run_bind_error ?_ _
  rw [run_seesFile, hlook]
  rfl

theorem run_findRemote_of_seen (hlook : s.tree.look (cacheFile keyboard) Tree.isFile = .ok true) :
    (findRemote lookup keyboard).run.run s =
      (readDefinition (cacheFile keyboard) .cacheSyntax).run.run s := by
  have hsees : (seesFile (cacheFile keyboard)).run.run s = (.ok true, s) := by
    rw [run_seesFile, hlook]
    rfl
  unfold findRemote
  simp only [hcache, if_true]
  rw [run_bind_ok hsees, if_pos rfl]

include hremote

theorem run_findRemote_of_unseen
    (hlook : s.tree.look (cacheFile keyboard) Tree.isFile = .ok false) :
    (findRemote lookup keyboard).run.run s =
      (fetch keyboard >>= fun value => store (cacheFile keyboard) value >>= fun _ =>
        pure value : Search Datum).run.run s := by
  have hsees : (seesFile (cacheFile keyboard)).run.run s = (.ok false, s) := by
    rw [run_seesFile, hlook]
    rfl
  unfold findRemote
  simp only [hcache, hremote, if_true]
  rw [run_bind_ok hsees]
  rfl

end Find

/-! ### Calls -/

structure Call where
  name : String
  layoutName? : Option String := none

def Call.keyboard (call : Call) : String := stripSlashes call.name

def Call.run (call : Call) (lookup : Lookup) (s : Shelf) : Except Error Board × Shelf :=
  (load lookup call.name call.layoutName?).run.run s

def results (lookup : Lookup) : Shelf → List Call → List (Except Error Board)
  | _, [] => []
  | s, call :: rest => (call.run lookup s).1 :: results lookup (call.run lookup s).2 rest

/-- At each of the calls, its keyboard is in none of the roots. -/
def Unlisted (lookup : Lookup) : Shelf → List Call → Prop
  | _, [] => True
  | s, call :: rest =>
    ((findInRoots lookup.roots call.keyboard).run.run s).1 = .ok none ∧
      Unlisted lookup (call.run lookup s).2 rest

theorem unlisted_nil {useCache allowRemote : Bool} (s : Shelf) (calls : List Call) :
    Unlisted ⟨[], useCache, allowRemote⟩ s calls := by
  induction calls generalizing s with
  | nil => trivial
  | cons call rest ih => exact ⟨rfl, ih _⟩

/-- What a call gives if the server has the last word. -/
def Call.served (call : Call) (server : Server) : Except Error Board :=
  definition server call.keyboard >>= built call.keyboard call.layoutName?

theorem Call.served_ne_file (call : Call) (server : Server) (e : File.Error) :
    call.served server ≠ .error (.file e) := by
  unfold Call.served
  cases hdefinition : definition server call.keyboard with
  | error error =>
    intro heq
    cases heq
    exact definition_ne_file server call.keyboard e hdefinition
  | ok value => exact built_ne_file call.keyboard call.layoutName? value e

/-- Two errors of one kind. -/
inductive Error.Like : Error → Error → Prop
  | refl (e : Error) : Like e e
  | kind {e e' : Error} (same : e.kind = e'.kind) (own : e.kind ≠ .other) : Like e e'
  | shape {e e' : Error} (first : e = .encoders ∨ e = .answerShape)
      (second : e' = .encoders ∨ e' = .answerShape) : Like e e'
  | number (digits digits' : Nat) : Like (.tooLong digits) (.tooLong digits')

/-- The same board, or errors of one kind. -/
inductive Alike : Except Error Board → Except Error Board → Prop
  | board (board : Board) : Alike (.ok board) (.ok board)
  | error {e e' : Error} (like : e.Like e') : Alike (.error e) (.error e')

theorem Alike.refl (r : Except Error Board) : Alike r r := by
  cases r with
  | ok board => exact .board board
  | error e => exact .error (.refl e)

theorem not_alike_file {error : File.Error} {q : Except Error Board}
    (hq : q ≠ .error (.file error)) : ¬Alike (.error (.file error)) q := by
  intro h
  cases h with | error like => cases like with
  | refl => exact hq rfl
  | kind same own => exact own rfl
  | shape first second => rcases first with h | h <;> cases h

theorem exists_run_of_find {lookup : Lookup} {call : Call} {s' : Shelf}
    {result : Except Error Datum}
    (hroots : ((findInRoots lookup.roots call.keyboard).run.run s).1 = .ok none)
    (hfind : (findRemote lookup call.keyboard).run.run s = (result, s')) :
    ∃ log, call.run lookup s =
      (result >>= built call.keyboard call.layoutName?, { s' with log }) := by
  unfold Call.keyboard at *
  unfold Call.run load
  cases hlocal : (findInRoots lookup.roots (stripSlashes call.name)).run.run s with
  | mk found? s₁ =>
    rw [hlocal] at hroots
    dsimp only at hroots
    subst hroots
    obtain rfl := run_findInRoots_eq_none hlocal
    dsimp only
    rw [run_bind_ok hlocal]
    dsimp only
    cases result with
    | error e => exact ⟨s'.log, run_bind_error hfind _⟩
    | ok value =>
      rw [run_bind_ok hfind]
      exact run_ofDefinition (stripSlashes call.name) call.layoutName? value s'

/-- Without the cache, every call gets what the server has. -/
theorem results_plain {lookup : Lookup} (hcache : lookup.useCache = false)
    (hremote : lookup.allowRemote = true) {calls : List Call} (h : Unlisted lookup s calls) :
    results lookup s calls = calls.map (·.served s.remote) := by
  induction calls generalizing s with
  | nil => rfl
  | cons call rest ih =>
    obtain ⟨hroots, hrest⟩ := h
    obtain ⟨log, hrun⟩ := exists_run_of_find hroots
      (run_findRemote_plain hcache hremote call.keyboard s)
    rw [hrun] at hrest
    rw [results, hrun, ih hrest]
    rfl

/-! ### What the cache holds -/

def ReadsBack (value : Datum) : Prop := Json.readFile (Json.write value) = .ok value

/-- What the cache holds for a keyboard after some calls: the definition of the first keyboard with
the same cache file that the server has. -/
def shelved? (server : Server) (earlier : List Call) (keyboard : String) : Option Datum :=
  earlier.findSome? fun call =>
    if cacheFile call.keyboard = cacheFile keyboard then (definition server call.keyboard).toOption
    else none

/-- The directory of the cache is there after some calls: it was there before, or something had to be
stored. -/
def Opened (start : Shelf) (earlier : List Call) : Prop :=
  start.tree.entryAt? ["cache"] = some .directory ∨
    ∃ call ∈ earlier, ∃ value, definition start.remote call.keyboard = .ok value

section Shelved

variable {server : Server} {earlier : List Call} {call : Call} {keyboard other : String}

theorem shelved?_congr (h : cacheFile keyboard = cacheFile other) :
    shelved? server earlier keyboard = shelved? server earlier other := by
  unfold shelved?
  rw [h]

theorem shelved?_concat : shelved? server (earlier ++ [call]) keyboard =
    (shelved? server earlier keyboard).or
      (if cacheFile call.keyboard = cacheFile keyboard then
        (definition server call.keyboard).toOption else none) := by
  unfold shelved?
  rw [List.findSome?_append, List.findSome?_singleton]

theorem exists_of_shelved? (h : shelved? server earlier keyboard = some value) :
    ∃ call ∈ earlier, cacheFile call.keyboard = cacheFile keyboard ∧
      definition server call.keyboard = .ok value := by
  obtain ⟨call, hcall, hsome⟩ := List.exists_of_findSome?_eq_some h
  split at hsome
  next hfile => exact ⟨call, hcall, hfile, toOption_eq_some_iff.mp hsome⟩
  next => cases hsome

theorem shelved?_concat_of_error {e : Error} (h : definition server call.keyboard = .error e) :
    shelved? server (earlier ++ [call]) keyboard = shelved? server earlier keyboard := by
  rw [shelved?_concat, h]
  simp [Except.toOption]

theorem shelved?_concat_of_some (h : shelved? server earlier call.keyboard = some value) :
    shelved? server (earlier ++ [call]) keyboard = shelved? server earlier keyboard := by
  rw [shelved?_concat]
  cases hbefore : shelved? server earlier keyboard with
  | some _ => rfl
  | none =>
    have hfile : cacheFile call.keyboard ≠ cacheFile keyboard := by
      intro hfile
      rw [shelved?_congr hfile, hbefore] at h
      cases h
    rw [if_neg hfile]
    rfl

end Shelved

/-- The cache as it is after some calls. -/
structure Cached (start : Shelf) (earlier : List Call) (s : Shelf) : Prop where
  remote : s.remote = start.remote
  opened : Opened start earlier → s.tree.entryAt? ["cache"] = some .directory
  vacant : ¬Opened start earlier → s.tree.entryAt? ["cache"] = none
  kept : ∀ keyboard value, shelved? start.remote earlier keyboard = some value → Kept keyboard
  files : ∀ keyboard, Kept keyboard → s.tree.entryAt? ["cache", cacheName keyboard] =
    (shelved? start.remote earlier keyboard).map fun value => .file (Json.write value)
  remembered : ∀ keyboard value, Kept keyboard →
    s.remembered.lookup (cacheFile keyboard) = some value →
      shelved? start.remote earlier keyboard = some value

namespace Cached

variable {start : Shelf} {earlier : List Call} {call : Call} {keyboard : String}

variable (h : Cached start earlier s)

include h

theorem log (log : Log) : Cached start earlier { s with log } :=
  ⟨h.remote, h.opened, h.vacant, h.kept, h.files, h.remembered⟩

theorem remember (hshelved : shelved? start.remote earlier keyboard = some value) :
    Cached start earlier (s.recall (cacheFile keyboard) value) := by
  refine ⟨h.remote, h.opened, h.vacant, h.kept, h.files, fun other value' hkept hlookup => ?_⟩
  rcases lookup_recall hlookup with ⟨hsame, rfl⟩ | hbefore
  · rw [shelved?_congr hsame, hshelved]
  · exact h.remembered other value' hkept hbefore

theorem fetched (keyboard : String) :
    (fetch keyboard).run.run s = (definition start.remote keyboard, s.visited keyboard) := by
  rw [← h.remote]
  exact run_fetch keyboard s

theorem directory :
    s.tree.entryAt? ["cache"] = none ∨ s.tree.entryAt? ["cache"] = some .directory := by
  by_cases hopened : Opened start earlier
  · exact .inr (h.opened hopened)
  · exact .inl (h.vacant hopened)

theorem look_of_none (hlook : Lookable (Opened start earlier) keyboard)
    (hnone : shelved? start.remote earlier keyboard = none) :
    s.tree.look (cacheFile keyboard) Tree.isFile = .ok false := by
  by_cases hopened : Opened start earlier
  · by_cases hname : Tree.nameError? (cacheFile keyboard).text = none
    · obtain ⟨hpath, hshort⟩ := hlook hname
      have hkept : Kept keyboard := ⟨hname, hpath, hshort hopened⟩
      rw [look_of_directory (h.opened hopened) hkept, Tree.content?, h.files keyboard hkept, hnone]
      rfl
    · exact look_of_unnamed hname
  · exact look_of_vacant (h.vacant hopened) fun hname => ⟨(hlook hname).1, False.elim⟩

theorem concat (hshelved : ∀ keyboard, shelved? start.remote (earlier ++ [call]) keyboard =
      shelved? start.remote earlier keyboard)
    (hopened : Opened start (earlier ++ [call]) → Opened start earlier) :
    Cached start (earlier ++ [call]) s := by
  refine ⟨h.remote, fun hyes => h.opened (hopened hyes), fun hno => h.vacant fun hyes => hno ?_, ?_, ?_, ?_⟩
  · rcases hyes with hyes | ⟨other, hmem, hother⟩
    · exact .inl hyes
    · exact .inr ⟨other, List.mem_append_left _ hmem, hother⟩
  · intro keyboard value hvalue
    rw [hshelved] at hvalue
    exact h.kept keyboard value hvalue
  · intro keyboard hkept
    rw [hshelved]
    exact h.files keyboard hkept
  · intro keyboard value hkept hvalue
    rw [hshelved]
    exact h.remembered keyboard value hkept hvalue

end Cached

theorem opened_concat {start : Shelf} {earlier : List Call} {call : Call}
    (h : Opened start (earlier ++ [call])) :
    Opened start earlier ∨ ∃ value, definition start.remote call.keyboard = .ok value := by
  rcases h with h | ⟨other, hmem, hother⟩
  · exact .inl (.inl h)
  · rcases List.mem_append.mp hmem with hmem | hmem
    · exact .inl (.inr ⟨other, hmem, hother⟩)
    · rw [List.mem_singleton.mp hmem] at hother
      exact .inr hother

/-! ### One call -/

section Step

variable {lookup : Lookup} {start : Shelf} {earlier : List Call} {call : Call}
  (hcache : lookup.useCache = true) (hremote : lookup.allowRemote = true)
  (hcached : Cached start earlier s)

include hcache hcached

theorem findRemote_of_shelved (hshelved : shelved? start.remote earlier call.keyboard = some value)
    (hjson : ReadsBack value) :
    ∃ s', (findRemote lookup call.keyboard).run.run s = (.ok value, s') ∧
      Cached start (earlier ++ [call]) s' := by
  obtain ⟨other, hother, -, hvalue⟩ := exists_of_shelved? hshelved
  have hopened : Opened start earlier := .inr ⟨other, hother, value, hvalue⟩
  have hkept := hcached.kept _ _ hshelved
  have hfile := hcached.files call.keyboard hkept
  rw [hshelved] at hfile
  have hlook : s.tree.look (cacheFile call.keyboard) Tree.isFile = .ok true := by
    rw [look_of_directory (hcached.opened hopened) hkept, Tree.content?, hfile]
    rfl
  have hread := read_of_directory (hcached.opened hopened) hkept hfile
  have hremembered : ∀ other, s.remembered.lookup (cacheFile call.keyboard) = some other →
      other = value := by
    intro other hlookup
    have hother := hcached.remembered call.keyboard other hkept hlookup
    exact Option.some.inj (hother.symm.trans hshelved)
  refine ⟨s.recall (cacheFile call.keyboard) value, ?_, ?_⟩
  · rw [run_findRemote_of_seen hcache hlook]
    exact run_readDefinition hremembered hread hjson
  · exact (hcached.remember hshelved).concat (fun keyboard => shelved?_concat_of_some hshelved)
      fun _ => hopened

include hremote

section Unshelved

variable (hlook : Lookable (Opened start earlier) call.keyboard)
  (hnone : shelved? start.remote earlier call.keyboard = none)

include hlook hnone

theorem findRemote_of_error {e : Error}
    (hdefinition : definition start.remote call.keyboard = .error e) :
    ∃ s', (findRemote lookup call.keyboard).run.run s = (.error e, s') ∧
      Cached start (earlier ++ [call]) s' := by
  have hfetch := hcached.fetched call.keyboard
  rw [hdefinition] at hfetch
  refine ⟨s.visited call.keyboard, ?_, Cached.log (hcached.concat ?_ ?_) _⟩
  · rw [run_findRemote_of_unseen hcache hremote (hcached.look_of_none hlook hnone)]
    exact run_bind_error hfetch _
  · exact fun keyboard => shelved?_concat_of_error hdefinition
  · intro hopened
    rcases opened_concat hopened with hopened | ⟨value, hvalue⟩
    · exact hopened
    · rw [hdefinition] at hvalue
      cases hvalue

theorem findRemote_of_ok (hkept : Kept call.keyboard)
    (hdefinition : definition start.remote call.keyboard = .ok value) :
    ∃ s', (findRemote lookup call.keyboard).run.run s = (.ok value, s') ∧
      Cached start (earlier ++ [call]) s' := by
  have hfetch := hcached.fetched call.keyboard
  rw [hdefinition] at hfetch
  have hfile : s.tree.entryAt? ["cache", cacheName call.keyboard] ≠ some .directory := by
    rw [hcached.files _ hkept, hnone]
    nofun
  obtain ⟨tree, hstore, hdirectory, hfiles⟩ :=
    run_store (s := s.visited call.keyboard) value hkept hcached.directory hfile
  refine ⟨{ s.visited call.keyboard with tree }, ?_, hcached.remote, fun _ => hdirectory, ?_, ?_, ?_, ?_⟩
  · rw [run_findRemote_of_unseen hcache hremote (hcached.look_of_none hlook hnone),
      run_bind_ok hfetch, run_bind_ok hstore]
    rfl
  · exact fun hno => absurd (.inr ⟨call, by simp, value, hdefinition⟩) hno
  · intro keyboard value' hshelved
    rw [shelved?_concat] at hshelved
    cases hbefore : shelved? start.remote earlier keyboard with
    | some before => exact hcached.kept keyboard before hbefore
    | none =>
      rw [hbefore, Option.none_or] at hshelved
      split at hshelved
      next hsame => exact hkept.congr hsame
      next => cases hshelved
  · intro keyboard hkept'
    rw [hfiles, shelved?_concat, hdefinition]
    by_cases hname : cacheName keyboard = cacheName call.keyboard
    · have hsame : cacheFile call.keyboard = cacheFile keyboard := cacheFile_inj.mpr hname.symm
      rw [if_pos hname, if_pos hsame, ← shelved?_congr hsame, hnone]
      rfl
    · have hother : cacheFile call.keyboard ≠ cacheFile keyboard := fun hsame =>
        hname (cacheFile_inj.mp hsame).symm
      rw [if_neg hname, if_neg hother, Option.or_none]
      exact hcached.files keyboard hkept'
  · intro keyboard value' hkept' hlookup
    rw [shelved?_concat, hcached.remembered keyboard value' hkept' hlookup]
    rfl

theorem findRemote_of_not_kept (hkept : ¬Kept call.keyboard)
    (hdefinition : definition start.remote call.keyboard = .ok value) :
    ∃ e s', (findRemote lookup call.keyboard).run.run s = (.error (.file e), s') := by
  have hfetch := hcached.fetched call.keyboard
  rw [hdefinition] at hfetch
  obtain ⟨e, s', hstore⟩ :=
    run_store_of_not_kept (s := s.visited call.keyboard) value hkept hcached.directory
  refine ⟨e, s', ?_⟩
  rw [run_findRemote_of_unseen hcache hremote (hcached.look_of_none hlook hnone),
    run_bind_ok hfetch]
  exact run_bind_error hstore _

end Unshelved

end Step

/-! ### Calls one after the other -/

/-- A call gets the same with the cache as without it, after some calls: looking for its cache file is
no error, what the server has for it can be stored, and what the cache holds for it gives the same as
what the server has. -/
structure Agrees (start : Shelf) (earlier : List Call) (call : Call) : Prop where
  lookable : Lookable (Opened start earlier) call.keyboard
  kept : ∀ value, definition start.remote call.keyboard = .ok value → Kept call.keyboard
  shelved : ∀ value, shelved? start.remote earlier call.keyboard = some value →
    Alike (built call.keyboard call.layoutName? value) (call.served start.remote)

section Run

variable {lookup : Lookup} {start : Shelf} (hcache : lookup.useCache = true)
  (hremote : lookup.allowRemote = true)

include hcache hremote

section Call

variable {earlier : List Call} {call : Call} (hcached : Cached start earlier s)
  (hjson : ∀ value, shelved? start.remote earlier call.keyboard = some value → ReadsBack value)

include hcached hjson

theorem findRemote_cases :
    (¬Agrees start earlier call ∧
      ∃ e s', (findRemote lookup call.keyboard).run.run s = (.error (.file e), s')) ∨
    ∃ result s', (findRemote lookup call.keyboard).run.run s = (result, s') ∧
      Cached start (earlier ++ [call]) s' ∧
      (Alike (result >>= built call.keyboard call.layoutName?) (call.served start.remote) ↔
        Agrees start earlier call) := by
  by_cases hlook : Lookable (Opened start earlier) call.keyboard
  · cases hshelved : shelved? start.remote earlier call.keyboard with
    | some value =>
      obtain ⟨s', hfind, hcached'⟩ := findRemote_of_shelved hcache hcached hshelved (hjson value hshelved)
      refine .inr ⟨.ok value, s', hfind, hcached', fun halike => ⟨hlook, ?_, ?_⟩, fun h => ?_⟩
      · exact fun _ _ => hcached.kept _ _ hshelved
      · intro value' hvalue'
        obtain rfl := Option.some.inj (hshelved.symm.trans hvalue')
        exact halike
      · exact h.shelved value hshelved
    | none =>
      have hnothing : ∀ value, shelved? start.remote earlier call.keyboard = some value →
          Alike (built call.keyboard call.layoutName? value) (call.served start.remote) := by
        intro value hvalue
        rw [hshelved] at hvalue
        cases hvalue
      cases hdefinition : definition start.remote call.keyboard with
      | error e =>
        obtain ⟨s', hfind, hcached'⟩ :=
          findRemote_of_error hcache hremote hcached hlook hshelved hdefinition
        refine .inr ⟨.error e, s', hfind, hcached', fun _ => ⟨hlook, ?_, hnothing⟩, fun _ => ?_⟩
        · intro value hvalue
          rw [hdefinition] at hvalue
          cases hvalue
        · rw [Call.served, hdefinition]
          exact .refl _
      | ok value =>
        by_cases hkept : Kept call.keyboard
        · obtain ⟨s', hfind, hcached'⟩ :=
            findRemote_of_ok hcache hremote hcached hlook hshelved hkept hdefinition
          refine .inr ⟨.ok value, s', hfind, hcached', fun _ => ⟨hlook, fun _ _ => hkept, hnothing⟩,
            fun _ => ?_⟩
          rw [Call.served, hdefinition]
          exact .refl _
        · exact .inl ⟨fun h => hkept (h.kept value hdefinition),
            findRemote_of_not_kept hcache hremote hcached hlook hshelved hkept hdefinition⟩
  · obtain ⟨e, hlook'⟩ := look_of_not_lookable hcached.opened hlook
    exact .inl ⟨fun h => hlook h.lookable, e, s, run_findRemote_of_error hcache hlook'⟩

/-- A call gets the same with the cache as without it just in case it agrees, and then the cache
stays as it should be. -/
theorem run_cached (hroots : ((findInRoots lookup.roots call.keyboard).run.run s).1 = .ok none) :
    (Alike (call.run lookup s).1 (call.served start.remote) ↔ Agrees start earlier call) ∧
      (Agrees start earlier call → Cached start (earlier ++ [call]) (call.run lookup s).2) := by
  rcases findRemote_cases hcache hremote hcached hjson with
    ⟨hnot, e, s', hfind⟩ | ⟨result, s', hfind, hcached', hiff⟩
  · obtain ⟨log, hrun⟩ := exists_run_of_find hroots hfind
    rw [hrun]
    exact ⟨iff_of_false (not_alike_file (call.served_ne_file start.remote e)) hnot,
      fun h => absurd h hnot⟩
  · obtain ⟨log, hrun⟩ := exists_run_of_find hroots hfind
    rw [hrun]
    exact ⟨hiff, fun _ => hcached'.log log⟩

end Call

theorem alike_results_iff {earlier rest : List Call} (hcached : Cached start earlier s)
    (hjson : ∀ call ∈ earlier ++ rest, ∀ value, definition start.remote call.keyboard = .ok value →
      ReadsBack value)
    (hunlisted : Unlisted lookup s rest) :
    List.Forall₂ Alike (results lookup s rest) (rest.map (·.served start.remote)) ↔
      ∀ middle call later, rest = middle ++ call :: later →
        Agrees start (earlier ++ middle) call := by
  induction rest generalizing s earlier with
  | nil => simp [results]
  | cons call rest ih =>
    obtain ⟨hroots, hrest⟩ := hunlisted
    have hstored : ∀ value, shelved? start.remote earlier call.keyboard = some value →
        ReadsBack value := by
      intro value hvalue
      obtain ⟨other, hother, -, hdefinition⟩ := exists_of_shelved? hvalue
      exact hjson other (List.mem_append_left _ hother) value hdefinition
    obtain ⟨hiff, hstep⟩ := run_cached hcache hremote hcached hstored hroots
    have hjson' : ∀ other ∈ (earlier ++ [call]) ++ rest, ∀ value,
        definition start.remote other.keyboard = .ok value → ReadsBack value := by
      rw [List.append_assoc]
      exact hjson
    rw [results, List.map_cons, List.forall₂_cons, hiff]
    constructor
    · rintro ⟨hagrees, hothers⟩ middle other later heq
      cases middle with
      | nil =>
        cases heq
        rwa [List.append_nil]
      | cons first middle =>
        cases heq
        have := (ih (hstep hagrees) hjson' hrest).mp hothers middle other later rfl
        rwa [List.append_assoc] at this
    · intro h
      have hagrees : Agrees start earlier call := by simpa using h [] call rest rfl
      refine ⟨hagrees, (ih (hstep hagrees) hjson' hrest).mpr fun middle other later heq => ?_⟩
      rw [List.append_assoc]
      exact h (call :: middle) other later (by rw [heq]; rfl)

end Run

/-- The cache is empty: its directory has no files, and none are remembered. -/
structure EmptyCache (s : Shelf) : Prop where
  directory : s.tree.entryAt? ["cache"] = none ∨ s.tree.entryAt? ["cache"] = some .directory
  files : ∀ name, s.tree.entryAt? ["cache", name] = none
  remembered : ∀ keyboard, s.remembered.lookup (cacheFile keyboard) = none

theorem EmptyCache.cached {start : Shelf} (h : EmptyCache start) : Cached start [] start where
  remote := rfl
  opened := by
    rintro (hthere | ⟨call, hcall, -⟩)
    · exact hthere
    · cases hcall
  vacant := fun hno => h.directory.resolve_right fun hthere => hno (.inl hthere)
  kept := nofun
  files := fun _ _ => h.files _
  remembered := by
    intro keyboard value _ hvalue
    rw [h.remembered] at hvalue
    cases hvalue

/-- Starting from an empty cache, calls for keyboards in no root get the same boards, or errors of the
same kind, with the cache as without it just in case each of them agrees with what the earlier ones
left in the cache. -/
theorem results_cache_alike_iff {roots : List File.Path} {start : Shelf} {calls : List Call}
    (hempty : EmptyCache start)
    (hjson : ∀ call ∈ calls, ∀ value, definition start.remote call.keyboard = .ok value →
      ReadsBack value)
    (hcached : Unlisted { roots, useCache := true, allowRemote := true } start calls)
    (hplain : Unlisted { roots, useCache := false, allowRemote := true } start calls) :
    List.Forall₂ Alike (results { roots, useCache := true, allowRemote := true } start calls)
        (results { roots, useCache := false, allowRemote := true } start calls) ↔
      ∀ earlier call later, calls = earlier ++ call :: later → Agrees start earlier call := by
  rw [results_plain rfl rfl hplain]
  exact alike_results_iff rfl rfl hempty.cached hjson hcached

/-- A server that has one keyboard, and nothing in the cache. -/
def oneKeyboard : Shelf := { remote := Remote.body "\x7b\"keyboards\": \x7b\"a/b\": \x7b\x7d\x7d\x7d" }

theorem definition_oneKeyboard : definition oneKeyboard.remote "a/b" = .ok (.map []) := by cbv

theorem definition_oneKeyboard_shared :
    (definition oneKeyboard.remote "a@b") = .error (.fetch "a@b" (.noEntry "a@b")) := by cbv

/-- The two keyboards share a cache file: a call for the second one gets what the first one left. -/
theorem results_cache_alike_iff_sharedFile :
    EmptyCache oneKeyboard ∧
      List.Forall₂ Alike
        (results { useCache := true, allowRemote := true } oneKeyboard [⟨"a/b", none⟩, ⟨"/a/b", none⟩])
        (results { useCache := false, allowRemote := true } oneKeyboard [⟨"a/b", none⟩, ⟨"/a/b", none⟩]) ∧
      ¬List.Forall₂ Alike
        (results { useCache := true, allowRemote := true } oneKeyboard [⟨"a/b", none⟩, ⟨"a@b", none⟩])
        (results { useCache := false, allowRemote := true } oneKeyboard [⟨"a/b", none⟩, ⟨"a@b", none⟩]) := by
  have hempty : EmptyCache oneKeyboard := ⟨.inl rfl, fun _ => rfl, fun _ => rfl⟩
  have hjson : ReadsBack (.map []) := by
    unfold ReadsBack
    cbv
  have hfirst : Call.keyboard ⟨"a/b", none⟩ = "a/b" := by decide
  have hslash : Call.keyboard ⟨"/a/b", none⟩ = "a/b" := by decide
  have hsecond : Call.keyboard ⟨"a@b", none⟩ = "a@b" := by decide
  have hkept : Kept "a/b" := ⟨by decide, by decide, by decide⟩
  refine ⟨hempty, ?_, fun halike => ?_⟩
  · refine (results_cache_alike_iff hempty ?_ (unlisted_nil _ _) (unlisted_nil _ _)).mpr ?_
    · simp [hfirst, hslash, definition_oneKeyboard, hjson]
    · intro earlier call later heq
      have hall : ∀ other ∈ earlier ++ call :: later, other.keyboard = "a/b" := by
        rw [← heq]
        simp [hfirst, hslash]
      have hcall := hall call (by simp)
      refine ⟨hcall ▸ hkept.lookable _, fun _ _ => hcall ▸ hkept, fun value hvalue => ?_⟩
      obtain ⟨other, hother, -, hdefinition⟩ := exists_of_shelved? hvalue
      rw [hall other (by simp [hother]), ← hcall] at hdefinition
      rw [Call.served, hdefinition]
      exact .refl _
  · have hagrees := (results_cache_alike_iff hempty
      (by simp [hfirst, hsecond, definition_oneKeyboard, definition_oneKeyboard_shared, hjson])
      (unlisted_nil _ _) (unlisted_nil _ _)).mp halike [⟨"a/b", none⟩] ⟨"a@b", none⟩ [] rfl
    have hfile : cacheFile "a/b" = cacheFile "a@b" := by decide
    have hshelved := hagrees.shelved (.map [])
      (by simp [shelved?, hfirst, hsecond, hfile, definition_oneKeyboard, Except.toOption])
    obtain ⟨issues, hbuilt⟩ : ∃ issues, built "a@b" none (.map []) = .error (.invalid "a@b" issues) :=
      ⟨_, rfl⟩
    rw [Call.served, hsecond, definition_oneKeyboard_shared, hbuilt] at hshelved
    cases hshelved with | error like => cases like with
    | kind same own => cases same
    | shape first second => rcases first with h | h <;> cases h

end Keyforge.Board
