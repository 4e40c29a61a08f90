import Keyforge.Proofs.Header.Definitions
import Keyforge.Proofs.Header.Pattern

/-!
# What filtering drops

Filtering goes through the lines of a header once and remembers whether it is dropping. What it does
is said here without such a memory: the lines are cut into kept lines and segments, which are
deprecated definitions with exactly the lines they go on in (`Cut`).
-/

namespace Keyforge.Header

variable {r : Rules} {first : String} {behind : List String}

/-! ### Deprecated names -/

/-- A name that is deprecated as a whole: it is listed, or a pattern matches all of it. -/
def Rules.Deprecates (r : Rules) (name : String) : Prop :=
  name ∈ r.deprecatedNames ∨ ∃ p ∈ r.deprecatedPatterns, p.Matches name.toList

theorem isDeprecated_iff {name : String} : r.isDeprecated name = true ↔ r.Deprecates name := by
  rw [Rules.isDeprecated, Bool.or_eq_true, List.contains_iff_mem, List.any_eq_true]
  simp only [Pattern.accepts_iff]
  rfl

theorem deprecated?_eq_some_iff {line name : String} :
    deprecated? r line = some name ↔
      ∃ value, define? line = some (name, value) ∧ r.Deprecates name := by
  rw [deprecated?]
  split
  next n v hd =>
    rw [Option.ite_none_right_eq_some, isDeprecated_iff, Option.some.injEq, hd]
    constructor
    · rintro ⟨hn, rfl⟩
      exact ⟨v, rfl, hn⟩
    · rintro ⟨value, heq, hname⟩
      cases heq
      exact ⟨hname, rfl⟩
  next hd => simp [hd]

theorem deprecated?_eq_none_iff {line : String} :
    deprecated? r line = none ↔
      ∀ name value, define? line = some (name, value) → ¬r.Deprecates name := by
  rw [Option.eq_none_iff_forall_ne_some]
  simp only [Ne, deprecated?_eq_some_iff, not_exists, not_and]

/-! ### Lines that go on -/

/-- The line `first` goes on in the lines `more`, up to the lines `behind`: each of these lines that
another one follows ends in a backslash, and the last one does not, unless nothing is behind it. -/
structure RunsTo (first : String) (more behind : List String) : Prop where
  goesOn : ∀ line ∈ (first :: more).dropLast, continues line = true
  ends : continues ((first :: more).getLast (List.cons_ne_nil first more)) = true → behind = []

theorem runsTo_nil_iff : RunsTo first [] behind ↔ (continues first = true → behind = []) :=
  ⟨RunsTo.ends, fun h => ⟨nofun, h⟩⟩

theorem runsTo_cons_iff {next : String} {more : List String} :
    RunsTo first (next :: more) behind ↔ continues first = true ∧ RunsTo next more behind := by
  constructor
  · intro h
    obtain ⟨hfirst, hmore⟩ := List.forall_mem_cons.mp h.goesOn
    exact ⟨hfirst, hmore, h.ends⟩
  · rintro ⟨hfirst, h⟩
    exact ⟨List.forall_mem_cons.mpr ⟨hfirst, h.goesOn⟩, h.ends⟩

theorem exists_runsTo (first : String) (rest : List String) :
    ∃ more behind, rest = more ++ behind ∧ RunsTo first more behind := by
  induction rest generalizing first with
  | nil => exact ⟨[], [], rfl, runsTo_nil_iff.mpr fun _ => rfl⟩
  | cons next rest ih =>
    cases hfirst : continues first with
    | false => exact ⟨[], next :: rest, rfl, runsTo_nil_iff.mpr (by simp [hfirst])⟩
    | true =>
      obtain ⟨more, behind, rfl, hnext⟩ := ih next
      exact ⟨next :: more, behind, rfl, runsTo_cons_iff.mpr ⟨hfirst, hnext⟩⟩

theorem RunsTo.unique {more more' behind' : List String} (h : RunsTo first more behind)
    (h' : RunsTo first more' behind') (heq : more ++ behind = more' ++ behind') :
    more = more' ∧ behind = behind' := by
  induction more generalizing first more' with
  | nil =>
    cases more' with
    | nil => exact ⟨rfl, heq⟩
    | cons next more' =>
      rw [runsTo_nil_iff.mp h (runsTo_cons_iff.mp h').1] at heq
      cases heq
  | cons next more ih =>
    obtain ⟨hfirst, hnext⟩ := runsTo_cons_iff.mp h
    cases more' with
    | nil =>
      rw [runsTo_nil_iff.mp h' hfirst] at heq
      cases heq
    | cons next' more' =>
      rw [List.cons_append, List.cons_append, List.cons.injEq] at heq
      obtain ⟨rfl, htail⟩ := heq
      obtain ⟨rfl, rfl⟩ := ih hnext (runsTo_cons_iff.mp h').2 htail
      exact ⟨rfl, rfl⟩

/-! ### Cutting lines into pieces -/

/-- A deprecated definition: the name it defines, its line and the lines it goes on in. -/
structure Segment where
  name : String
  first : String
  more : List String

inductive Piece where
  | kept (line : String)
  | dropped (segment : Segment)

def Piece.lines : Piece → List String
  | kept line => [line]
  | dropped segment => segment.first :: segment.more

def keptLines : List Piece → List String
  | [] => []
  | .kept line :: pieces => line :: keptLines pieces
  | .dropped _ :: pieces => keptLines pieces

def segments : List Piece → List Segment
  | [] => []
  | .kept _ :: pieces => segments pieces
  | .dropped segment :: pieces => segment :: segments pieces

/-- Lines are cut into pieces: a kept line defines no deprecated name, and a segment is the
definition of a deprecated name with all the lines it goes on in. -/
inductive Cut (r : Rules) : List String → List Piece → Prop
  | nil : Cut r [] []
  | kept {line : String} {lines : List String} {pieces : List Piece}
      (hline : ∀ name value, define? line = some (name, value) → ¬r.Deprecates name)
      (h : Cut r lines pieces) : Cut r (line :: lines) (.kept line :: pieces)
  | dropped {name value first : String} {more behind : List String} {pieces : List Piece}
      (hfirst : define? first = some (name, value)) (hname : r.Deprecates name)
      (hmore : RunsTo first more behind) (h : Cut r behind pieces) :
      Cut r (first :: more ++ behind) (.dropped ⟨name, first, more⟩ :: pieces)

namespace Cut

variable {lines : List String} {pieces : List Piece}

theorem flatMap_lines (h : Cut r lines pieces) : pieces.flatMap Piece.lines = lines := by
  induction h with
  | nil => rfl
  | kept _ _ ih => rw [List.flatMap_cons, ih]; rfl
  | dropped _ _ _ _ ih => rw [List.flatMap_cons, ih]; rfl

theorem not_deprecates (h : Cut r lines pieces) {line name value : String}
    (hline : line ∈ keptLines pieces) (hdefine : define? line = some (name, value)) :
    ¬r.Deprecates name := by
  induction h with
  | nil => cases hline
  | kept hkept _ ih =>
    rcases List.mem_cons.mp hline with rfl | hline
    · exact hkept name value hdefine
    · exact ih hline
  | dropped _ _ _ _ ih => exact ih hline

theorem unique (h : Cut r lines pieces) {others : List Piece} (hothers : Cut r lines others) :
    pieces = others := by
  induction h generalizing others with
  | nil =>
    cases hothers
    rfl
  | kept hline _ ih =>
    cases hothers with
    | kept _ hothers => rw [ih hothers]
    | dropped hfirst hname => exact absurd hname (hline _ _ hfirst)
  | @dropped name value first more behind pieces hfirst hname hmore _ ih =>
    generalize hlines : first :: more ++ behind = lines at hothers
    cases hothers with
    | nil => cases hlines
    | kept hline =>
      obtain ⟨rfl, -⟩ := List.cons.inj hlines
      exact absurd hname (hline _ _ hfirst)
    | dropped hfirst' hname' hmore' hothers =>
      rw [List.cons_append, List.cons_append, List.cons.injEq] at hlines
      obtain ⟨rfl, htail⟩ := hlines
      obtain ⟨rfl, rfl⟩ := hmore.unique hmore' htail
      cases hfirst.symm.trans hfirst'
      rw [ih hothers]

end Cut

theorem exists_cut (r : Rules) (lines : List String) : ∃ pieces, Cut r lines pieces := by
  induction hn : lines.length using Nat.strong_induction_on generalizing lines with
  | h n ih =>
    subst hn
    cases lines with
    | nil => exact ⟨[], .nil⟩
    | cons first rest =>
      cases hfirst : deprecated? r first with
      | none =>
        obtain ⟨pieces, hpieces⟩ := ih rest.length (by simp) rest rfl
        exact ⟨_, .kept (deprecated?_eq_none_iff.mp hfirst) hpieces⟩
      | some name =>
        obtain ⟨value, hdefine, hname⟩ := deprecated?_eq_some_iff.mp hfirst
        obtain ⟨more, behind, rfl, hmore⟩ := exists_runsTo first rest
        obtain ⟨pieces, hpieces⟩ := ih behind.length (by grind) behind rfl
        exact ⟨_, .dropped hdefine hname hmore hpieces⟩

/-! ### Filtering -/

theorem filterFrom_runsTo {more : List String} (h : RunsTo first more behind) (f : Filtered) :
    filterFrom r (continues first) f (more ++ behind) = filterFrom r false f behind := by
  induction more generalizing first with
  | nil =>
    cases hfirst : continues first with
    | false => rfl
    | true =>
      rw [runsTo_nil_iff.mp h hfirst]
      rfl
  | cons next more ih =>
    obtain ⟨hfirst, hnext⟩ := runsTo_cons_iff.mp h
    rw [hfirst, List.cons_append, filterFrom, ih hnext]

/-- Filtering takes the kept lines with their definitions, and notes the names of the segments. -/
theorem filterFrom_cut {lines : List String} {pieces : List Piece} (h : Cut r lines pieces)
    (f : Filtered) :
    filterFrom r false f lines =
      { kept := f.kept ++ keptLines pieces
        defines := definesFrom f.defines (keptLines pieces)
        dropped := f.dropped ++ (segments pieces).map Segment.name } := by
  induction h generalizing f with
  | nil => simp [filterFrom, definesFrom, keptLines, segments]
  | @kept line lines pieces hline _ ih =>
    have hstep : filterFrom r false f (line :: lines) = filterFrom r false (f.keep line) lines := by
      rw [filterFrom, deprecated?_eq_none_iff.mpr hline]
    rw [hstep, ih, keptLines, segments, List.append_cons]
    rfl
  | @dropped name value first more behind pieces hfirst hname hmore _ ih =>
    rw [List.cons_append, filterFrom, deprecated?_eq_some_iff.mpr ⟨value, hfirst, hname⟩]
    simp [filterFrom_runsTo hmore, ih, keptLines, segments]

theorem lookup_definesFrom (defines : List (String × String)) (lines : List String) (name : String) :
    (definesFrom defines lines).lookup name =
      ((definitions lines).reverse.lookup name).or (defines.lookup name) := by
  rw [definesFrom_eq]
  induction definitions lines generalizing defines with
  | nil => rfl
  | cons d ds ih =>
    refine (ih (Pairs.put d.1 d.2 defines)).trans ?_
    rw [List.reverse_cons, List.lookup_append, Option.or_assoc, Pairs.lookup_put, List.lookup_cons]
    cases name == d.1 <;> simp

theorem nodup_definesFrom (lines : List String) :
    ((definesFrom [] lines).map Prod.fst).Nodup := by
  rw [definesFrom_eq]
  exact Pairs.nodup_ofList (definitions lines)

/-- **Filtering drops exactly the deprecated definitions.** The lines are cut into kept lines and
segments in exactly one way, and there is one warning for each segment. -/
theorem filterDeprecated_cut (r : Rules) (lines : List String) :
    let f := filterDeprecated r lines
    ∃ pieces, Cut r lines pieces ∧ (∀ others, Cut r lines others → others = pieces) ∧
      pieces.flatMap Piece.lines = lines ∧
      f.kept = keptLines pieces ∧
      (∀ line ∈ f.kept, ∀ name value, define? line = some (name, value) → ¬r.Deprecates name) ∧
      (∀ name, f.defines.lookup name = (definitions f.kept).reverse.lookup name) ∧
      (f.defines.map Prod.fst).Nodup ∧
      f.log = (segments pieces).map fun segment =>
        .warning ("removing deprecated define " ++ segment.name ++ " from base config") := by
  obtain ⟨pieces, hpieces⟩ := exists_cut r lines
  have hfilter := filterFrom_cut hpieces {}
  rw [List.nil_append, List.nil_append] at hfilter
  simp only [filterDeprecated, hfilter, Filtered.log, List.map_map]
  refine ⟨pieces, hpieces, fun others hothers => hothers.unique hpieces, hpieces.flatMap_lines, rfl,
    fun line hline name value => hpieces.not_deprecates hline, fun name => ?_,
    nodup_definesFrom _, rfl⟩
  rw [lookup_definesFrom, List.lookup_nil, Option.or_none]

end Keyforge.Header
