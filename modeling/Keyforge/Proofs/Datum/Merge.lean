import Keyforge.Datum.View

/-!
# The laws of merging

A mapping that is laid over another one wins along every path of keys (`mergeEntries_overrides`), as
merging goes down a path along which the upper value has mappings (`at?_mergeValue_append`).
-/

namespace Keyforge.Datum

variable {lower upper es : List (Datum × Datum)} {key value : Datum}

/-! ### Keys -/

/-- Keys that can be told apart: to be the same key is an equivalence among them. -/
structure Keys where
  Has : Datum → Prop
  refl : ∀ {a}, Has a → sameKey a a = true
  symm : ∀ {a b}, Has a → Has b → sameKey a b = true → sameKey b a = true
  trans : ∀ {a b c}, Has a → Has b → Has c → sameKey a b = true → sameKey b c = true →
    sameKey a c = true

/-- Values that can be keys and are compared without rounding. -/
def IsExact : Datum → Prop
  | null | bool _ | int _ | text _ | bytes _ | date _ | stamp _ => True
  | _ => False

/-- All keys but floating point numbers; texts, the keys of JSON, are among them. -/
def Keys.exact : Keys where
  Has := IsExact
  refl {a} ha := by cases a <;> cases ha <;> simp [sameKey, integral?]
  symm {a b} ha hb h := by
    cases a <;> cases ha <;> cases b <;> cases hb <;> simp_all [sameKey, integral?]
  trans {a b c} ha hb hc h h' := by
    cases a <;> cases ha <;> cases b <;> cases hb <;> cases c <;> cases hc <;>
      simp_all [sameKey, integral?]

variable (K : Keys)

mutual

/-- The mappings in a value, one in the other, have keys of a kind, and each of them once. -/
def Proper : Datum → Prop
  | map es => ProperEntries es
  | _ => True

def ProperEntries : List (Datum × Datum) → Prop
  | [] => True
  | (key, value) :: rest =>
    K.Has key ∧ find? key rest = none ∧ Proper value ∧ ProperEntries rest

end

variable {K}

theorem Keys.sameKey_congr {a b c : Datum} (ha : K.Has a) (hb : K.Has b) (hc : K.Has c)
    (h : sameKey a b = true) : sameKey a c = sameKey b c :=
  Bool.eq_iff_iff.mpr ⟨K.trans hb ha hc (K.symm ha hb h), K.trans ha hb hc h⟩

theorem ProperEntries.has (h : ProperEntries K es) : ∀ entry ∈ es, K.Has entry.1 := by
  induction es with
  | nil => exact List.forall_mem_nil _
  | cons entry rest ih => exact List.forall_mem_cons.mpr ⟨h.1, ih h.2.2.2⟩

/-! ### Entries -/

theorem find?_cons (key : Datum) (entry : Datum × Datum) (rest : List (Datum × Datum)) :
    find? key (entry :: rest) = if sameKey entry.1 key then some entry.2 else find? key rest := rfl

theorem putEntry_cons (key value : Datum) (entry : Datum × Datum) (rest : List (Datum × Datum)) :
    putEntry key value (entry :: rest) =
      if sameKey entry.1 key then (entry.1, value) :: rest else entry :: putEntry key value rest := rfl

theorem not_sameKey_of_find? (h : find? key es = none) :
    ∀ entry ∈ es, ¬sameKey entry.1 key = true := by
  induction es with
  | nil => exact List.forall_mem_nil _
  | cons entry rest ih =>
    rw [find?_cons] at h
    split at h
    · cases h
    next hne => exact List.forall_mem_cons.mpr ⟨hne, ih h⟩

theorem ProperEntries.not_sameKey {first : Datum × Datum} (h : ProperEntries K (first :: es)) :
    ∀ entry ∈ es, ¬sameKey first.1 entry.1 = true := fun entry hentry hsame =>
  not_sameKey_of_find? h.2.1 entry hentry (K.symm h.1 (h.2.2.2.has entry hentry) hsame)

theorem find?_congr (hes : ∀ entry ∈ es, K.Has entry.1) {key' : Datum} (hkey : K.Has key)
    (hkey' : K.Has key') (h : sameKey key key' = true) : find? key es = find? key' es := by
  induction es with
  | nil => rfl
  | cons entry rest ih =>
    obtain ⟨hentry, hrest⟩ := List.forall_mem_cons.mp hes
    have hsame : sameKey entry.1 key = sameKey entry.1 key' := by
      refine Bool.eq_iff_iff.mpr ⟨fun he => K.trans hentry hkey hkey' he h, fun he => ?_⟩
      exact K.trans hentry hkey' hkey he (K.symm hkey hkey' h)
    rw [find?_cons, find?_cons, hsame, ih hrest]

/-- What is put under a key is found there, and everything else as before. -/
theorem find?_putEntry (hes : ∀ entry ∈ es, K.Has entry.1) (hkey : K.Has key) {other : Datum}
    (hother : K.Has other) (value : Datum) :
    find? other (putEntry key value es) =
      if sameKey key other then some value else find? other es := by
  induction es with
  | nil => rfl
  | cons entry rest ih =>
    obtain ⟨hentry, hrest⟩ := List.forall_mem_cons.mp hes
    rw [putEntry_cons]
    by_cases hsame : sameKey entry.1 key = true
    · rw [if_pos hsame, find?_cons, find?_cons, K.sameKey_congr hentry hkey hother hsame]
      split <;> rfl
    · rw [if_neg hsame, find?_cons, find?_cons, ih hrest]
      by_cases hfound : sameKey entry.1 other = true
      · have hne : ¬sameKey key other = true := fun h =>
          hsame (K.trans hentry hother hkey hfound (K.symm hkey hother h))
        rw [if_pos hfound, if_neg hne, if_pos hfound]
      · rw [if_neg hfound, if_neg hfound]

theorem putEntry_of_find? (h : find? key es = some value) : putEntry key value es = es := by
  induction es with
  | nil => cases h
  | cons entry rest ih =>
    rw [find?_cons] at h
    rw [putEntry_cons]
    split at h
    next hsame =>
      cases h
      rw [if_pos hsame]
    next hsame => rw [if_neg hsame, ih h]

theorem putEntry_of_find?_none (h : find? key es = none) (value : Datum) :
    putEntry key value es = es ++ [(key, value)] := by
  induction es with
  | nil => rfl
  | cons entry rest ih =>
    rw [find?_cons] at h
    split at h
    · cases h
    next hne => rw [putEntry_cons, if_neg hne, ih h, List.cons_append]

theorem map_fst_putEntry (key value : Datum) (es : List (Datum × Datum)) :
    (putEntry key value es).map Prod.fst =
      es.map Prod.fst ++ if (find? key es).isNone then [key] else [] := by
  induction es with
  | nil => rfl
  | cons entry rest ih =>
    rw [putEntry_cons, find?_cons]
    split
    · simp
    · rw [List.map_cons, ih, List.map_cons, List.cons_append]

theorem has_putEntry (hes : ∀ entry ∈ es, K.Has entry.1) (hkey : K.Has key) (value : Datum) :
    ∀ entry ∈ putEntry key value es, K.Has entry.1 := by
  have hkeys : ∀ k ∈ (putEntry key value es).map Prod.fst, K.Has k := by
    rw [map_fst_putEntry, List.forall_mem_append]
    refine ⟨List.forall_mem_map.mpr hes, ?_⟩
    split
    · exact List.forall_mem_singleton.mpr hkey
    · exact List.forall_mem_nil _
  exact List.forall_mem_map.mp hkeys

/-- Each entry of a proper mapping is found under its key. -/
theorem find?_of_mem (h : ProperEntries K es) : ∀ entry ∈ es, find? entry.1 es = some entry.2 := by
  induction es with
  | nil => exact List.forall_mem_nil _
  | cons first rest ih =>
    refine List.forall_mem_cons.mpr ⟨?_, fun entry hentry => ?_⟩
    · rw [find?_cons, if_pos (K.refl h.1)]
    · rw [find?_cons, if_neg (h.not_sameKey entry hentry), ih h.2.2.2 entry hentry]

/-- What is found in a proper mapping is proper, as is nothing. -/
theorem proper_find? (h : ProperEntries K es) (key : Datum) :
    Proper K ((find? key es).getD null) := by
  induction es with
  | nil => trivial
  | cons entry rest ih =>
    rw [find?_cons]
    split
    · exact h.2.2.1
    · exact ih h.2.2.2

theorem properEntries_entriesOf (h : Proper K value) : ProperEntries K value.entriesOf := by
  cases value with
  | map es => exact h
  | _ => trivial

/-! ### Merged mappings -/

theorem mergeEntries_cons (lower : List (Datum × Datum)) (entry : Datum × Datum)
    (rest : List (Datum × Datum)) :
    mergeEntries lower (entry :: rest) =
      mergeEntries (putEntry entry.1 (mergeValue (find? entry.1 lower) entry.2) lower) rest := by
  rw [mergeEntries]

theorem mergeValue_none (value : Datum) : mergeValue none value = value := by
  cases value with
  | map es =>
    rw [mergeValue]
    nofun
  | _ =>
    rw [mergeValue]
    nofun

section Mapping

variable (hlower : ∀ entry ∈ lower, K.Has entry.1) (hupper : ProperEntries K upper)

include hlower hupper

/-- Under a key, a merged mapping has what the lower one has, unless the upper one has something. -/
theorem find?_mergeEntries {other : Datum} (hother : K.Has other) :
    find? other (mergeEntries lower upper) =
      ((find? other upper).map (mergeValue (find? other lower))).or (find? other lower) := by
  induction upper generalizing lower with
  | nil =>
    rw [mergeEntries]
    rfl
  | cons entry rest ih =>
    obtain ⟨hkey, hfresh, -, hrest⟩ := hupper
    rw [mergeEntries_cons, ih (has_putEntry hlower hkey _) hrest,
      find?_putEntry hlower hkey hother, find?_cons]
    by_cases hsame : sameKey entry.1 other = true
    · rw [if_pos hsame, if_pos hsame, ← find?_congr hrest.has hkey hother hsame, hfresh,
        find?_congr hlower hkey hother hsame]
      rfl
    · rw [if_neg hsame, if_neg hsame]

/-- The keys of a merged mapping: those of the lower one, then the new ones of the upper one. -/
theorem map_fst_mergeEntries :
    (mergeEntries lower upper).map Prod.fst =
      lower.map Prod.fst ++ (upper.map Prod.fst).filter fun key => (find? key lower).isNone := by
  induction upper generalizing lower with
  | nil =>
    rw [mergeEntries]
    exact (List.append_nil _).symm
  | cons entry rest ih =>
    obtain ⟨hkey, -, -, hrest⟩ := id hupper
    -- the keys that follow are others, so they are as new as before the first one is put
    have hothers : ∀ key ∈ rest.map Prod.fst,
        (find? key (putEntry entry.1 (mergeValue (find? entry.1 lower) entry.2) lower)).isNone =
          (find? key lower).isNone := by
      refine List.forall_mem_map.mpr fun next hnext => ?_
      rw [find?_putEntry hlower hkey (hrest.has next hnext), if_neg (hupper.not_sameKey next hnext)]
    rw [mergeEntries_cons, ih (has_putEntry hlower hkey _) hrest, map_fst_putEntry,
      List.filter_congr hothers, List.map_cons, List.filter_cons, List.append_assoc]
    split <;> rfl

theorem mergeEntries_eq_append (h : ∀ entry ∈ upper, find? entry.1 lower = none) :
    mergeEntries lower upper = lower ++ upper := by
  induction upper generalizing lower with
  | nil => rw [mergeEntries, List.append_nil]
  | cons entry rest ih =>
    obtain ⟨hkey, -, -, hrest⟩ := id hupper
    obtain ⟨hnew, hnews⟩ := List.forall_mem_cons.mp h
    rw [mergeEntries_cons, hnew, mergeValue_none, ih (has_putEntry hlower hkey _) hrest,
      putEntry_of_find?_none hnew, List.append_assoc, List.singleton_append]
    intro next hnext
    rw [find?_putEntry hlower hkey (hrest.has next hnext), if_neg (hupper.not_sameKey next hnext)]
    exact hnews next hnext

end Mapping

/-- A mapping that already has all that is laid over it stays as it is. -/
theorem mergeEntries_eq_self
    (h : ∀ entry ∈ upper, ∃ value, find? entry.1 es = some value ∧
      mergeValue (some value) entry.2 = value) : mergeEntries es upper = es := by
  induction upper with
  | nil => rw [mergeEntries]
  | cons entry rest ih =>
    obtain ⟨⟨value, hfind, hmerge⟩, hrest⟩ := List.forall_mem_cons.mp h
    rw [mergeEntries_cons, hfind, hmerge, putEntry_of_find? hfind, ih hrest]

/-! ### Merged values -/

theorem mergeValue_of_not_map (h : ∀ es, value ≠ map es) (lower? : Option Datum) :
    mergeValue lower? value = value := by
  rw [mergeValue]
  exact h

/-- A mapping is laid over the entries of what is below it, of which there are none if that is no
mapping. -/
theorem mergeValue_map (hupper : ProperEntries K upper) (lower? : Option Datum) :
    mergeValue lower? (map upper) = map (mergeEntries (entriesOf (lower?.getD null)) upper) := by
  have hfresh : map upper = map (mergeEntries [] upper) := by
    rw [mergeEntries_eq_append (List.forall_mem_nil _) hupper fun _ _ => rfl, List.nil_append]
  cases lower? with
  | none => exact (mergeValue_none _).trans hfresh
  | some lower =>
    cases lower with
    | map lower =>
      rw [mergeValue]
      rfl
    | _ =>
      rw [mergeValue]
      · exact hfresh
      · nofun

/-- Laying a value over something a second time changes nothing. -/
def Absorbs (K : Keys) (value : Datum) : Prop :=
  ∀ lower?, Proper K (lower?.getD null) → Proper K value →
    mergeValue (some (mergeValue lower? value)) value = mergeValue lower? value

theorem mergeEntries_absorbs (hvalues : ∀ entry ∈ upper, Absorbs K entry.2)
    (hlower : ProperEntries K lower) (hupper : ProperEntries K upper) :
    mergeEntries (mergeEntries lower upper) upper = mergeEntries lower upper := by
  refine mergeEntries_eq_self fun entry hentry => ?_
  have hfound := find?_of_mem hupper entry hentry
  have hproper := proper_find? hupper entry.1
  rw [hfound] at hproper
  refine ⟨mergeValue (find? entry.1 lower) entry.2, ?_, ?_⟩
  · rw [find?_mergeEntries hlower.has hupper (hupper.has entry hentry), hfound]
    rfl
  · exact hvalues entry hentry _ (proper_find? hlower entry.1) hproper

mutual

theorem absorbs : (value : Datum) → Absorbs K value
  | map us => fun lower? hlower hupper => by
    rw [mergeValue_map hupper, mergeValue_map hupper]
    exact congrArg map
      (mergeEntries_absorbs (absorbs_entries us) (properEntries_entriesOf hlower) hupper)
  | null | bool _ | int _ | float _ | text _ | bytes _ | date _ | stamp _ | list _ | tuple _
  | set _ | enclosing _ => fun _ _ _ => by
    rw [mergeValue_of_not_map (fun _ h => by cases h), mergeValue_of_not_map (fun _ h => by cases h)]

theorem absorbs_entries : (es : List (Datum × Datum)) → ∀ entry ∈ es, Absorbs K entry.2
  | [] => List.forall_mem_nil _
  | (_, value) :: rest => List.forall_mem_cons.mpr ⟨absorbs value, absorbs_entries rest⟩

end

/-! ### Paths -/

def at? : List Datum → Datum → Option Datum
  | [], value => some value
  | key :: path, value => (find? key value.entriesOf).bind (at? path)

theorem at?_append (front back : List Datum) (value : Datum) :
    at? (front ++ back) value = (at? front value).bind (at? back) := by
  induction front generalizing value with
  | nil => rfl
  | cons key front ih =>
    rw [List.cons_append, at?, at?, Option.bind_assoc]
    exact congrArg _ (funext ih)

/-- The first step of a path that goes on from what there may be. -/
theorem bind_at?_cons (key : Datum) (path : List Datum) (value? : Option Datum) :
    value?.bind (at? (key :: path)) =
      (find? key (entriesOf (value?.getD null))).bind (at? path) := by
  cases value? <;> rfl

theorem entriesOf_of_not_map (h : ∀ es, value ≠ map es) : value.entriesOf = [] := by
  cases value with
  | map es => exact absurd rfl (h es)
  | _ => rfl

/-- What a proper value has at a path is proper, as is nothing. -/
theorem proper_at? (h : Proper K value) (path : List Datum) :
    Proper K ((at? path value).getD null) := by
  induction path generalizing value with
  | nil => exact h
  | cons key path ih =>
    have hfind := proper_find? (properEntries_entriesOf h) key
    rw [at?]
    cases hnext : find? key value.entriesOf with
    | none => trivial
    | some next =>
      rw [hnext] at hfind
      exact ih hfind

/-- Merging goes down a path that the upper value has. -/
theorem at?_mergeValue_append {front : List Datum} (hfront : ∀ key ∈ front, K.Has key)
    {lower? : Option Datum} (hlower : Proper K (lower?.getD null)) {upper found : Datum}
    (hupper : Proper K upper) (h : at? front upper = some found) (back : List Datum) :
    at? (front ++ back) (mergeValue lower? upper) =
      at? back (mergeValue (lower?.bind (at? front)) found) := by
  induction front generalizing lower? upper with
  | nil =>
    cases h
    cases lower? <;> rfl
  | cons key front ih =>
    obtain ⟨hkey, hfront⟩ := List.forall_mem_cons.mp hfront
    obtain ⟨next, hnext, hrest⟩ := Option.bind_eq_some_iff.mp h
    cases upper with
    | map us =>
      have hentries := properEntries_entriesOf hlower
      have hproper := proper_find? hupper key
      rw [entriesOf] at hnext
      rw [hnext] at hproper
      rw [bind_at?_cons, ← ih hfront (proper_find? hentries key) hproper hrest, List.cons_append, at?,
        mergeValue_map hupper, entriesOf, find?_mergeEntries hentries.has hupper hkey, hnext]
      rfl
    | _ => cases hnext

/-- **The upper mapping wins on every path**, and what it lacks is taken from the lower one. The
keys of the lower one come first, in their order. Merging a second time changes nothing. -/
theorem mergeEntries_overrides {K : Keys} {lower upper : List (Datum × Datum)}
    (hlower : ProperEntries K lower) (hupper : ProperEntries K upper) :
    (∀ path, (∀ key ∈ path, K.Has key) →
      (∀ front key back us, path = front ++ key :: back →
        at? front (map upper) = some (map us) → find? key us = none →
        at? path (map (mergeEntries lower upper)) = at? path (map lower)) ∧
      (∀ value, at? path (map upper) = some value → (∀ us, value ≠ map us) →
        at? path (map (mergeEntries lower upper)) = some value) ∧
      (∀ us, at? path (map upper) = some (map us) →
        ∃ es, at? path (map (mergeEntries lower upper)) = some (map es) ∧
          es.map Prod.fst =
            let ls := entriesOf ((at? path (map lower)).getD null)
            ls.map Prod.fst ++ (us.map Prod.fst).filter fun key => (find? key ls).isNone) ∧
      (∀ front key back value, path = front ++ key :: back → at? front (map upper) = some value →
        (∀ us, value ≠ map us) → at? path (map (mergeEntries lower upper)) = none)) ∧
    mergeEntries (mergeEntries lower upper) upper = mergeEntries lower upper := by
  refine ⟨fun path hpath => ?_, mergeEntries_absorbs (absorbs_entries upper) hlower hupper⟩
  have hlowerMap : Proper K (map lower) := hlower
  have hupperMap : Proper K (map upper) := hupper
  have hmerged : map (mergeEntries lower upper) = mergeValue (some (map lower)) (map upper) := by
    rw [mergeValue]
  -- what there is below a path that the upper mapping has
  have hdown : ∀ {front found} back, (∀ key ∈ front, K.Has key) →
      at? front (map upper) = some found →
      at? (front ++ back) (map (mergeEntries lower upper)) =
        at? back (mergeValue (at? front (map lower)) found) := by
    intro front found back hfront hfound
    have hbelow : Proper K ((some (map lower)).getD null) := hlower
    rw [hmerged]
    exact at?_mergeValue_append hfront hbelow hupperMap hfound back
  refine ⟨?_, ?_, ?_, ?_⟩
  · rintro front key back us rfl hfound hmissing
    obtain ⟨hfront, hback⟩ := List.forall_mem_append.mp hpath
    have hus := proper_at? hupperMap front
    rw [hfound] at hus
    have hls := properEntries_entriesOf (proper_at? hlowerMap front)
    rw [hdown _ hfront hfound, mergeValue_map hus, at?, entriesOf,
      find?_mergeEntries hls.has hus (List.forall_mem_cons.mp hback).1, hmissing, at?_append,
      bind_at?_cons]
    rfl
  · intro value hfound hvalue
    have hat := hdown [] hpath hfound
    rwa [List.append_nil, mergeValue_of_not_map hvalue] at hat
  · intro us hfound
    have hus := proper_at? hupperMap path
    rw [hfound] at hus
    have hat := hdown [] hpath hfound
    rw [List.append_nil, mergeValue_map hus] at hat
    exact ⟨_, hat, map_fst_mergeEntries (properEntries_entriesOf (proper_at? hlowerMap path)).has hus⟩
  · rintro front key back value rfl hfound hvalue
    rw [hdown _ (List.forall_mem_append.mp hpath).1 hfound, mergeValue_of_not_map hvalue, at?,
      entriesOf_of_not_map hvalue]
    rfl

/-- A board's own description, and one that is laid over it. -/
def plainDescription : List (Datum × Datum) :=
  [(text "url", null),
    (text "layouts", map [(text "rows", int 4), (text "split", map [(text "x", int 1)]), (int 0, null)])]

def userDescription : List (Datum × Datum) :=
  [(text "layouts", map [(text "name", text "wide"), (text "split", bool false),
    (text "rows", map [(bool true, int 2)])])]

theorem mergeEntries_overrides_userDescription :
    let merged := map (mergeEntries plainDescription userDescription)
    at? [text "url"] merged = some null ∧
      at? [text "layouts", text "rows", bool true] merged = some (int 2) ∧
      at? [text "layouts", text "split", text "x"] merged = none ∧
      ∃ es, at? [text "layouts"] merged = some (map es) ∧
        es.map Prod.fst = [text "rows", text "split", int 0, text "name"] := by
  have hlower : ProperEntries Keys.exact plainDescription := by
    refine ⟨trivial, rfl, trivial, trivial, rfl, ⟨trivial, rfl, trivial, ?_⟩, trivial⟩
    exact ⟨trivial, rfl, ⟨trivial, rfl, trivial, trivial⟩, trivial, rfl, trivial, trivial⟩
  have hupper : ProperEntries Keys.exact userDescription := by
    refine ⟨trivial, rfl, ⟨trivial, rfl, trivial, trivial, rfl, trivial, ?_⟩, trivial⟩
    exact ⟨trivial, rfl, ⟨trivial, rfl, trivial, trivial⟩, trivial⟩
  obtain ⟨hpaths, -⟩ := mergeEntries_overrides hlower hupper
  obtain ⟨hurl, -⟩ := hpaths [text "url"] (by simp [Keys.exact, IsExact])
  obtain ⟨-, hrows, -⟩ := hpaths [text "layouts", text "rows", bool true]
    (by simp [Keys.exact, IsExact])
  obtain ⟨-, -, -, hsplit⟩ := hpaths [text "layouts", text "split", text "x"]
    (by simp [Keys.exact, IsExact])
  obtain ⟨-, -, hlayouts, -⟩ := hpaths [text "layouts"] (by simp [Keys.exact, IsExact])
  exact ⟨hurl [] _ [] _ rfl rfl rfl, hrows _ rfl nofun, hsplit [_, _] _ [] (bool false) rfl rfl nofun,
    hlayouts _ rfl⟩

end Keyforge.Datum
