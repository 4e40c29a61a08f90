import Keyforge.Board.Info
import Keyforge.Proofs.Board.Geometry
import Mathlib.Data.List.Dedup

/-!
# The lights of a board

A board definition lists its lights in the order of their chain, each at a place in the matrix or at
none. The light of a key is the last one at its position (`lightAt?_eq_some_iff`).
-/

namespace Keyforge

namespace Info

def Light.at? (light : Light) : Option Position := light.matrix?.map position

def LiesAt (lights : List Light) (i : Nat) (p : Position) : Prop :=
  lights[i]?.bind Light.at? = some p

/-- The positions of all lights that have one, as often as lights are there. -/
def places (lights : List Light) : List Position := lights.filterMap Light.at?

variable {info : Info} {lights : List Light} {p : Position}

@[simp] theorem places_cons_none : places ({} :: lights) = places lights := rfl

@[simp] theorem places_cons_some (place : Int × Int) :
    places (⟨some place⟩ :: lights) = position place :: places lights := rfl

/-! ### The light at a position -/

theorem mem_places_iff : p ∈ places lights ↔ ∃ i, LiesAt lights i p := by
  simp only [places, List.mem_filterMap, LiesAt, Option.bind_eq_some_iff]
  simp only [List.mem_iff_getElem?]
  exact ⟨fun ⟨light, ⟨i, hi⟩, hat⟩ => ⟨i, light, hi, hat⟩,
    fun ⟨i, light, hi, hat⟩ => ⟨light, ⟨i, hi⟩, hat⟩⟩

theorem lightAt?_cases (p : Position) (n : Nat) (lights : List Light) :
    (lightAt? p n lights = none ∧ ∀ i, ¬LiesAt lights i p) ∨
      ∃ i : Nat, lightAt? p n lights = some ((n + i : Nat) : Int) ∧ LiesAt lights i p ∧
        ∀ j, LiesAt lights j p → j ≤ i := by
  induction lights generalizing n with
  | nil => exact .inl ⟨rfl, fun i h => by cases h⟩
  | cons light lights ih =>
    rw [lightAt?]
    rcases ih (n + 1) with ⟨hnone, hfree⟩ | ⟨i, hsome, hlies, hlast⟩
    · rw [hnone]
      by_cases hhere : light.matrix?.map position = some p
      · refine .inr ⟨0, by simp [hhere], hhere, fun j hj => ?_⟩
        cases j with
        | zero => exact Nat.le_refl 0
        | succ j => exact absurd hj (hfree j)
      · refine .inl ⟨by simp [hhere], fun j hj => ?_⟩
        cases j with
        | zero => exact hhere hj
        | succ j => exact hfree j hj
    · rw [hsome]
      refine .inr ⟨i + 1, congrArg (fun k : Nat => some (k : Int)) (by omega), hlies, fun j hj => ?_⟩
      cases j with
      | zero => exact Nat.zero_le _
      | succ j => exact Nat.succ_le_succ (hlast j hj)

theorem lightAt?_eq_none_iff : lightAt? p 0 lights = none ↔ p ∉ places lights := by
  rw [mem_places_iff, not_exists]
  rcases lightAt?_cases p 0 lights with ⟨hnone, hfree⟩ | ⟨i, hsome, hlies, -⟩
  · exact ⟨fun _ => hfree, fun _ => hnone⟩
  · rw [hsome]
    exact ⟨nofun, fun hfree => absurd hlies (hfree i)⟩

theorem lightAt?_eq_some_iff {light : Int} :
    lightAt? p 0 lights = some light ↔
      ∃ i : Nat, light = i ∧ LiesAt lights i p ∧ ∀ j, LiesAt lights j p → j ≤ i := by
  rcases lightAt?_cases p 0 lights with ⟨hnone, hfree⟩ | ⟨i, hsome, hlies, hlast⟩
  · rw [hnone]
    exact ⟨nofun, fun ⟨i, _, hlies, _⟩ => absurd hlies (hfree i)⟩
  · rw [hsome, Nat.zero_add, Option.some.injEq]
    constructor
    · rintro rfl
      exact ⟨i, rfl, hlies, hlast⟩
    · rintro ⟨j, rfl, hlies', hlast'⟩
      rw [Nat.le_antisymm (hlast' i hlies) (hlast j hlies')]

/-! ### Counting -/

/-- Two lights are at the position of one key. -/
def Doubled (ps : List Position) (lights : List Light) : Prop :=
  ∃ p ∈ ps, 2 ≤ (places lights).count p

variable {ps : List Position}

theorem nodup_filter_places_iff :
    ((places lights).filter (· ∈ ps)).Nodup ↔ ¬Doubled ps lights := by
  rw [List.nodup_iff_count_le_one]
  simp only [Doubled, not_exists, not_and, Nat.not_le]
  refine forall_congr' fun p => ?_
  by_cases hp : p ∈ ps
  · rw [List.count_filter (by simpa using hp)]
    exact ⟨fun h _ => Nat.lt_succ_of_le h, fun h => Nat.le_of_lt_succ (h hp)⟩
  · rw [List.count_eq_zero_of_not_mem (by simp [hp])]
    exact ⟨fun _ h => absurd h hp, fun _ => Nat.zero_le 1⟩

/-- A light is under a key or decorative. -/
theorem length_lights (info : Info) (ps : List Position) :
    info.lights.length =
      ((places info.lights).filter (· ∈ ps)).length + info.decorativeCount ps := by
  rw [decorativeCount]
  generalize info.lights = lights
  induction lights with
  | nil => rfl
  | cons light lights ih =>
    obtain ⟨matrix?⟩ := light
    cases matrix? with
    | none => simpa [← Nat.add_assoc] using ih
    | some place =>
      by_cases hp : position place ∈ ps
      · simpa [hp, Nat.add_right_comm _ 1] using ih
      · simpa [hp, ← Nat.add_assoc] using ih

theorem length_filter_mem_places (hps : ps.Nodup) :
    (ps.filter (· ∈ places lights)).length = ((places lights).filter (· ∈ ps)).dedup.length := by
  refine List.Perm.length_eq ((List.perm_ext_iff_of_nodup (hps.filter _) (List.nodup_dedup _)).mpr
    fun p => ?_)
  simp [and_comm]

/-- The lights are counted without loss unless two of them are under one key. -/
theorem count_lights (info : Info) (hps : ps.Nodup) :
    let counted := (ps.filter (· ∈ places info.lights)).length + info.decorativeCount ps
    counted ≤ info.lights.length ∧ (counted = info.lights.length ↔ ¬Doubled ps info.lights) := by
  have hsub := List.dedup_sublist ((places info.lights).filter (· ∈ ps))
  rw [length_filter_mem_places hps, length_lights info ps, ← nodup_filter_places_iff,
    ← List.dedup_eq_self, ← hsub.length_eq]
  exact ⟨Nat.add_le_add_right hsub.length_le _, Nat.add_right_cancel_iff⟩

theorem decorativeCount_pos_iff :
    0 < info.decorativeCount ps ↔ ∃ light ∈ info.lights, ∀ p ∈ ps, light.at? ≠ some p := by
  rw [decorativeCount, List.length_pos_iff_exists_mem]
  simp only [List.mem_filter]
  refine exists_congr fun light => and_congr_right fun _ => ?_
  obtain ⟨matrix?⟩ := light
  cases matrix? with
  | none => simp [Light.at?]
  | some place =>
    simp only [Light.at?, Option.map_some, ne_eq, Option.some.injEq, Bool.not_eq_true',
      List.contains_eq_mem, decide_eq_false_iff_not]
    exact ⟨fun hout p hp heq => hout (heq ▸ hp), fun hout hin => hout _ hin rfl⟩

/-! ### The board of a definition -/

theorem of_toBoard {keyboard : Datum} {name? : Option String} {baseConfig : String} {board : Board}
    (h : (info.toBoard keyboard name? baseConfig).2 = .ok board) :
    board.splitLightCounts? = info.usedLighting?.bind (·.splitCounts?) ∧
      board.geometry.Valid ∧
      ∃ name keys count, info.chooseLayout keyboard name? = .ok (name, keys) ∧
        board.geometry = info.geometry keys count := by
  rw [toBoard] at h
  split at h
  next => cases h
  next name keys hchoice =>
    simp only [makeBoard] at h
    split at h
    next => cases h
    next count _ =>
      split at h
      next => cases h
      next hcheck =>
        obtain ⟨rfl, hvalid⟩ := Geometry.valid_of_check hcheck
        cases h
        exact ⟨rfl, hvalid, name, keys, count, hchoice, rfl⟩

section Geometry

variable {lighting : Lighting} (hused : info.usedLighting? = some lighting) (keys : List Key)
  (count : Nat)

include hused

theorem lights_of_usedLighting? : info.lights = lighting.lights := by
  rw [lights, hused]
  rfl

theorem hasLighting_of_usedLighting? : (info.geometry keys count).hasLighting = true := by
  unfold usedLighting? at hused
  split at hused
  next hlighting => exact hlighting
  next => cases hused

theorem lightCount?_of_usedLighting? :
    (info.geometry keys count).lightCount? = some (lightCount lighting) := by
  show info.usedLighting?.map lightCount = _
  rw [hused]
  rfl

end Geometry

theorem add_of_splitLightCounts? {keyboard : Datum} {name? : Option String} {baseConfig : String}
    {board : Board} (h : (info.toBoard keyboard name? baseConfig).2 = .ok board) {left right : Int}
    (hsplit : board.splitLightCounts? = some (left, right)) :
    left + right = board.geometry.totalLights := by
  obtain ⟨hcounts, -, name, keys, count, -, hgeometry⟩ := of_toBoard h
  obtain ⟨lighting, hused, hlighting⟩ := Option.bind_eq_some_iff.mp (hcounts.symm.trans hsplit)
  rw [hgeometry, Geometry.totalLights, lightCount?_of_usedLighting? hused, lightCount, hlighting]

theorem light?_of_mem_geometry {keys : List Key} {count : Nat} {k : KeyShape}
    (hk : k ∈ (info.geometry keys count).keys) : k.light? = lightAt? k.position 0 info.lights := by
  obtain ⟨key, -, rfl⟩ := List.mem_map.mp hk
  rfl

theorem keyedLights_geometry (info : Info) (keys : List Key) (count : Nat) :
    (info.geometry keys count).keyedLights =
      (((info.geometry keys count).positions.filter (· ∈ places info.lights)).length : Nat) := by
  rw [Geometry.keyedLights, Geometry.keyLights, Geometry.positions, List.filter_map, List.length_map,
    List.length_filterMap_eq_countP, ← List.countP_eq_length_filter]
  refine congrArg Nat.cast (List.countP_congr fun k hk => ?_)
  rw [light?_of_mem_geometry hk, Function.comp_apply, decide_eq_true_iff, Option.isSome_iff_ne_none,
    ne_eq, lightAt?_eq_none_iff, not_not]

theorem count_geometry (info : Info) (keys : List Key) (count : Nat)
    (hps : (info.geometry keys count).positions.Nodup) :
    let g := info.geometry keys count
    g.keyedLights + g.decorativeLights ≤ info.lights.length ∧
      (g.keyedLights + g.decorativeLights = info.lights.length ↔ ¬Doubled g.positions info.lights) ∧
      0 ≤ g.decorativeLights ∧
      (0 < g.decorativeLights ↔
        ∃ light ∈ info.lights, ∀ p ∈ g.positions, light.at? ≠ some p) := by
  intro g
  have hps : g.positions.Nodup := hps
  obtain ⟨hle, hexact⟩ := count_lights info hps
  have hkeyed : g.keyedLights = ((g.positions.filter (· ∈ places info.lights)).length : Nat) :=
    keyedLights_geometry info keys count
  have hdecorative : g.decorativeLights = (info.decorativeCount g.positions : Nat) := rfl
  rw [← hexact, ← decorativeCount_pos_iff, hkeyed, hdecorative]
  omega

end Info

end Keyforge
