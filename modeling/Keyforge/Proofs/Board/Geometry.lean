import Keyforge.Board.Coordinates

/-!
# What an accepted geometry promises

A geometry is checked as a whole when it is made. `Valid` names what the check establishes, so that
later facts take one hypothesis instead of opening the check.
-/

namespace Keyforge.Geometry

/-- The promises of a geometry that was accepted. -/
structure Valid (g : Geometry) : Prop where
  positions_nodup : g.positions.Nodup
  positions_inMatrix : ∀ p ∈ g.positions, g.inMatrix p = true
  lights_nodup : g.keyLights.Nodup
  lights_nonneg : ∀ light ∈ g.keyLights, 0 ≤ light
  lights_lt : ∀ light ∈ g.keyLights, light < g.totalLights

theorem greatest?_eq_max? (ns : List Int) : greatest? ns = ns.max? := by
  cases ns with
  | nil => rfl
  | cons n rest => exact List.max?_cons'.symm

theorem lt_totalLights {g : Geometry} {light : Int} (hlight : light ∈ g.keyLights)
    (hdeclared : ∀ count most, g.lightCount? = some count → greatest? g.keyLights = some most →
      most < count) : light < g.totalLights := by
  cases hmost : greatest? g.keyLights with
  | none =>
    rw [greatest?_eq_max?, List.max?_eq_none_iff] at hmost
    rw [hmost] at hlight
    cases hlight
  | some most =>
    have hle : light ≤ most :=
      (List.max?_eq_some_iff.mp ((greatest?_eq_max? _).symm.trans hmost)).2 light hlight
    unfold totalLights
    cases hcount : g.lightCount? with
    | none =>
      simp only [hmost]
      omega
    | some count =>
      have := hdeclared count most hcount hmost
      simp only
      omega

theorem valid_of_check {g g' : Geometry} (h : g.check = .ok g') : g' = g ∧ g.Valid := by
  unfold check at h
  split at h
  next hproblem =>
    cases h
    refine ⟨rfl, ?_⟩
    unfold problem? at hproblem
    split at hproblem
    · cases hproblem
    next hdistinct =>
      split at hproblem
      · cases hproblem
      next hinside =>
        split at hproblem
        · cases hproblem
        next hlights =>
          split at hproblem
          · cases hproblem
          next hnegative =>
            refine { positions_nodup := ?_, positions_inMatrix := fun p hp => ?_,
                     lights_nodup := ?_, lights_nonneg := fun light hl => ?_,
                     lights_lt := fun light hl => lt_totalLights hl fun count most hc hm => ?_ }
            · exact allDistinct_iff_nodup.mp (by simpa using hdistinct)
            · simpa using List.find?_eq_none.mp hinside p hp
            · exact allDistinct_iff_nodup.mp (by simpa using hlights)
            · simp only [List.any_eq_true, decide_eq_true_eq, not_exists, not_and] at hnegative
              exact Int.not_lt.mp (hnegative light hl)
            · simp only [hc, hm] at hproblem
              split at hproblem
              next hlt => exact hlt
              next => cases hproblem
  next => cases h

/-! ### Cells and slots -/

@[simp] theorem length_positions (g : Geometry) : g.positions.length = g.keys.length := by
  simp [positions]

@[simp] theorem length_halves (g : Geometry) : g.halves.length = g.keys.length := by
  unfold halves
  split
  · simp
  · split
    · simp
    · split <;> simp

theorem length_cells (g : Geometry) {halves : List Half} (h : halves.length = g.keys.length) :
    (g.cells halves).length = g.keys.length := by
  unfold cells
  split <;> simp [h]

/-- The positions in reading order are all positions, whatever halves their keys are put into. -/
theorem slots_perm (g : Geometry) {halves : List Half} (h : halves.length = g.keys.length) :
    (g.slots halves).Perm g.positions := by
  have hzip : ((g.cells halves).zip g.positions).map Prod.snd = g.positions :=
    List.map_snd_zip (by simp [g.length_cells h])
  have hsort := (List.mergeSort_perm ((g.cells halves).zip g.positions) readsBefore).map Prod.snd
  rw [hzip] at hsort
  exact hsort

theorem slots_perm_positions (g : Geometry) : g.slots.Perm g.positions :=
  g.slots_perm g.length_halves

end Keyforge.Geometry
