import Keyforge.Board.Geometry
import Mathlib.Data.List.Nodup

/-!
# The order of positions

Positions are read row by row, and in a row from left to right. The numbers of rows and columns are
listed in ascending order from zero on.
-/

namespace Keyforge.Position

/-! ### Reading order -/

theorem before_iff {p q : Position} :
    p.before q = true ↔ p.row < q.row ∨ (p.row = q.row ∧ p.col < q.col) := by
  simp [before]

theorem before_trans {p q r : Position} (hpq : p.before q = true) (hqr : q.before r = true) :
    p.before r = true := by
  rw [before_iff] at *
  omega

theorem before_irrefl (p : Position) : p.before p = false := by
  simp [before]

theorem before_asymm {p q : Position} (h : p.before q = true) : ¬q.before p = true := by
  intro hback
  have hself := before_trans h hback
  rw [before_irrefl] at hself
  cases hself

theorem atMost_of_before {p q : Position} (h : p.before q = true) : p.atMost q = true := by
  rw [atMost, Bool.not_eq_true', Bool.eq_false_iff]
  exact before_asymm h

theorem atMost_iff {p q : Position} :
    p.atMost q = true ↔ p.row < q.row ∨ (p.row = q.row ∧ p.col ≤ q.col) := by
  rw [atMost, Bool.not_eq_true', Bool.eq_false_iff, ne_eq, before_iff]
  omega

theorem before_of_atMost {p q : Position} (h : p.atMost q = true) (hne : p ≠ q) :
    p.before q = true := by
  obtain ⟨row, col⟩ := p
  obtain ⟨row', col'⟩ := q
  have hdiffer : ¬(row = row' ∧ col = col') := fun ⟨hrow, hcol⟩ => hne (by rw [hrow, hcol])
  rw [atMost_iff] at h
  rw [before_iff]
  dsimp only at *
  omega

/-- Items are listed in the reading order of their positions. -/
def Ascending (f : α → Position) (as : List α) : Prop :=
  as.Pairwise fun a b => (f a).before (f b) = true

namespace Ascending

variable {f : α → Position} {as bs : List α} {a b : α}

theorem nodup (h : Ascending f as) : (as.map f).Nodup := by
  rw [List.nodup_iff_pairwise_ne, List.pairwise_map]
  refine h.imp fun {a b} hab heq => ?_
  rw [heq, before_irrefl] at hab
  cases hab

theorem lt_iff_before (h : Ascending f as) {i j : Nat} (ha : as[i]? = some a)
    (hb : as[j]? = some b) : i < j ↔ (f a).before (f b) = true := by
  obtain ⟨hi, rfl⟩ := List.getElem?_eq_some_iff.mp ha
  obtain ⟨hj, rfl⟩ := List.getElem?_eq_some_iff.mp hb
  have hlt := List.pairwise_iff_getElem.mp h
  refine ⟨hlt i j hi hj, fun hbefore => Nat.lt_of_not_le fun hle => ?_⟩
  rcases Nat.lt_or_eq_of_le hle with hback | rfl
  · exact before_asymm hbefore (hlt j i hj hi hback)
  · rw [before_irrefl] at hbefore
    cases hbefore

/-- There is one way to list items in reading order. -/
theorem eq_of_mem_iff (has : Ascending f as) (hbs : Ascending f bs) (h : ∀ a, a ∈ as ↔ a ∈ bs) :
    as = bs :=
  List.Perm.eq_of_pairwise (fun _ _ _ _ hab hba => absurd hba (before_asymm hab)) has hbs
    ((List.perm_ext_iff_of_nodup (.of_map _ has.nodup) (.of_map _ hbs.nodup)).mpr h)

end Ascending

/-! ### Numbers of rows and columns -/

@[simp] theorem length_indices (count : Int) : (indices count).length = count.toNat := by
  simp [indices]

theorem getElem?_indices {count : Int} {i : Nat} (h : i < count.toNat) :
    (indices count)[i]? = some (i : Int) := by
  simp [indices, h]

theorem pairwise_indices (count : Int) : (indices count).Pairwise (· < ·) := by
  rw [indices, List.pairwise_map]
  exact List.pairwise_lt_range.imp fun h => Int.ofNat_lt.mpr h

theorem mem_indices {count i : Int} : i ∈ indices count ↔ 0 ≤ i ∧ i < count := by
  simp only [indices, List.mem_map, List.mem_range, Int.ofNat_eq_natCast]
  constructor
  · rintro ⟨n, hn, rfl⟩
    omega
  · rintro ⟨hpos, hlt⟩
    exact ⟨i.toNat, by omega, by omega⟩

end Keyforge.Position
