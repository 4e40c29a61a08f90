import Keyforge.Layout.Basic
import Keyforge.Proofs.Text.Lines

/-!
# Names are visible

Ids and names of the parts of a layout consist of visible characters, so that they stand in lines and
cells as they are. None of them has a character that separates the parts of a line.
-/

namespace Keyforge.Name

open Keyforge.Text

variable {c : Char} {cs : List Char}

/-! ### Kinds of characters -/

theorem bounds_of_isDigit (h : c.isDigit = true) : 48 ≤ c.toNat ∧ c.toNat ≤ 57 := by
  simp only [Char.isDigit, Bool.and_eq_true, decide_eq_true_eq, UInt32.le_iff_toNat_le] at h
  exact h

theorem bounds_of_isAlpha (h : c.isAlpha = true) :
    (65 ≤ c.toNat ∧ c.toNat ≤ 90) ∨ (97 ≤ c.toNat ∧ c.toNat ≤ 122) := by
  unfold Char.isAlpha Char.isUpper Char.isLower at h
  simp only [Bool.or_eq_true, Bool.and_eq_true, decide_eq_true_eq, ge_iff_le,
    UInt32.le_iff_toNat_le] at h
  exact h

theorem bounds_of_isAlphanum (h : c.isAlphanum = true) : 48 ≤ c.toNat ∧ c.toNat ≤ 122 := by
  rw [Char.isAlphanum, Bool.or_eq_true] at h
  rcases h with h | h
  · have := bounds_of_isAlpha h
    omega
  · have := bounds_of_isDigit h
    omega

theorem bounds_of_isSmall (h : isSmall c = true) : 97 ≤ c.toNat ∧ c.toNat ≤ 122 := by
  have hle : ∀ a b : Char, a ≤ b ↔ a.toNat ≤ b.toNat := fun a b => UInt32.le_iff_toNat_le
  simp only [isSmall, Bool.and_eq_true, decide_eq_true_eq, hle] at h
  exact h

theorem bounds_of_isCategoryChar (h : isCategoryChar c = true) :
    45 ≤ c.toNat ∧ c.toNat ≤ 122 ∧ c ≠ ':' := by
  simp only [isCategoryChar, Bool.or_eq_true, beq_iff_eq] at h
  rcases h with (h | h) | rfl
  · have hbounds := bounds_of_isSmall h
    refine ⟨by omega, by omega, ?_⟩
    rintro rfl
    exact absurd hbounds (by decide)
  · have hbounds := bounds_of_isDigit h
    refine ⟨by omega, by omega, ?_⟩
    rintro rfl
    exact absurd hbounds (by decide)
  · decide

/-! ### Names -/

theorem ne_nil_of_startsAndGoesOn {first more : Char → Bool}
    (h : startsAndGoesOn first more cs = true) : cs ≠ [] := by
  rintro rfl
  cases h

theorem of_startsAndGoesOn {first more : Char → Bool} (h : startsAndGoesOn first more cs = true)
    (hc : c ∈ cs) : first c = true ∨ more c = true := by
  cases cs with
  | nil => cases h
  | cons d rest =>
    simp only [startsAndGoesOn, Bool.and_eq_true, List.all_eq_true] at h
    rcases List.mem_cons.mp hc with rfl | hc
    · exact .inl h.1
    · exact .inr (h.2 c hc)

theorem isCategoryChar_of_mem (h : isCategoryId cs = true) (hc : c ∈ cs) :
    isCategoryChar c = true := by
  rcases of_startsAndGoesOn h hc with h | h
  · simp [isCategoryChar, h]
  · exact h

theorem visible_of_isCategoryId (h : isCategoryId cs = true) : Visible cs := by
  intro c hc
  have := bounds_of_isCategoryChar (isCategoryChar_of_mem h hc)
  omega

theorem visible_of_isLayerId (h : isLayerId cs = true) : Visible cs := by
  intro c hc
  have hc : c.isAlphanum = true ∨ c = '-' := by
    rcases of_startsAndGoesOn h hc with h | h
    · exact .inl h
    · simpa using h
  rcases hc with hc | rfl
  · have := bounds_of_isAlphanum hc
    omega
  · decide

theorem visible_of_isTapDanceName (h : isTapDanceName cs = true) : Visible cs ∧ '*' ∉ cs := by
  simp only [isTapDanceName, Bool.and_eq_true, List.all_eq_true, Bool.or_eq_true, beq_iff_eq] at h
  refine ⟨fun c hc => ?_, fun hc => ?_⟩
  · rcases h.2 c hc with hc | rfl
    · have := bounds_of_isAlphanum hc
      omega
    · decide
  · exact absurd (h.2 '*' hc) (by decide)

end Keyforge.Name
