import Keyforge.Layout.Check
import Keyforge.Proofs.Result
import Keyforge.Proofs.Text.Lines

/-!
# What checks accept

The parts of layouts that are accepted, and what becomes of them.
-/

namespace Keyforge

open Keyforge.Text Datum.Verdict

theorem strip_eq_self {s : String} (h : Trimmed s.toList) : strip s = s := by
  rw [strip, trim_eq_self h, String.ofList_toList]

theorem nonBlank_eq_ok_iff {message s t : String} :
    nonBlank message s = .ok t ↔ t = strip s ∧ t ≠ "" := by
  rw [nonBlank, require_eq_ok_iff, bne_iff_ne]
  constructor
  · rintro ⟨hne, rfl⟩
    exact ⟨rfl, hne⟩
  · rintro ⟨rfl, hne⟩
    exact ⟨hne, rfl⟩

theorem nonBlank_eq_ok {message text : String} (h : Phrase text.toList) :
    nonBlank message text = .ok text := by
  refine nonBlank_eq_ok_iff.mpr ⟨(strip_eq_self h.trimmed).symm, ?_⟩
  rintro rfl
  exact h.ne_nil rfl

theorem phrase_of_nonBlank {message s t : String} (hs : OneLine s.toList)
    (h : nonBlank message s = .ok t) : Phrase t.toList := by
  obtain ⟨rfl, hne⟩ := nonBlank_eq_ok_iff.mp h
  rw [strip] at hne ⊢
  rw [String.toList_ofList]
  refine phrase_trim ?_ hs
  intro hnil
  rw [hnil] at hne
  exact hne rfl

theorem checkSome_eq_ok_iff {check : α → Datum.Verdict β} {value? : Option α} {result? : Option β} :
    checkSome check value? = .ok result? ↔ (value? = none ∧ result? = none) ∨
      ∃ value result, value? = some value ∧ result? = some result ∧ check value = .ok result := by
  cases value? with
  | none => simp [checkSome, eq_comm]
  | some value =>
    rw [checkSome, Datum.Verdict.map_eq_ok_iff]
    constructor
    · rintro ⟨result, hresult, rfl⟩
      exact .inr ⟨value, result, rfl, rfl, hresult⟩
    · rintro (⟨hnone, -⟩ | ⟨_, result, ⟨⟩, rfl, hresult⟩)
      · cases hnone
      · exact ⟨result, hresult, rfl⟩

theorem Category.make_eq_ok_iff {id name : String} {color : Color} {description? : Option String}
    {category : Category} :
    Category.make id name color description? = .ok category ↔
      Name.isCategoryId id.toList = true ∧ strip name ≠ "" ∧ size (strip name).toList ≤ 50 ∧
        category = ⟨id, strip name, color, description?⟩ := by
  simp only [Category.make, functor_map_eq, seq_eq_ok_iff, Datum.Verdict.map_eq_ok_iff,
    within_eq_ok_iff, Category.checkId, Category.checkName, andThen_eq_ok_iff, nonBlank_eq_ok_iff,
    require_eq_ok_iff, decide_eq_true_eq]
  constructor
  · rintro ⟨_, _, ⟨_, _, ⟨_, _, ⟨_, ⟨hid, rfl⟩, rfl⟩, ⟨_, ⟨rfl, hne⟩, hshort, rfl⟩, rfl⟩, ⟨⟩, rfl⟩, ⟨⟩,
      rfl⟩
    exact ⟨hid, hne, hshort, rfl⟩
  · rintro ⟨hid, hne, hshort, rfl⟩
    exact ⟨_, _, ⟨_, _, ⟨_, _, ⟨_, ⟨hid, rfl⟩, rfl⟩, ⟨_, ⟨rfl, hne⟩, hshort, rfl⟩, rfl⟩, rfl, rfl⟩, rfl,
      rfl⟩

theorem TapDance.make_eq_ok_iff {t made : TapDance} :
    t.make = .ok made ↔
      Name.isTapDanceName t.name.toList = true ∧ made.name = t.name ∧
        TapDance.checkKeycode t.single = .ok made.single ∧
        checkSome TapDance.checkKeycode t.double? = .ok made.double? ∧
        checkSome TapDance.checkKeycode t.hold? = .ok made.hold? := by
  simp only [TapDance.make, functor_map_eq, seq_eq_ok_iff, Datum.Verdict.map_eq_ok_iff,
    within_eq_ok_iff, TapDance.checkName, require_eq_ok_iff]
  constructor
  · rintro ⟨_, _, ⟨_, _, ⟨_, _, ⟨_, ⟨hname, rfl⟩, rfl⟩, hsingle, rfl⟩, hdouble, rfl⟩, hhold, rfl⟩
    exact ⟨hname, rfl, hsingle, hdouble, hhold⟩
  · obtain ⟨name, single, double?, hold?⟩ := made
    rintro ⟨hname, rfl, hsingle, hdouble, hhold⟩
    exact ⟨_, _, ⟨_, _, ⟨_, _, ⟨_, ⟨hname, rfl⟩, rfl⟩, hsingle, rfl⟩, hdouble, rfl⟩, hhold, rfl⟩

end Keyforge
