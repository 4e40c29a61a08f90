import Keyforge.Color
import Keyforge.Proofs.Text.Lines
import Mathlib.Data.Nat.Digits.Defs

/-!
# Colors as texts

A color is read back from the text it is written as. That text holds no white space and nothing that
separates the parts of a line (`bounds_of_mem_hexChars`).
-/

namespace Keyforge.Color

open Keyforge.Text

theorem exists_channelText (c : Fin 256) :
    ∃ high low, channelText c = [high, low] ∧ hexChannel? high low = some c := by
  have hall : ∀ c : Fin 256, (channelText c).length = 2 ∧
      hexChannel? ((channelText c).headD '0') ((channelText c).getLastD '0') = some c := by
    decide +kernel
  obtain ⟨hlen, hread⟩ := hall c
  obtain ⟨high, low, htext⟩ := List.length_eq_two.mp hlen
  refine ⟨high, low, htext, ?_⟩
  rw [htext] at hread
  exact hread

theorem exists_hexChars (color : Color) :
    ∃ a b c d e f, color.hexChars = ['#', a, b, c, d, e, f] ∧
      ofDigits? [a, b, c, d, e, f] = some color := by
  obtain ⟨a, b, hred, hab⟩ := exists_channelText color.red
  obtain ⟨c, d, hgreen, hcd⟩ := exists_channelText color.green
  obtain ⟨e, f, hblue, hef⟩ := exists_channelText color.blue
  refine ⟨a, b, c, d, e, f, ?_, by simp [ofDigits?, hab, hcd, hef]⟩
  rw [hexChars, hred, hgreen, hblue]
  rfl

/-! ### Digits -/

theorem bounds_of_hexDigit? {c : Char} {v : Nat} (h : hexDigit? c = some v) :
    v < 16 ∧ 48 ≤ c.toNat ∧ c.toNat ≤ 102 := by
  have hle : ∀ a b : Char, a ≤ b ↔ a.toNat ≤ b.toNat := fun a b => UInt32.le_iff_toNat_le
  have hcodes : '0'.toNat = 48 ∧ '9'.toNat = 57 ∧ 'a'.toNat = 97 ∧ 'f'.toNat = 102 ∧
    'A'.toNat = 65 ∧ 'F'.toNat = 70 := ⟨rfl, rfl, rfl, rfl, rfl, rfl⟩
  simp only [hexDigit?, Bool.and_eq_true, decide_eq_true_eq, hle] at h
  split at h
  · cases h
    omega
  · split at h
    · cases h
      omega
    · split at h
      · cases h
        omega
      · cases h

def IsHex (digits : List Char) : Prop :=
  digits.length = 6 ∧ ∀ d ∈ digits, (hexDigit? d).isSome = true

theorem isSome_of_hexChannel? {high low : Char} {v : Fin 256}
    (h : hexChannel? high low = some v) :
    (hexDigit? high).isSome = true ∧ (hexDigit? low).isSome = true := by
  obtain ⟨x, hx, h⟩ := Option.bind_eq_some_iff.mp h
  obtain ⟨y, hy, -⟩ := Option.bind_eq_some_iff.mp h
  simp [hx, hy]

theorem isHex_of_ofDigits? {cs : List Char} {color : Color} (h : ofDigits? cs = some color) :
    IsHex cs := by
  unfold ofDigits? at h
  split at h
  next a b c d e f =>
    obtain ⟨r, hr, h⟩ := Option.bind_eq_some_iff.mp h
    obtain ⟨g, hg, h⟩ := Option.bind_eq_some_iff.mp h
    obtain ⟨l, hl, -⟩ := Option.bind_eq_some_iff.mp h
    have hred := isSome_of_hexChannel? hr
    have hgreen := isSome_of_hexChannel? hg
    have hblue := isSome_of_hexChannel? hl
    exact ⟨rfl, by simp [hred, hgreen, hblue]⟩
  · cases h

theorem bounds_of_ofDigits? {cs : List Char} {color : Color} (h : ofDigits? cs = some color) :
    cs.length = 6 ∧ ∀ c ∈ cs, 48 ≤ c.toNat ∧ c.toNat ≤ 102 := by
  obtain ⟨hlength, hdigits⟩ := isHex_of_ofDigits? h
  refine ⟨hlength, fun c hc => ?_⟩
  obtain ⟨v, hv⟩ := Option.isSome_iff_exists.mp (hdigits c hc)
  exact (bounds_of_hexDigit? hv).2

theorem bounds_of_mem_hexChars {color : Color} {c : Char} (h : c ∈ color.hexChars) :
    35 ≤ c.toNat ∧ c.toNat ≤ 102 := by
  obtain ⟨a, b, x, d, e, f, htext, hdigits⟩ := exists_hexChars color
  rw [htext] at h
  rcases List.mem_cons.mp h with rfl | h
  · decide
  · have := (bounds_of_ofDigits? hdigits).2 c h
    omega

theorem visible_hexChars (color : Color) : Visible color.hexChars := by
  intro c hc
  have := bounds_of_mem_hexChars hc
  omega

theorem ofHex_hex (color : Color) : ofHex color.hex = .ok color := by
  obtain ⟨a, b, c, d, e, f, htext, hdigits⟩ := exists_hexChars color
  rw [ofHex, hex, String.toList_ofList, trim_eq_self (visible_hexChars color).trimmed, htext]
  simp only [hdigits]

/-! ### What digits stand for -/

def number (color : Color) : Nat := 256 * (256 * color.red.val + color.green.val) + color.blue.val

/-- Digits stand for the color whose number they write in base 16. -/
def Denotes (digits : List Char) (color : Color) : Prop :=
  Nat.ofDigits 16 (digits.filterMap hexDigit?).reverse = color.number

theorem number_inj {color other : Color} (h : color.number = other.number) : color = other := by
  obtain ⟨⟨r, hr⟩, ⟨g, hg⟩, ⟨b, hb⟩⟩ := color
  obtain ⟨⟨r', hr'⟩, ⟨g', hg'⟩, ⟨b', hb'⟩⟩ := other
  simp only [number] at h
  obtain ⟨rfl, rfl, rfl⟩ : r = r' ∧ g = g' ∧ b = b' := by omega
  rfl

theorem exists_denotes {digits : List Char} (h : IsHex digits) :
    ∃ color, ofDigits? digits = some color ∧ Denotes digits color := by
  obtain ⟨hlength, hdigits⟩ := h
  match digits, hlength with
  | [a, b, c, d, e, f], _ =>
    simp only [List.mem_cons, List.not_mem_nil, or_false, forall_eq_or_imp, forall_eq,
      Option.isSome_iff_exists] at hdigits
    obtain ⟨⟨va, ha⟩, ⟨vb, hb⟩, ⟨vc, hc⟩, ⟨vd, hd⟩, ⟨ve, he⟩, ⟨vf, hf⟩⟩ := hdigits
    have hlt : ∀ {c v}, hexDigit? c = some v → v < 16 := fun h => (bounds_of_hexDigit? h).1
    have hall : va < 16 ∧ vb < 16 ∧ vc < 16 ∧ vd < 16 ∧ ve < 16 ∧ vf < 16 :=
      ⟨hlt ha, hlt hb, hlt hc, hlt hd, hlt he, hlt hf⟩
    refine ⟨⟨Fin.ofNat 256 (16 * va + vb), Fin.ofNat 256 (16 * vc + vd),
      Fin.ofNat 256 (16 * ve + vf)⟩, ?_, ?_⟩
    · simp [ofDigits?, hexChannel?, ha, hb, hc, hd, he, hf]
    · simp only [Denotes, number, List.filterMap_cons, List.filterMap_nil, ha, hb, hc, hd, he, hf,
        List.reverse_cons, List.reverse_nil, List.nil_append, List.cons_append, Nat.ofDigits_cons,
        Nat.ofDigits_nil, Fin.ofNat]
      omega

/-- Reading digits gives the color they stand for. -/
theorem ofDigits?_eq_some_iff {digits : List Char} {color : Color} :
    ofDigits? digits = some color ↔ IsHex digits ∧ Denotes digits color := by
  constructor
  · intro h
    have hhex := isHex_of_ofDigits? h
    obtain ⟨other, hother, hdenotes⟩ := exists_denotes hhex
    obtain rfl : color = other := Option.some.inj (h.symm.trans hother)
    exact ⟨hhex, hdenotes⟩
  · rintro ⟨hhex, hdenotes⟩
    obtain ⟨other, hother, hdenotes'⟩ := exists_denotes hhex
    rw [hother, number_inj (hdenotes'.symm.trans hdenotes)]

end Keyforge.Color
