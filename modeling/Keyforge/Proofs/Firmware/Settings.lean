import Keyforge.Firmware.Declarations
import Keyforge.Proofs.Keycode.Layer

/-!
# Settings

A setting asks for a declaration, for nothing, or has a value that cannot be used (`Unusable`,
`Overflows`).
-/

namespace Keyforge.Firmware

open Keyforge.Text

variable {value : String} {lighting : Bool} {settings : List (String × String)}

/-! ### Durations -/

/-- A text is a duration of so many milliseconds: a number with a unit. -/
def ReadsAs (value : String) (x : Float) : Prop :=
  ∃ digits places rest scale,
    takeNumber? (Text.lower (Text.strip value)).toList = some (digits, places, rest) ∧
    unitScale? (Text.trimLeft rest) = some scale ∧
    x = Number.floatOfDecimal false digits (-(places : Int)) * Number.floatOfInt scale

def Finite (x : Float) : Prop := ∃ d, Number.view x = .finite d

theorem roundFloat_eq_tooLarge_iff {x : Float} : roundFloat x = .tooLarge ↔ ¬Finite x := by
  unfold roundFloat Finite
  cases Number.view x <;> simp

theorem roundFloat_ne_unusable (x : Float) : roundFloat x ≠ .unusable := by
  unfold roundFloat
  cases Number.view x <;> simp

theorem duration_cases (value : String) :
    (duration value = .unusable ∧ ∀ x, ¬ReadsAs value x) ∨
      ∃ x, duration value = roundFloat x ∧ ∀ y, ReadsAs value y ↔ y = x := by
  unfold duration ReadsAs
  cases hnumber : takeNumber? (lower (strip value)).toList with
  | none => exact .inl ⟨rfl, by simp⟩
  | some found =>
    obtain ⟨digits, places, rest⟩ := found
    cases hscale : unitScale? (trimLeft rest) with
    | none => exact .inl ⟨by simp [hscale], by simp [hscale]⟩
    | some scale =>
      refine .inr ⟨_, by simp only [hscale, Option.bind_eq_bind, Option.bind_some, pure]; rfl, ?_⟩
      simp [hscale]

theorem duration_eq_unusable_iff : duration value = .unusable ↔ ∀ x, ¬ReadsAs value x := by
  rcases duration_cases value with ⟨hduration, hnone⟩ | ⟨x, hduration, hreads⟩
  · exact ⟨fun _ => hnone, fun _ => hduration⟩
  · rw [hduration]
    refine ⟨fun h => absurd h (roundFloat_ne_unusable x), fun h => absurd ?_ (h x)⟩
    exact (hreads x).mpr rfl

theorem duration_eq_tooLarge_iff :
    duration value = .tooLarge ↔ ∃ x, ReadsAs value x ∧ ¬Finite x := by
  rcases duration_cases value with ⟨hduration, hnone⟩ | ⟨x, hduration, hreads⟩
  · rw [hduration]
    exact ⟨nofun, fun ⟨x, hx, _⟩ => absurd hx (hnone x)⟩
  · simp only [hduration, roundFloat_eq_tooLarge_iff, hreads, exists_eq_left]

/-! ### Values that are not used -/

/-- A setting is a duration that matters to the board. -/
def TakesDuration (lighting : Bool) (name : String) : Prop :=
  Text.lower name = "tapping term" ∨ Text.lower name = "quick tap term" ∨
    lighting = true ∧ Text.lower name = "rgb timeout"

/-- A setting is a percentage that matters to the board. -/
def TakesPercentage (lighting : Bool) (name : String) : Prop :=
  lighting = true ∧ Text.lower name = "rgb brightness"

/-- A setting's value is not of the form it should have. -/
def Unusable (lighting : Bool) (name value : String) : Prop :=
  (TakesDuration lighting name ∧ ∀ x, ¬ReadsAs value x) ∨
    TakesPercentage lighting name ∧
      ∃ e, Number.integer (Text.dropWhileEnd (· == '%') (Text.trim value.toList)) = .error e

/-- A setting's value is a duration that is too large for a floating point number. -/
def Overflows (lighting : Bool) (name value : String) : Prop :=
  TakesDuration lighting name ∧ ∃ x, ReadsAs value x ∧ ¬Finite x

theorem brightness_eq_unusable_iff : brightness value = .unusable ↔
    ∃ e, Number.integer (dropWhileEnd (· == '%') (trim value.toList)) = .error e := by
  unfold brightness
  split <;> simp_all

theorem brightness_ne_tooLarge (value : String) : brightness value ≠ .tooLarge := by
  unfold brightness
  split <;> nofun

theorem settingDeclaration_cases (lighting : Bool) (name value : String) :
    (TakesDuration lighting name ∧ ¬TakesPercentage lighting name ∧
      (settingDeclaration lighting name value = .unusable ↔ duration value = .unusable) ∧
      (settingDeclaration lighting name value = .tooLarge ↔ duration value = .tooLarge)) ∨
    (¬TakesDuration lighting name ∧ TakesPercentage lighting name ∧
      (settingDeclaration lighting name value = .unusable ↔ brightness value = .unusable) ∧
      settingDeclaration lighting name value ≠ .tooLarge) ∨
    (¬TakesDuration lighting name ∧ ¬TakesPercentage lighting name ∧
      ∃ declaration, settingDeclaration lighting name value = .ok declaration) := by
  unfold settingDeclaration TakesDuration TakesPercentage
  dsimp only
  split
  next hname =>
    refine .inl ⟨.inl hname, by simp [hname], ?_⟩
    cases duration value <;> simp
  next hname =>
    refine .inl ⟨.inr (.inl hname), by simp [hname], ?_⟩
    cases duration value <;> simp
  next hname => exact .inr (.inr ⟨by simp [hname], by simp [hname], _, rfl⟩)
  next hname => exact .inr (.inr ⟨by simp [hname], by simp [hname], _, rfl⟩)
  next hname =>
    cases lighting with
    | false => exact .inr (.inr ⟨by simp [hname], by simp, _, rfl⟩)
    | true =>
      refine .inl ⟨.inr (.inr ⟨rfl, hname⟩), by simp [hname], ?_⟩
      -- a timeout of zero is left out, which is no failure either
      cases duration value with
      | ok n => by_cases hn : n = 0 <;> simp [hn]
      | unusable => simp
      | tooLarge => simp
  next hname =>
    cases lighting with
    | false => exact .inr (.inr ⟨by simp [hname], by simp, _, rfl⟩)
    | true =>
      refine .inr (.inl ⟨by simp [hname], ⟨rfl, hname⟩, ?_⟩)
      have hsmall := brightness_ne_tooLarge value
      cases hbrightness : brightness value <;> simp_all
  next htapping hquick _ _ htimeout hbrightness =>
    refine .inr (.inr ⟨?_, fun h => hbrightness h.2, none, rfl⟩)
    rintro (h | h | h)
    · exact htapping h
    · exact hquick h
    · exact htimeout h.2

theorem settingDeclaration_eq_tooLarge_iff {name : String} :
    settingDeclaration lighting name value = .tooLarge ↔ Overflows lighting name value := by
  rw [Overflows, ← duration_eq_tooLarge_iff]
  rcases settingDeclaration_cases lighting name value with
    ⟨htakes, -, -, hiff⟩ | ⟨hnot, -, -, hne⟩ | ⟨hnot, -, declaration, hok⟩
  · simp only [hiff, htakes, true_and]
  · simp only [hne, hnot, false_and]
  · simp [hok, hnot]

theorem settingDeclaration_eq_unusable_iff {name : String} :
    settingDeclaration lighting name value = .unusable ↔ Unusable lighting name value := by
  rw [Unusable, ← duration_eq_unusable_iff, ← brightness_eq_unusable_iff]
  rcases settingDeclaration_cases lighting name value with
    ⟨htakes, hnot, hiff, -⟩ | ⟨hnot, htakes, hiff, -⟩ | ⟨hnot, hnot', declaration, hok⟩
  · simp only [hiff, htakes, hnot, true_and, false_and, or_false]
  · simp only [hiff, htakes, hnot, true_and, false_and, false_or]
  · simp [hok, hnot, hnot']

instance (lighting : Bool) (name value : String) : Decidable (Unusable lighting name value) :=
  decidable_of_iff _ settingDeclaration_eq_unusable_iff

/-! ### All settings -/

/-- The declaration of a setting whose value is used. -/
def declared? (lighting : Bool) (setting : String × String) : Option (String × String) :=
  match settingDeclaration lighting setting.1 setting.2 with
  | .ok declaration => declaration
  | _ => none

def settingWarnings (lighting : Bool) (settings : List (String × String)) : Log :=
  (settings.filter fun setting => Unusable lighting setting.1 setting.2).map fun setting =>
    settingWarning setting.1 setting.2

theorem settingWarnings_cons_of_unusable {name : String}
    (h : settingDeclaration lighting name value = .unusable) :
    settingWarnings lighting ((name, value) :: settings) =
      settingWarning name value :: settingWarnings lighting settings := by
  have hunusable := settingDeclaration_eq_unusable_iff.mp h
  rw [settingWarnings, List.filter_cons_of_pos (by simpa using hunusable), List.map_cons]
  rfl

theorem settingWarnings_cons_of_ok {name : String} {declaration : Option (String × String)}
    (h : settingDeclaration lighting name value = .ok declaration) :
    settingWarnings lighting ((name, value) :: settings) = settingWarnings lighting settings := by
  have husable : ¬Unusable lighting name value := by
    rw [← settingDeclaration_eq_unusable_iff, h]
    nofun
  rw [settingWarnings, List.filter_cons_of_neg (by simpa using husable)]
  rfl

/-- Settings with unusable values are passed over with a warning. -/
theorem settingsFrom_eq (h : ∀ setting ∈ settings, ¬Overflows lighting setting.1 setting.2)
    (found : List (String × String)) :
    settingsFrom lighting settings found = (settingWarnings lighting settings,
      .ok (Pairs.putAll found (settings.filterMap (declared? lighting)))) := by
  induction settings generalizing found with
  | nil => rfl
  | cons setting settings ih =>
    obtain ⟨name, value⟩ := setting
    obtain ⟨hfirst, hrest⟩ := List.forall_mem_cons.mp h
    cases hsetting : settingDeclaration lighting name value with
    | tooLarge => exact absurd (settingDeclaration_eq_tooLarge_iff.mp hsetting) hfirst
    | unusable =>
      have hskipped : declared? lighting (name, value) = none := by simp only [declared?, hsetting]
      rw [settingsFrom, settingWarnings_cons_of_unusable hsetting,
        List.filterMap_cons_none hskipped]
      simp only [hsetting, ih hrest found]
    | ok declaration =>
      have hdeclared : declared? lighting (name, value) = declaration := by
        simp only [declared?, hsetting]
      rw [settingsFrom, settingWarnings_cons_of_ok hsetting]
      simp only [hsetting]
      cases declaration with
      | none => rw [List.filterMap_cons_none hdeclared, ih hrest found]
      | some pair =>
        rw [List.filterMap_cons_some hdeclared]
        exact ih hrest (Pairs.put pair.1 pair.2 found)

/-- A duration that is too large ends it. -/
theorem settingsFrom_of_overflows (h : ∃ setting ∈ settings, Overflows lighting setting.1 setting.2)
    (found : List (String × String)) :
    (settingsFrom lighting settings found).2 = .error .tooLarge := by
  induction settings generalizing found with
  | nil =>
    obtain ⟨_, hmem, -⟩ := h
    cases hmem
  | cons setting settings ih =>
    obtain ⟨other, hmem, hoverflows⟩ := h
    rcases List.mem_cons.mp hmem with rfl | hmem
    · rw [settingsFrom, settingDeclaration_eq_tooLarge_iff.mpr hoverflows]
    · have hlater := ih ⟨other, hmem, hoverflows⟩
      rw [settingsFrom]
      split
      · exact hlater _
      · exact hlater found
      · rfl
      · exact hlater found

/-! ### Plain numbers -/

theorem lowerFrom_eq_self {cs : List Char} (h : ∀ c ∈ cs, c.isDigit = true) (before : List Char) :
    lowerFrom before cs = cs := by
  induction cs generalizing before with
  | nil => rfl
  | cons c cs ih =>
    have hc := h c List.mem_cons_self
    have hsmall := Keycode.of_isIdentifierChar
      (p := fun c => !c.isDigit || lowerChar c == [c] && c != 'Σ') (by decide)
      (Keycode.isIdentifierChar_of_isDigit hc)
    simp only [hc, Bool.not_true, Bool.false_or, Bool.and_eq_true, beq_iff_eq, bne_iff_ne] at hsmall
    rw [lowerFrom, if_neg (by simpa using hsmall.2), hsmall.1,
      ih (List.forall_mem_cons.mp h).2]
    rfl

theorem trimmed_of_isDigit {cs : List Char} (h : ∀ c ∈ cs, c.isDigit = true) : Trimmed cs := by
  have hblank : ∀ c ∈ cs, isBlank c = false := by
    intro c hc
    cases hblank : isBlank c with
    | false => rfl
    | true => rw [← h c hc, Keycode.isDigit_eq_false_of_isBlank hblank]
  exact ⟨fun c hc => hblank c (List.mem_of_head? hc), fun c hc => hblank c (List.mem_of_getLast? hc)⟩

theorem readsAs_digits {cs : List Char} (hne : cs ≠ []) (h : ∀ c ∈ cs, c.isDigit = true) :
    ReadsAs (String.ofList cs)
      (Number.floatOfDecimal false (natOfDigits cs) 0 * Number.floatOfInt 1) := by
  have hdigits : ∀ c ∈ cs, isDigit c = true := by
    intro c hc
    rw [isDigit, digitValue?_of_isDigit (h c hc)]
    rfl
  have htext : (lower (strip (String.ofList cs))).toList = cs := by
    rw [lower, strip, String.toList_ofList, String.toList_ofList, String.toList_ofList,
      trim_eq_self (trimmed_of_isDigit h), lowerFrom_eq_self h]
  refine ⟨natOfDigits cs, 0, [], 1, ?_, rfl, rfl⟩
  rw [htext, takeNumber?, List.takeWhile_eq_self_iff.mpr hdigits,
    List.dropWhile_eq_nil_iff.mpr hdigits]
  simp [hne]

end Keyforge.Firmware
