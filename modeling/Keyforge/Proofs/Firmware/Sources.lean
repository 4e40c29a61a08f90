import Keyforge.Proofs.Firmware.References
import Keyforge.Proofs.Firmware.Settings
import Keyforge.Proofs.Firmware.Violations

/-!
# Sources of valid layouts

A report without errors is enough for the sources, whatever it warns of, but for three things that
validation does not look at. A number of lights may have too many digits to be written, a setting may
be a duration that is too large, and a pattern of deprecated names may be malformed. They are met in
this order.
-/

namespace Keyforge.Firmware

/-! ### Parts that can fail -/

theorem written_eq_ok {numbers : List Int} (h : ¬∃ n ∈ numbers, Number.Long n) (value : α) :
    written numbers value = .ok value := by
  rw [written, Number.checkWritable_eq_ok_iff.mpr h]

theorem written_eq_error {numbers : List Int} (h : ∃ n ∈ numbers, Number.Long n) (value : α) :
    written numbers value = .error (.number .unwritable) := by
  rw [written, Number.checkWritable_eq_error h]

/-- All patterns of deprecated names can be read. -/
def Options.PatternsRead (o : Options) : Prop :=
  ∀ text ∈ o.deprecatedPatterns, ∃ p, Header.Pattern.read text = .ok p

theorem Options.PatternsRead.exists_headerRules {o : Options} (h : o.PatternsRead) :
    ∃ rules, o.headerRules = .ok rules := by
  obtain ⟨patterns, hpatterns, -⟩ := exists_mapM h
  exact ⟨_, by rw [Options.headerRules, hpatterns]; rfl⟩

theorem Options.exists_fault {o : Options} (h : ¬o.PatternsRead) :
    ∃ text ∈ o.deprecatedPatterns, ∃ fault, Header.Pattern.read text = .error fault ∧
      o.headerRules = .error fault := by
  obtain ⟨text, htext, fault, hread, hpatterns⟩ :=
    (mapM_cases Header.Pattern.read o.deprecatedPatterns).resolve_left h
  exact ⟨text, htext, fault, hread, by rw [Options.headerRules, hpatterns]; rfl⟩

namespace Compilation

variable {c : Compilation}

theorem exists_emit (hlinked : c.toSubject.Linked) (hfits : c.layout.Fits) {layer : Layer}
    (hlayer : layer ∈ c.layout.layers) : ∀ entry ∈ layer.keys,
      ∃ code, Keycode.emit c.layout.layerIds entry.2.keycode = .ok code := by
  intro entry hentry
  obtain ⟨resolved, hresolved, -⟩ :=
    exists_resolved hfits (hlinked.keyLayers layer hlayer entry hentry)
  exact ⟨_, by rw [Keycode.emit, hresolved]; rfl⟩

theorem exists_layerEntry (hlinked : c.toSubject.Linked) (hfits : c.layout.Fits)
    (hfinite : ∀ k ∈ c.board.geometry.keys, Finite k.y) {layer : Layer}
    (hlayer : layer ∈ c.layout.layers) : ∃ lines, c.layerEntry layer = .ok lines := by
  obtain ⟨code, hcode⟩ :=
    Classical.axiomOfChoice (exists_isCodeAt (exists_emit hlinked hfits hlayer))
  obtain ⟨rows, hrows, -⟩ := exists_rows hfinite
  have hmatrix := matrixLayer_eq_ok hcode
  unfold layerEntry
  split
  next name _ =>
    split
    · exact ⟨_, by rw [hmatrix]; rfl⟩
    · exact ⟨_, by rw [macroLayer, layerKeycodes_eq_ok hcode, hrows]; rfl⟩
  next => exact ⟨_, by rw [hmatrix]; rfl⟩

/-- But for the lights, nothing keeps the keymap of a valid layout from being written. -/
theorem exists_keymapText (hlinked : c.toSubject.Linked) (hfits : c.layout.Fits)
    (hfinite : ∀ k ∈ c.board.geometry.keys, Finite k.y) :
    ∃ text, c.keymapText = (written c.tableLights c.lightingLines).map text := by
  obtain ⟨tapDances, htapDances⟩ : ∃ lines, c.tapDanceLines = .ok lines := by
    cases hdances : c.layout.tapDances with
    | nil => exact ⟨[], by rw [tapDanceLines, hdances]; rfl⟩
    | cons t rest =>
      have ht : t ∈ c.layout.tapDances := by rw [hdances]; exact List.mem_cons_self
      obtain ⟨lines, hlines, -⟩ := exists_tapDanceLines hlinked hfits ht
      exact ⟨lines, hlines⟩
  obtain ⟨layers, hlayers, -⟩ := exists_mapM (f := c.layerEntry) fun layer hlayer =>
    exists_layerEntry hlinked hfits hfinite hlayer
  exact ⟨_, by rw [keymapText, htapDances, keymapLines, hlayers]; rfl⟩

/-! ### Results -/

/-- A number of lights that the sources are to have has too many digits to be written. -/
def LightsLong (c : Compilation) : Prop := ∃ n ∈ c.tableLights ++ c.declaredLights, Number.Long n

section Results

variable {text : List String → String} (report : Report)
  (hkeymap : c.keymapText = (written c.tableLights c.lightingLines).map text)

include hkeymap

theorem sources_of_lightsLong (h : c.LightsLong) :
    (c.sources report).2 = .error (.number .unwritable) := by
  by_cases htable : ∃ n ∈ c.tableLights, Number.Long n
  · rw [sources, hkeymap, written_eq_error htable]
    rfl
  · obtain ⟨n, hn, hlong⟩ := h
    have hdeclared : ∃ n ∈ c.declaredLights, Number.Long n :=
      ⟨n, (List.mem_append.mp hn).resolve_left fun hmem => htable ⟨n, hmem, hlong⟩, hlong⟩
    rw [sources, hkeymap, written_eq_ok htable, configText, written_eq_error hdeclared]
    rfl

variable (hlights : ¬c.LightsLong)

include hlights

theorem keymapText_eq_ok : c.keymapText = .ok (text c.lightingLines) := by
  rw [hkeymap, written_eq_ok fun ⟨n, hn, hlong⟩ => hlights ⟨n, List.mem_append_left _ hn, hlong⟩]
  rfl

omit hkeymap in
theorem written_declaredLights :
    written c.declaredLights c.derivedDeclarations = .ok c.derivedDeclarations :=
  written_eq_ok (fun ⟨n, hn, hlong⟩ => hlights ⟨n, List.mem_append_right _ hn, hlong⟩) _

theorem sources_eq_ok {log : Log} {settings : List (String × String)} {rules : Header.Rules}
    (hsettings : c.settingsDeclarations = (log, .ok settings))
    (hrules : c.options.headerRules = .ok rules) :
    ∃ more artifacts, c.sources report = (log ++ more, .ok artifacts) ∧
      artifacts.report = report := by
  simp only [sources, keymapText_eq_ok hkeymap hlights, configText, written_declaredLights hlights,
    hsettings, hrules]
  exact ⟨_, _, rfl, rfl⟩

theorem sources_eq_error {e : Failure} (hsettings : c.settingsDeclarations.2 = .error e) :
    (c.sources report).2 = .error e := by
  rcases hdeclared : c.settingsDeclarations with ⟨log, result⟩
  rw [hdeclared] at hsettings
  cases hsettings
  simp only [sources, keymapText_eq_ok hkeymap hlights, configText, written_declaredLights hlights,
    hdeclared]

theorem sources_of_fault {log : Log} {settings : List (String × String)}
    {fault : Header.Pattern.Fault} (hsettings : c.settingsDeclarations = (log, .ok settings))
    (hrules : c.options.headerRules = .error fault) :
    (c.sources report).2 = .error (.pattern fault) := by
  simp only [sources, keymapText_eq_ok hkeymap hlights, configText, written_declaredLights hlights,
    hsettings, hrules]

end Results

/-- The layout for the corner board, with settings and patterns of deprecated names. -/
def settingsKeymap (settings : List (String × String))
    (deprecatedPatterns : List String := cornerKeymap.options.deprecatedPatterns) : Compilation :=
  { cornerKeymap with
    layout := { cornerLayout with settings }, options := { deprecatedPatterns } }

section SettingsKeymap

variable (settings : List (String × String)) (deprecatedPatterns : List String)

theorem make_settingsKeymap :
    Compilation.make { cornerLayout with settings } cornerBoard { deprecatedPatterns } =
      .ok (settingsKeymap settings deprecatedPatterns) := by
  have hcolor : Color.ofHex "#FFFFFF" = .ok .white := toOption_eq_some_iff.mp (by decide)
  rw [Compilation.make, hcolor]
  rfl

theorem check_settingsLayout : { cornerLayout with settings }.check =
    .ok { cornerLayout with settings } := by
  have hproblem : { cornerLayout with settings }.problem? = none :=
    (by decide : cornerLayout.problem? = none)
  rw [Layout.check, hproblem]

theorem exists_validate_settingsKeymap :
    ∃ report, (settingsKeymap settings deprecatedPatterns).toSubject.validate = .ok report ∧
      report.isValid = true := by
  -- nothing that is checked depends on the settings
  have hshort : ¬(settingsKeymap settings deprecatedPatterns).toSubject.Overlong :=
    Subject.not_overlong (s := cornerKeymap.toSubject) (by decide) (by decide)
  have hnone : violations cornerLayout cornerBoard.geometry = [] := by decide +kernel
  exact ⟨_, Subject.validate_eq_ok hshort,
    (Subject.isValid_iff rfl (Subject.validate_eq_ok hshort)).mpr hnone⟩

theorem not_lightsLong_settingsKeymap : ¬(settingsKeymap settings deprecatedPatterns).LightsLong :=
  Number.checkWritable_eq_ok_iff.mp (toOption_eq_some_iff.mp
    (show (Number.checkWritable (cornerKeymap.tableLights ++ cornerKeymap.declaredLights)).toOption =
      some () by decide))

end SettingsKeymap

theorem finite_cornerBoard : ∀ k ∈ cornerBoard.geometry.keys, Finite k.y := by
  have hround : ∀ k ∈ cornerBoard.geometry.keys, roundFloat k.y ≠ .tooLarge := by decide
  exact fun k hk => Classical.not_not.mp (mt roundFloat_eq_tooLarge_iff.mpr (hround k hk))

theorem overflows_zeros :
    Overflows true "Tapping Term" (String.ofList ('1' :: List.replicate 309 '0')) := by
  have hdigits : ∀ c ∈ '1' :: List.replicate 309 '0', c.isDigit = true :=
    List.forall_mem_cons.mpr ⟨rfl, fun c hc => by rw [(List.mem_replicate.mp hc).2]; rfl⟩
  have hlarge : roundFloat (Number.floatOfDecimal false
      (Text.natOfDigits ('1' :: List.replicate 309 '0')) 0 * Number.floatOfInt 1) = .tooLarge := by
    decide +kernel
  have hname : Text.lower "Tapping Term" = "tapping term" := by decide
  exact ⟨.inl hname, _, readsAs_digits (List.cons_ne_nil _ _) hdigits,
    roundFloat_eq_tooLarge_iff.mp hlarge⟩

theorem patternsRead_cornerKeymap : cornerKeymap.options.PatternsRead := by
  have hread : ∀ text ∈ cornerKeymap.options.deprecatedPatterns,
      (Header.Pattern.read text).toOption.isSome = true := by decide +kernel
  intro text htext
  obtain ⟨p, hp⟩ := Option.isSome_iff_exists.mp (hread text htext)
  exact ⟨p, toOption_eq_some_iff.mp hp⟩

end Compilation

end Keyforge.Firmware
