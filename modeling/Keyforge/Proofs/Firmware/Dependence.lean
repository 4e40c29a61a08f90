import Keyforge.Firmware.Sources
import Keyforge.Proofs.Firmware.Keymap

/-!
# What sources depend on

Sources are put together from parts, each of which depends on a part of the layout. On a board
without lights nothing that has to do with colors counts, which `Layout.unlit` blanks. The parts are
compared one by one for `Companions` (`sources_congr`), so blanking changes no source
(`generate_unlit`), and layouts with the same rest have the same sources.
-/

namespace Keyforge

section Replaced

variable {α : Type u} {α' : Type v} {β : Type w} {ε : Type x} {items : List α}

theorem mapM_map_congr {f : α → Except ε β} {f' : α' → Except ε β} {g : α → α'}
    (h : ∀ a ∈ items, f' (g a) = f a) : (items.map g).mapM f' = items.mapM f := by
  induction items with
  | nil => rfl
  | cons a items ih =>
    rw [List.map_cons, List.mapM_cons, List.mapM_cons, h a List.mem_cons_self,
      ih (List.forall_mem_cons.mp h).2]

theorem flatMap_map_congr {f : α → List β} {f' : α' → List β} {g : α → α'}
    (h : ∀ a ∈ items, f' (g a) = f a) : (items.map g).flatMap f' = items.flatMap f := by
  rw [List.flatMap_map, List.flatMap_def, List.flatMap_def, List.map_congr_left h]

theorem forM_map_congr {f : α → Except ε PUnit} {f' : α' → Except ε PUnit} {g : α → α'}
    (h : ∀ a, f' (g a) = f a) : (items.map g).forM f' = items.forM f := by
  rw [← funext h]
  exact List.forM_map

end Replaced

namespace Firmware

/-! ### Parts that come out alike -/

namespace Compilation

/-- Two compilations for the same board and, but for the color of lights that have no other, with the
same options. -/
structure Companions (c c' : Compilation) : Prop where
  board : c'.board = c.board
  coordinates : c'.coordinates = c.coordinates
  baseConfig : c'.baseConfig = c.baseConfig
  options : c'.options = { c.options with fallbackColor := c'.options.fallbackColor }

variable {c c' : Compilation}

theorem layerEntry_congr (h : c.Companions c') {layer layer' : Layer}
    (hindex : layer'.index = layer.index) (hname : layer'.name = layer.name)
    (hcodes : ∀ p, c'.keycodeAt layer' p = c.keycodeAt layer p) :
    c'.layerEntry layer' = c.layerEntry layer := by
  have hmatrix : c'.matrixLayer layer' = c.matrixLayer layer := by
    unfold matrixLayer matrixRow crossing
    simp only [h.board, h.coordinates, hindex, hcodes]
  have hmacro : ∀ name, c'.macroLayer name layer' = c.macroLayer name layer := by
    intro name
    unfold macroLayer layerKeycodes
    rw [h.board, h.coordinates, hindex, funext hcodes]
  unfold layerEntry
  simp only [h.board, hmatrix, hmacro, hindex, hname]

theorem keymapLines_congr {f : Layer → Layer} (hlayers : c'.layout.layers = c.layout.layers.map f)
    (hentry : ∀ layer ∈ c.layout.layers, c'.layerEntry (f layer) = c.layerEntry layer) :
    c'.keymapLines = c.keymapLines := by
  unfold keymapLines
  rw [hlayers, mapM_map_congr hentry]

theorem tapDanceLines_congr {f : TapDance → TapDance}
    (htapDances : c'.layout.tapDances = c.layout.tapDances.map f)
    (hname : ∀ t, (f t).name = t.name)
    (hentry : ∀ t ∈ c.layout.tapDances, c'.tapDanceEntry (f t) = c.tapDanceEntry t) :
    c'.tapDanceLines = c.tapDanceLines := by
  have henumerator : ∀ t, (f t).enumerator = t.enumerator := by
    intro t
    unfold TapDance.enumerator
    rw [hname]
  have haction : tapDanceAction ∘ f = tapDanceAction := by
    funext t
    simp only [Function.comp_apply, tapDanceAction, henumerator]
  unfold tapDanceLines
  simp only [htapDances, List.isEmpty_map, List.map_map, mapM_map_congr hentry, haction]
  simp only [Function.comp_def, henumerator]

theorem configText_congr (h : c.Companions c')
    (hcount : c'.layout.layers.length = c.layout.layers.length)
    (hsettings : c'.settingsDeclarations = c.settingsDeclarations) :
    c'.configText = c.configText := by
  have hlights : c'.lightDeclarations = c.lightDeclarations := by
    unfold lightDeclarations
    rw [h.board, h.options]
  have hderived : c'.derivedDeclarations = c.derivedDeclarations := by
    unfold derivedDeclarations
    rw [hcount, hlights]
  have hdeclared : c'.declaredLights = c.declaredLights := by
    unfold declaredLights
    rw [h.board]
  unfold configText
  rw [hsettings, hderived, hdeclared, h.baseConfig, h.options]
  rfl

theorem sources_congr (h : c.Companions c') (htapDances : c'.tapDanceLines = c.tapDanceLines)
    (hkeymap : c'.keymapLines = c.keymapLines) (hlighting : c'.lightingLines = c.lightingLines)
    (hconfig : c'.configText = c.configText)
    (hunused : c'.layout.tapDances.isEmpty = c.layout.tapDances.isEmpty)
    (hname : c'.layout.metadata.keymapName? = c.layout.metadata.keymapName?) (report : Report) :
    c'.sources report = c.sources report := by
  have htable : c'.tableLights = c.tableLights := by
    unfold tableLights hasLights
    rw [h.board, h.coordinates]
  have htext : c'.keymapText = c.keymapText := by
    unfold keymapText
    rw [htapDances, hkeymap, htable, hlighting, h.options]
  have hrules : c'.rulesText = c.rulesText := by
    unfold rulesText
    rw [h.board, h.options, hunused]
  have hkeymapName : c'.keymapName = c.keymapName := by
    unfold keymapName
    rw [hname]
  unfold sources
  rw [htext, hconfig, hrules, hkeymapName, h.board, h.options]

end Compilation

end Firmware

/-! ### Layouts without colors -/

def Key.unlit (key : Key) : Key :=
  { key with light? := none, color? := none, description? := none }

def Layer.unlit (layer : Layer) : Layer :=
  { layer with
    color? := none
    colorsEnabled := true
    keys := layer.keys.map fun entry => (entry.1, entry.2.unlit) }

def Category.unlit (category : Category) : Category where
  id := category.id
  name := ""
  color := default

def Metadata.unlit (m : Metadata) : Metadata where
  name := ""
  created := ⟨⟨1, 1, 1⟩, 0, 0, 0, 0, none⟩
  modified := ⟨⟨1, 1, 1⟩, 0, 0, 0, 0, none⟩
  keymapName? := m.keymapName?

/-- The names of the settings for lights, in lower case. -/
def lightSettings : List String := ["rgb timeout", "rgb brightness"]

/-- A setting, without its value if it is for lights. -/
def unlitSetting (setting : String × String) : String × String :=
  if Text.lower setting.1 ∈ lightSettings then (setting.1, "") else setting

/-- A layout without colors, and without all that only serves as information. -/
def Layout.unlit (l : Layout) : Layout where
  metadata := l.metadata.unlit
  layers := l.layers.map Layer.unlit
  categories := l.categories.map Category.unlit
  tapDances := l.tapDances
  settings := l.settings.map unlitSetting

namespace Layout

variable (l : Layout)

theorem layerIds_unlit : l.unlit.layerIds = l.layerIds := by
  unfold layerIds
  exact List.foldl_map

theorem isSome_category?_unlit (id : String) :
    (l.unlit.category? id).isSome = (l.category? id).isSome := by
  unfold category?
  show ((l.categories.map Category.unlit).find? (·.id == id)).isSome = _
  rw [List.find?_map, Option.isSome_map]
  rfl

theorem unusedTapDances_unlit : l.unlit.unusedTapDances = l.unusedTapDances := by
  have huses : l.unlit.tapDanceUses.map (·.name) = l.tapDanceUses.map (·.name) := by
    unfold tapDanceUses
    rw [List.map_flatMap, List.map_flatMap]
    refine flatMap_map_congr fun layer _ => ?_
    unfold layerTapDanceUses
    rw [List.map_flatMap, List.map_flatMap]
    refine flatMap_map_congr fun entry _ => ?_
    rw [List.map_map, List.map_map]
    rfl
  unfold unusedTapDances
  rw [huses]
  rfl

end Layout

theorem Layer.keyAt?_unlit (layer : Layer) (p : Position) :
    layer.unlit.keyAt? p = (layer.keyAt? p).map Key.unlit :=
  Pairs.lookup_map_snd Key.unlit p layer.keys

namespace Firmware

/-! ### Checks without colors -/

namespace Subject

def unlit (s : Subject) : Subject := { s with layout := s.layout.unlit }

variable (s : Subject)

theorem layerFindings_unlit (layer : Layer) :
    s.unlit.layerFindings layer.unlit = s.layerFindings layer := by
  have hcategory : s.unlit.layerCategoryFindings layer.unlit = s.layerCategoryFindings layer := by
    unfold layerCategoryFindings
    simp only [unlit, Layout.isSome_category?_unlit, Layer.unlit]
  have hcount : s.unlit.definedCount layer.unlit = s.definedCount layer := by
    unfold definedCount
    show ((layer.keys.map fun entry => (entry.1, entry.2.unlit)).filter _).length = _
    rw [List.filter_map, List.length_map]
    rfl
  have hkeys : s.unlit.layerKeysFindings layer.unlit = s.layerKeysFindings layer := by
    unfold layerKeysFindings
    rw [hcount]
    simp only [unlit, Layer.unlit, List.isEmpty_map]
    rfl
  unfold layerFindings
  rw [hcategory, hkeys]

theorem layerReferenceFindings_unlit (context : Finding → Finding) (keycode : String) :
    s.unlit.layerReferenceFindings context keycode = s.layerReferenceFindings context keycode := by
  unfold layerReferenceFindings unknownLayers knownLayers
  simp only [unlit, Layout.layerIds_unlit]

theorem keyFindings_unlit (layer : Layer) (p : Position) (key : Key) :
    s.unlit.keyFindings layer.unlit p key.unlit = s.keyFindings layer p key := by
  have hcategory : s.unlit.keyCategoryFindings layer.unlit p key.unlit =
      s.keyCategoryFindings layer p key := by
    unfold keyCategoryFindings
    simp only [unlit, Layout.isSome_category?_unlit]
    rfl
  have htargets : s.unlit.targetFindings layer.unlit p key.unlit = s.targetFindings layer p key := by
    unfold targetFindings
    simp only [unlit, Layout.unlit, List.length_map]
    rfl
  unfold keyFindings
  rw [hcategory, htargets, layerReferenceFindings_unlit]
  rfl

theorem findings_unlit : s.unlit.findings = s.findings := by
  have hlayers : s.unlit.layout.layers = s.layout.layers.map Layer.unlit := rfl
  have htapDances : s.unlit.tapDancesFindings = s.tapDancesFindings := by
    unfold tapDancesFindings
    simp only [layerReferenceFindings_unlit]
    rw [show s.unlit.layout = s.layout.unlit from rfl, Layout.unusedTapDances_unlit]
    rfl
  have hlights : s.unlit.lightFindings = s.lightFindings := rfl
  unfold findings
  rw [htapDances, hlights, hlayers, flatMap_map_congr fun layer _ => s.layerFindings_unlit layer]
  -- the findings about keys are left
  congr 3
  refine flatMap_map_congr fun layer _ => flatMap_map_congr fun entry _ => ?_
  exact s.keyFindings_unlit layer entry.1 entry.2

/-- Checks do not look at colors. -/
theorem validate_unlit : s.unlit.validate = s.validate := by
  have hkeys : (s.unlit.layout.layers.forM fun layer => layer.keys.forM fun entry =>
      s.unlit.checkKey entry.1 entry.2) = s.layout.layers.forM fun layer =>
        layer.keys.forM fun entry => s.checkKey entry.1 entry.2 :=
    forM_map_congr fun layer => forM_map_congr fun entry => rfl
  have hnumbers : s.unlit.checkNumbers = s.checkNumbers :=
    congrArg (· >>= fun _ => Number.checkWritable s.lightNumbers) hkeys
  unfold validate
  rw [hnumbers, findings_unlit]

end Subject

/-! ### Sources without colors -/

namespace Compilation

def unlit (c : Compilation) : Compilation :=
  { c with
    layout := c.layout.unlit
    options := { c.options with fallbackColor := "" }
    fallback := default }

variable (c : Compilation)

theorem companions_unlit : c.Companions c.unlit := ⟨rfl, rfl, rfl, rfl⟩

theorem keycodeAt_unlit (layer : Layer) (p : Position) :
    c.unlit.keycodeAt layer.unlit p = c.keycodeAt layer p := by
  unfold keycodeAt
  rw [Layer.keyAt?_unlit, show c.unlit.layout.layerIds = c.layout.layerIds from
    c.layout.layerIds_unlit]
  cases layer.keyAt? p <;> rfl

theorem tapDanceEntry_unlit (t : TapDance) : c.unlit.tapDanceEntry t = c.tapDanceEntry t := by
  have haction : c.unlit.actionCode = c.actionCode := by
    funext keycode
    unfold actionCode
    rw [show c.unlit.layout.layerIds = c.layout.layerIds from c.layout.layerIds_unlit]
  unfold tapDanceEntry
  rw [haction]

theorem settingDeclaration_of_light {name : String} (h : Text.lower name ∈ lightSettings)
    (value : String) : settingDeclaration false name value = .ok none := by
  unfold lightSettings at h
  simp only [List.mem_cons, List.not_mem_nil, or_false] at h
  unfold settingDeclaration
  rcases h with h | h <;> rw [h] <;> rfl

theorem settingsFrom_unlit (settings found : List (String × String)) :
    settingsFrom false (settings.map unlitSetting) found = settingsFrom false settings found := by
  induction settings generalizing found with
  | nil => rfl
  | cons setting settings ih =>
    obtain ⟨name, value⟩ := setting
    rw [List.map_cons]
    -- a setting for lights declares nothing and is never warned of, so its value is not looked at
    by_cases hlight : Text.lower name ∈ lightSettings
    · rw [unlitSetting, if_pos hlight]
      simp only [settingsFrom, settingDeclaration_of_light hlight, ih]
    · rw [unlitSetting, if_neg hlight]
      simp only [settingsFrom, ih]

theorem generate_unlit (hdark : c.board.geometry.hasLighting = false) :
    c.unlit.generate = c.generate := by
  have hlighting : c.unlit.lightingLines = c.lightingLines := by
    have hnone : ∀ d : Compilation, d.board = c.board → d.lightingLines = [] := by
      intro d hboard
      unfold lightingLines hasLights
      rw [hboard, hdark]
      rfl
    rw [hnone c rfl, hnone c.unlit rfl]
  have hsettings : c.unlit.settingsDeclarations = c.settingsDeclarations := by
    unfold settingsDeclarations
    show settingsFrom c.board.geometry.hasLighting (c.layout.settings.map unlitSetting) [] = _
    rw [hdark, settingsFrom_unlit]
  have hsources : ∀ report, c.unlit.sources report = c.sources report :=
    sources_congr c.companions_unlit
      (tapDanceLines_congr (List.map_id _).symm (fun _ => rfl) fun t _ => c.tapDanceEntry_unlit t)
      (keymapLines_congr rfl fun layer _ =>
        layerEntry_congr c.companions_unlit rfl rfl (c.keycodeAt_unlit layer))
      hlighting (configText_congr c.companions_unlit (List.length_map _) hsettings) rfl rfl
  unfold generate
  rw [show c.unlit.toSubject = c.toSubject.unlit from rfl, Subject.validate_unlit]
  simp only [hsources]

variable {c}

theorem generate_congr_of_unlit {c' : Compilation} (hdark : c.board.geometry.hasLighting = false)
    (h : c.unlit = c'.unlit) : c.generate = c'.generate := by
  have hboard : c.unlit.board = c'.unlit.board := by rw [h]
  have hdark' : c'.board.geometry.hasLighting = false := by
    rw [show c'.board = c.board from hboard.symm]
    exact hdark
  rw [← generate_unlit c hdark, h, generate_unlit c' hdark']

section Dark

variable {board : Board} {l l' : Layout} (options : Options) (table? : Option Keycode.Table)
  (baseConfig? : Option String)

theorem map_generate_make_congr (hdark : board.geometry.hasLighting = false)
    (h : l.unlit = l'.unlit) {text : String} {color color' : Color}
    (hcolor : Color.ofHex options.fallbackColor = .ok color)
    (hcolor' : Color.ofHex text = .ok color') :
    (make l board options table? baseConfig?).map generate =
      (make l' board { options with fallbackColor := text } table? baseConfig?).map generate := by
  unfold make
  dsimp only
  rw [hcolor, hcolor']
  refine congrArg Except.ok (generate_congr_of_unlit hdark ?_)
  unfold unlit
  dsimp only
  rw [h]

/-- Layouts that differ in nothing but colors and information are not told apart on a board without
lights, and neither are two valid fallback colors. -/
theorem generate_eq_of_unlit_eq (hdark : board.geometry.hasLighting = false)
    (h : l.unlit = l'.unlit) :
    (make l board options table? baseConfig?).map generate =
        (make l' board options table? baseConfig?).map generate ∧
      ∀ text color color', Color.ofHex options.fallbackColor = .ok color →
        Color.ofHex text = .ok color' →
        (make l board options table? baseConfig?).map generate =
          (make l' board { options with fallbackColor := text } table? baseConfig?).map generate := by
  constructor
  · cases hcolor : Color.ofHex options.fallbackColor with
    | error e =>
      unfold make
      rw [hcolor]
      rfl
    | ok color => exact map_generate_make_congr options table? baseConfig? hdark h hcolor hcolor
  · intro text color color' hcolor hcolor'
    exact map_generate_make_congr options table? baseConfig? hdark h hcolor hcolor'

end Dark

def darkBoard : Board :=
  { cornerBoard with geometry := { cornerBoard.geometry with hasLighting := false } }

/-- A layout with other colors, descriptions and settings for lights than `cornerLayout`. -/
def paintedLayout : Layout where
  metadata := { cornerLayout.metadata with name := "Painted", author := "Ada", tags := ["bright"] }
  layers := [
    { index := 0, name := "Base", color? := some default, colorsEnabled := false,
      keys := [(⟨0, 1⟩, {
        keycode := "LT(@nav, TD( caps ))", position := ⟨0, 1⟩, category? := some "moves",
        color? := some .white, light? := some 7, description? := some "thumb" })] },
    { index := 1, name := "Nav", id? := some "nav" }]
  categories := [{ id := "moves", name := "Motion", color := .white, description? := some "arrows" }]
  tapDances := cornerLayout.tapDances
  settings := [("RGB Timeout", "no number"), ("Permissive Hold", "yes")]

theorem generate_eq_of_unlit_eq_paintedLayout :
    paintedLayout.unlit = Layout.unlit { cornerLayout with
        settings := [("RGB Timeout", "60 s"), ("Permissive Hold", "yes")] } ∧
      (make paintedLayout darkBoard).map generate =
        (make { cornerLayout with settings := [("RGB Timeout", "60 s"), ("Permissive Hold", "yes")] }
          darkBoard { fallbackColor := "#000000" }).map generate := by
  have hunlit : paintedLayout.unlit = Layout.unlit { cornerLayout with
      settings := [("RGB Timeout", "60 s"), ("Permissive Hold", "yes")] } := by
    decide +kernel
  have hwhite : Color.ofHex "#FFFFFF" = .ok .white := toOption_eq_some_iff.mp (by decide +kernel)
  have hblack : Color.ofHex "#000000" = .ok default := toOption_eq_some_iff.mp (by decide +kernel)
  exact ⟨hunlit, (generate_eq_of_unlit_eq {} none none rfl hunlit).2 "#000000" _ _ hwhite hblack⟩

end Compilation

end Firmware

end Keyforge
