import Keyforge.Proofs.Firmware.Dependence
import Keyforge.Proofs.Firmware.Sources

/-!
# Renaming layers

Layer ids are bound names: they stand for the numbers of layers and leave no trace in the sources.
A renamed id is listed with the old number (`lookup_layerIds_renameLayers`), so renamed keycodes are
resolved as before (`resolveLayers_renameLayers`), and all parts of the sources are the same
(`sources_renameLayers`).
-/

namespace Keyforge

/-! ### Renamed layouts -/

section

variable (ρ : String → String)

def Key.renameLayers (key : Key) : Key :=
  { key with keycode := Keycode.renameLayers ρ key.keycode }

def Layer.renameLayers (layer : Layer) : Layer :=
  { layer with
    id? := layer.id?.map ρ
    keys := layer.keys.map fun entry => (entry.1, entry.2.renameLayers ρ) }

def TapDance.renameLayers (t : TapDance) : TapDance :=
  { t with
    single := Keycode.renameLayers ρ t.single
    double? := t.double?.map (Keycode.renameLayers ρ)
    hold? := t.hold?.map (Keycode.renameLayers ρ) }

def Layout.renameLayers (l : Layout) : Layout :=
  { l with
    layers := l.layers.map (Layer.renameLayers ρ)
    tapDances := l.tapDances.map (TapDance.renameLayers ρ) }

end

theorem Layer.keyAt?_renameLayers (ρ : String → String) (layer : Layer) (p : Position) :
    (layer.renameLayers ρ).keyAt? p = (layer.keyAt? p).map (Key.renameLayers ρ) :=
  Pairs.lookup_map_snd (Key.renameLayers ρ) p layer.keys

namespace Layout

variable {ρ : String → String} {l : Layout}

/-- The layers of a layout have other ids that are as good: distinct and well-formed. -/
structure Renames (ρ : String → String) (l : Layout) : Prop where
  injective : ∀ id ∈ l.layers.filterMap (·.id?), ∀ other ∈ l.layers.filterMap (·.id?),
    ρ id = ρ other → id = other
  isLayerId : ∀ id ∈ l.layers.filterMap (·.id?), Name.isLayerId (ρ id).toList = true

theorem isNameChar_of_isLayerId {cs : List Char} (h : Name.isLayerId cs = true) :
    ∀ c ∈ cs, Keycode.isNameChar c = true := by
  intro c hc
  have hkind : c.isAlphanum = true ∨ c = '-' := by
    rcases Name.of_startsAndGoesOn h hc with h | h
    · exact .inl h
    · simpa using h
  rcases hkind with hkind | rfl
  · exact Keycode.isNameChar_of_isIdentifierChar (by simp [Keycode.isIdentifierChar, hkind])
  · decide

theorem lookup_foldl_renameLayers {step : List (String × Int) → Layer → List (String × Int)}
    {id other : String} {layers : List Layer} {ids ids' : List (String × Int)}
    (hstep : ∀ layer ∈ layers, ∀ ids ids' : List (String × Int), ids'.lookup other = ids.lookup id →
      (step ids' (layer.renameLayers ρ)).lookup other = (step ids layer).lookup id)
    (h : ids'.lookup other = ids.lookup id) :
    ((layers.map (Layer.renameLayers ρ)).foldl step ids').lookup other =
      (layers.foldl step ids).lookup id := by
  induction layers generalizing ids ids' with
  | nil => exact h
  | cons layer layers ih =>
    rw [List.map_cons, List.foldl_cons, List.foldl_cons]
    exact ih (List.forall_mem_cons.mp hstep).2
      (hstep layer List.mem_cons_self ids ids' h)

theorem lookup_layerIds_renameLayers (h : l.Renames ρ) {id : String}
    (hid : id ∈ l.layers.filterMap (·.id?)) :
    (l.renameLayers ρ).layerIds.lookup (ρ id) = l.layerIds.lookup id := by
  unfold layerIds
  refine lookup_foldl_renameLayers (fun layer hlayer ids ids' hids => ?_) rfl
  cases hown : layer.id? with
  | none =>
    simp only [Layer.renameLayers, hown, Option.map_none]
    exact hids
  | some own =>
    have hmem : own ∈ l.layers.filterMap (·.id?) := List.mem_filterMap.mpr ⟨layer, hlayer, hown⟩
    simp only [Layer.renameLayers, hown, Option.map_some, Pairs.lookup_put, hids, beq_iff_eq]
    -- the new ids are distinct, so what is listed is found under them exactly if it was before
    by_cases hsame : id = own
    · rw [if_pos hsame, if_pos (by rw [hsame])]
    · rw [if_neg hsame, if_neg fun heq => hsame (h.injective id hid own hmem heq)]

/-- Known ids are replaced by the same numbers as before. -/
theorem resolveLayers_renameLayers (h : l.Renames ρ) {keycode : String}
    (hknown : l.LayersKnown keycode) :
    Keycode.resolveLayers (l.renameLayers ρ).layerIds (Keycode.renameLayers ρ keycode) =
      Keycode.resolveLayers l.layerIds keycode := by
  refine Keycode.resolveLayers_renameLayers (fun id hid => ?_) fun id hid => ?_
  · exact isNameChar_of_isLayerId (h.isLayerId id (has_layerIds_iff.mp (hknown id hid)))
  · obtain ⟨n, hn⟩ := Pairs.exists_lookup_of_has (hknown id hid)
    refine ⟨n, hn, ?_⟩
    rw [lookup_layerIds_renameLayers h (has_layerIds_iff.mp (hknown id hid)), hn]

/-! ### Colors -/

variable (ρ l)

theorem layerColor_renameLayers (layer : Layer) (fallback : Color) :
    (l.renameLayers ρ).layerColor (layer.renameLayers ρ) fallback = l.layerColor layer fallback := rfl

theorem colorAt_renameLayers (index : Int) (p : Position) (fallback : Color) :
    (l.renameLayers ρ).colorAt index p fallback = l.colorAt index p fallback := by
  have hcolor : ∀ layer : Layer,
      (l.renameLayers ρ).colorIn (layer.renameLayers ρ) p fallback = l.colorIn layer p fallback := by
    intro layer
    unfold colorIn
    rw [Layer.keyAt?_renameLayers, layerColor_renameLayers]
    cases layer.keyAt? p <;> rfl
  have hlayer : (l.renameLayers ρ).layerAt? index =
      (l.layerAt? index).map (Layer.renameLayers ρ) := by
    unfold layerAt?
    split
    · rfl
    · exact List.getElem?_map
  unfold colorAt
  rw [hlayer]
  cases l.layerAt? index with
  | none => rfl
  | some layer => exact hcolor layer

theorem lightTable_renameLayers (c : Coordinates) (fallback : Color) :
    (l.renameLayers ρ).lightTable c fallback = l.lightTable c fallback := by
  have hlight : ∀ layer, (l.renameLayers ρ).lightColor c (layer.renameLayers ρ) fallback =
      l.lightColor c layer fallback := by
    intro layer
    funext light
    unfold lightColor
    simp only [Layer.keyAt?_renameLayers, Option.isSome_map, colorAt_renameLayers,
      layerColor_renameLayers]
    rfl
  unfold lightTable lightColors
  show Pairs.ofList ((l.layers.map (Layer.renameLayers ρ)).map _) = _
  rw [List.map_map]
  simp only [Function.comp_def, hlight]
  rfl

end Layout

namespace Firmware.Compilation

/-! ### Sources -/

def renameLayers (ρ : String → String) (c : Compilation) : Compilation :=
  { c with layout := c.layout.renameLayers ρ }

variable {ρ : String → String} {c : Compilation}

theorem companions_renameLayers : c.Companions (c.renameLayers ρ) := ⟨rfl, rfl, rfl, rfl⟩

theorem keycodeAt_renameLayers (h : c.layout.Renames ρ) {layer : Layer}
    (hknown : ∀ entry ∈ layer.keys, c.layout.LayersKnown entry.2.keycode) (p : Position) :
    (c.renameLayers ρ).keycodeAt (layer.renameLayers ρ) p = c.keycodeAt layer p := by
  unfold keycodeAt
  rw [Layer.keyAt?_renameLayers]
  cases hkey : layer.keyAt? p with
  | none => rfl
  | some key =>
    have hresolve := Layout.resolveLayers_renameLayers h
      (hknown (p, key) (Pairs.mem_of_lookup hkey))
    simp only [Option.map_some, Keycode.emit]
    rw [show (c.renameLayers ρ).layout = c.layout.renameLayers ρ from rfl,
      show (key.renameLayers ρ).keycode = Keycode.renameLayers ρ key.keycode from rfl, hresolve]

theorem actionCode_renameLayers (h : c.layout.Renames ρ) {keycode : String}
    (hknown : c.layout.LayersKnown keycode) :
    (c.renameLayers ρ).actionCode (Keycode.renameLayers ρ keycode) = c.actionCode keycode := by
  unfold actionCode
  rw [show (c.renameLayers ρ).layout = c.layout.renameLayers ρ from rfl,
    Layout.resolveLayers_renameLayers h hknown]

theorem optionalCode_renameLayers (ρ : String → String) (keycode? : Option String) :
    optionalCode (keycode?.map (Keycode.renameLayers ρ)) =
      Keycode.renameLayers ρ (optionalCode keycode?) := by
  have hnone : "KC_NO" = Keycode.renameLayers ρ "KC_NO" :=
    (Keycode.renameLayers_of_at_notMem (by decide)).symm
  cases keycode? with
  | none => exact hnone
  | some keycode =>
    -- an empty keycode counts as left out, and only an empty one becomes empty
    by_cases hempty : keycode = ""
    · rw [hempty, Option.map_some, Keycode.renameLayers_of_at_notMem (by decide)]
      exact hnone
    · have hkept : ∀ {code : String}, code ≠ "" → optionalCode (some code) = code := by
        intro code hcode
        unfold optionalCode
        split
        next heq => cases heq
        next heq =>
          cases heq
          exact absurd rfl hcode
        next heq =>
          cases heq
          rfl
      rw [Option.map_some, hkept (Keycode.renameLayers_ne_empty hempty), hkept hempty]

theorem tapDanceEntry_renameLayers (h : c.layout.Renames ρ) {t : TapDance}
    (hknown : ∀ keycode ∈ t.keycodes, c.layout.LayersKnown keycode) :
    (c.renameLayers ρ).tapDanceEntry (t.renameLayers ρ) = c.tapDanceEntry t := by
  obtain ⟨hsingle, hothers⟩ := List.forall_mem_cons.mp hknown
  obtain ⟨hdouble, hhold⟩ := List.forall_mem_append.mp hothers
  have hcodes : ∀ code ∈ [t.single, optionalCode t.double?, optionalCode t.hold?],
      (c.renameLayers ρ).actionCode (Keycode.renameLayers ρ code) = c.actionCode code := by
    simp only [List.forall_mem_cons]
    exact ⟨actionCode_renameLayers h hsingle,
      actionCode_renameLayers h (layersKnown_optionalCode hdouble),
      actionCode_renameLayers h (layersKnown_optionalCode hhold), List.forall_mem_nil _⟩
  have hrenamed : [(t.renameLayers ρ).single, optionalCode (t.renameLayers ρ).double?,
      optionalCode (t.renameLayers ρ).hold?] =
        [t.single, optionalCode t.double?, optionalCode t.hold?].map (Keycode.renameLayers ρ) := by
    simp only [TapDance.renameLayers, optionalCode_renameLayers, List.map_cons, List.map_nil]
  unfold tapDanceEntry
  rw [hrenamed, mapM_map_congr hcodes]
  rfl

theorem sources_renameLayers (h : c.layout.Renames ρ) (hlinked : c.toSubject.Linked)
    (report : Report) : (c.renameLayers ρ).sources report = c.sources report := by
  have hcount : (c.layout.renameLayers ρ).layers.length = c.layout.layers.length := List.length_map _
  have hrows : ∀ table, (c.layout.renameLayers ρ).layers.map (colorRow table) =
      c.layout.layers.map (colorRow table) := by
    intro table
    show (c.layout.layers.map (Layer.renameLayers ρ)).map (colorRow table) = _
    rw [List.map_map]
    rfl
  have hlighting : (c.renameLayers ρ).lightingLines = c.lightingLines := by
    unfold lightingLines
    simp only [renameLayers, hrows, hcount, Layout.lightTable_renameLayers]
    rfl
  refine sources_congr companions_renameLayers ?_ ?_ hlighting
    (configText_congr companions_renameLayers hcount rfl) List.isEmpty_map rfl report
  · exact tapDanceLines_congr rfl (fun _ => rfl) fun t ht =>
      tapDanceEntry_renameLayers h (hlinked.actionLayers t ht)
  · exact keymapLines_congr rfl fun layer hlayer =>
      layerEntry_congr companions_renameLayers rfl rfl
        (keycodeAt_renameLayers h (hlinked.keyLayers layer hlayer))

theorem map_files_sources (c : Compilation) (report report' : Report) :
    (c.sources report').2.map (·.files) = (c.sources report).2.map (·.files) := by
  unfold sources
  cases c.keymapText with
  | error e => rfl
  | ok keymap =>
    dsimp only
    rcases c.configText with ⟨log, - | config⟩ <;> rfl

end Firmware.Compilation

end Keyforge
