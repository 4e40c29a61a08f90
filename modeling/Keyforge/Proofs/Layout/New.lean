import Keyforge.Proofs.Board.Coordinates
import Keyforge.Proofs.Document.RoundTrip
import Keyforge.Proofs.Firmware.Validation

/-!
# New layouts

A layout that was made for a board is read back from its document, up to the lights, which documents
do not mention (`write_unbound`) and which binding puts back (`bindLights_unbound`); and it fits its
board, as all its keys are on it and refer to nothing (`errors_starting`).
-/

namespace Keyforge

open Document Keyforge.Text

/-! ### Without lights -/

def Key.unbound (key : Key) : Key := { key with light? := none }

def Layer.unbound (layer : Layer) : Layer :=
  { layer with keys := layer.keys.map fun entry => (entry.1, entry.2.unbound) }

namespace Layout

def unbound (l : Layout) : Layout := { l with layers := l.layers.map Layer.unbound }

theorem keyAt?_unbound (layer : Layer) (p : Position) :
    layer.unbound.keyAt? p = (layer.keyAt? p).map Key.unbound :=
  Pairs.lookup_map_snd Key.unbound p layer.keys

theorem layerLines_unbound (layer : Layer) : layerLines layer.unbound = layerLines layer := by
  have hcell : ∀ p, cellText layer.unbound p = cellText layer p := by
    intro p
    rw [cellText, cellText, keyAt?_unbound]
    cases layer.keyAt? p <;> rfl
  have hrows : layer.unbound.keys.map (·.1.row) = layer.keys.map (·.1.row) := by
    simp [Layer.unbound]
  have hcols : layer.unbound.keys.map (·.1.col) = layer.keys.map (·.1.col) := by
    simp [Layer.unbound]
  have htable : tableLines layer.unbound = tableLines layer := by
    simp only [tableLines, hrows, hcols, hcell]
  have hempty : layer.unbound.keys.isEmpty = layer.keys.isEmpty := by
    simp [Layer.unbound]
  rw [layerLines, layerLines, htable, hempty]
  rfl

theorem write_unbound (l : Layout) : write l.unbound = write l := by
  have hlayers : l.unbound.layers.flatMap layerLines = l.layers.flatMap layerLines := by
    simp [unbound, List.flatMap_map, layerLines_unbound]
  have hdescriptions : descriptionLines l.unbound = descriptionLines l := by
    simp only [descriptionLines, unbound, Layer.unbound, List.flatMap_map, List.filterMap_map]
    rfl
  have hsections : sections l.unbound = sections l := by
    rw [sections, sections, hdescriptions]
    rfl
  rw [write, write, lines, lines, hlayers,
    sectionsWithRule, sectionsWithRule, hsections]
  rfl

/-- Lights that are those of the board come back when lights are bound. -/
theorem bindLights_unbound {l : Layout} {c : Coordinates}
    (h : ∀ layer ∈ l.layers, ∀ entry ∈ layer.keys, c.lightOf? entry.2.position = entry.2.light?) :
    l.unbound.bindLights c = l := by
  have hlayer : ∀ layer ∈ l.layers, bindLayer c layer.unbound = layer := by
    intro layer hlayer
    have hkeys : (bindLayer c layer.unbound).keys = layer.keys := by
      simp only [bindLayer, Layer.unbound, List.map_map]
      refine (List.map_congr_left fun entry hentry => ?_).trans (List.map_id _)
      show (entry.1, { entry.2.unbound with light? := c.lightOf? entry.2.position }) = entry
      rw [h layer hlayer entry hentry]
      rfl
    calc bindLayer c layer.unbound = { layer with keys := (bindLayer c layer.unbound).keys } := rfl
      _ = layer := by rw [hkeys]
  have hlayers : (l.unbound.bindLights c).layers = l.layers := by
    simp only [unbound, bindLights, List.map_map]
    exact (List.map_congr_left hlayer).trans (List.map_id _)
  calc l.unbound.bindLights c = { l with layers := (l.unbound.bindLights c).layers } := rfl
    _ = l := by rw [hlayers]

/-! ### The layout for a board -/

variable {g : Geometry} {keycode : String} {m : Metadata}

def startingKey (keycode : String) (shape : KeyShape) : Position × Key :=
  (shape.position, { keycode, position := shape.position, light? := shape.light? })

def startingLayer (g : Geometry) (keycode : String) : Layer :=
  { index := 0, name := "Base", keys := Layer.arrange (g.keys.map (startingKey keycode)) }

def starting (g : Geometry) (keycode : String) (m : Metadata) : Layout :=
  { metadata := m, layers := [startingLayer g keycode] }

theorem mem_startingLayer {entry : Position × Key} (h : entry ∈ (startingLayer g keycode).keys) :
    ∃ shape ∈ g.keys, ∃ slot, entry = (shape.position,
      { keycode, position := shape.position, light? := shape.light?, slot }) := by
  obtain ⟨original, horiginal, slot, rfl⟩ := Layer.mem_arrange h
  obtain ⟨shape, hshape, rfl⟩ := List.mem_map.mp horiginal
  exact ⟨shape, hshape, slot, rfl⟩

theorem map_fst_startingKey (g : Geometry) (keycode : String) :
    (g.keys.map (startingKey keycode)).map Prod.fst = g.positions := by
  rw [List.map_map]
  rfl

theorem newKey_eq_ok (h : Phrase keycode.toList) (shape : KeyShape) :
    newKey (.text keycode) shape = .ok (startingKey keycode shape) := by
  have hkeycode : Key.checkKeycode keycode = .ok keycode := nonBlank_eq_ok h
  have hrequired : Datum.required [(.text "keycode", .text keycode)] "keycode"
      (.checked .text Key.checkKeycode) = .ok keycode := by
    rw [Datum.required, Datum.Verdict.within_eq_ok_iff, Datum.entry?, if_pos (beq_self_eq_true _)]
    exact Datum.Verdict.andThen_eq_ok_iff.mpr ⟨keycode, rfl, hkeycode⟩
  have hkey : Key.ofEntries shape.position [(.text "keycode", .text keycode)] =
      .ok { keycode, position := shape.position } := by
    rw [Key.ofEntries, Key.ofFields, hrequired]
    rfl
  rw [newKey, hkey]
  rfl

theorem phrase_base : Phrase "Base".toList := by
  refine ⟨by decide, ⟨fun c hc => ?_, fun c hc => ?_⟩, by decide⟩ <;> cases hc <;> decide

theorem make_startingLayer (g : Geometry) (keycode : String) :
    Layer.make { index := 0, name := "Base", keys := g.keys.map (startingKey keycode) } =
      .ok (startingLayer g keycode) := by
  have hname : Layer.checkName "Base" = .ok "Base" := nonBlank_eq_ok phrase_base
  rw [Layer.make, hname]
  show Layer.checkKeys { index := 0, name := "Base", keys := g.keys.map (startingKey keycode) } = _
  rw [Layer.checkKeys, List.find?_eq_none.mpr]
  · rfl
  · intro entry hentry
    obtain ⟨shape, -, rfl⟩ := List.mem_map.mp hentry
    simp [startingKey]

theorem fits_of_plain {layer : Layer} (hindex : layer.index = 0) (hid : layer.id? = none)
    (hcategory : layer.category? = none) (hkeys : ∀ entry ∈ layer.keys, entry.2.category? = none) :
    Fits { metadata := m, layers := [layer] } where
  layers_ne := List.cons_ne_nil _ _
  numbered := by
    intro i other hother
    cases i with
    | zero =>
      cases hother
      exact hindex
    | succ i => cases hother
  categories := List.nodup_nil
  ids := by simp [hid]
  tapDances := List.nodup_nil
  uses := by
    rw [categoryUses, List.flatMap_singleton, layerCategoryUses, hcategory,
      List.filterMap_eq_nil_iff.mpr]
    · exact List.forall_mem_nil _
    · intro entry hentry
      simp [hkeys entry hentry]

theorem ofGeometry_eq_ok {now : Time.Stamp} {entries : List (Datum × Datum)}
    (hkeycode : Phrase keycode.toList) (hm : Metadata.ofEntries now entries = .ok m) :
    ofGeometry now g (.text keycode) entries = .ok (starting g keycode m) := by
  have hkeys : g.keys.mapM (newKey (.text keycode)) = .ok (g.keys.map (startingKey keycode)) :=
    mapM_eq_ok_map fun shape _ => newKey_eq_ok hkeycode shape
  have hfits : (starting g keycode m).Fits := by
    refine fits_of_plain rfl rfl rfl fun entry hentry => ?_
    obtain ⟨shape, -, slot, rfl⟩ := mem_startingLayer hentry
    rfl
  refine bind_eq_ok_iff.mpr ⟨_, hkeys, bind_eq_ok_iff.mpr ⟨m, by rw [hm]; rfl,
    bind_eq_ok_iff.mpr ⟨startingLayer g keycode, by rw [make_startingLayer]; rfl, ?_⟩⟩⟩
  have hcheck : Layout.check (starting g keycode m) = .ok (starting g keycode m) :=
    check_eq_ok_iff.mpr hfits
  exact congrArg Part.layout.accept hcheck

/-! ### Its document -/

theorem numberFrom_numberFrom (n : Nat) (keys : List (Position × Key)) :
    Layer.numberFrom n (Layer.numberFrom n keys) = Layer.numberFrom n keys := by
  induction keys generalizing n with
  | nil => rfl
  | cons entry keys ih => rw [Layer.numberFrom_cons, Layer.numberFrom_cons, ih]

theorem inOrder_startingLayer (hg : g.Valid) (keycode : String) :
    Layer.InOrder (startingLayer g keycode).keys := by
  refine Layer.inOrder_arrange ⟨fun entry hentry => ?_, ?_⟩
  · obtain ⟨shape, -, rfl⟩ := List.mem_map.mp hentry
    rfl
  · rw [map_fst_startingKey]
    exact hg.positions_nodup

theorem mem_unbound_startingLayer {p : Position} {key : Key}
    (h : (p, key) ∈ (startingLayer g keycode).unbound.keys) :
    ∃ shape ∈ g.keys, p = shape.position ∧
      ∃ slot, key = { keycode, position := shape.position, slot } := by
  obtain ⟨entry, hentry, heq⟩ := List.mem_map.mp h
  obtain ⟨shape, hshape, slot, rfl⟩ := mem_startingLayer hentry
  cases heq
  exact ⟨shape, hshape, rfl, slot, rfl⟩

section Written

variable (hg : g.Valid) (hbar : '|' ∉ keycode.toList) (hone : OneLine keycode.toList)
  (hcell : Cell.read keycode.toList = .ok { keycode })

include hg hbar hone hcell

theorem tabular_startingLayer :
    Tabular (startingLayer g keycode).unbound.keys where
  sorted := List.pairwise_map.mpr (inOrder_startingLayer hg keycode).increasing
  placed := by
    intro p key hmem
    obtain ⟨shape, hshape, rfl, slot, rfl⟩ := mem_unbound_startingLayer hmem
    have hmatrix := hg.positions_inMatrix shape.position (List.mem_map_of_mem hshape)
    simp only [Geometry.inMatrix, Bool.and_eq_true, decide_eq_true_eq] at hmatrix
    exact ⟨rfl, hmatrix.1.1.1, hmatrix.1.2⟩
  legible := by
    intro p key hmem
    obtain ⟨shape, -, rfl, slot, rfl⟩ := mem_unbound_startingLayer hmem
    exact ⟨(Cell.wellFormed_of_read hcell).1, hbar, hone, rfl⟩

theorem legible_unbound_starting :
    (starting g keycode m).unbound.Legible where
  layers := by
    intro layer hlayer
    obtain rfl := List.mem_singleton.mp hlayer
    have hzero : Number.Short 0 := Nat.le_of_ble_eq_true rfl
    refine ⟨⟨le_refl _, hzero⟩, phrase_base, (fun _ h => by cases h), (fun _ h => by cases h),
      tabular_startingLayer hg hbar hone hcell, ?_⟩
    have hnumbered := Layer.numberFrom_map (f := fun _ key => key.unbound) (fun _ _ _ => rfl) 0
      (startingLayer g keycode).keys
    exact hnumbered.trans (by rw [startingLayer, Layer.arrange, numberFrom_numberFrom]; rfl)
  described := by
    intro layer hlayer p key hmem text htext
    obtain rfl := List.mem_singleton.mp hlayer
    obtain ⟨shape, -, rfl, slot, rfl⟩ := mem_unbound_startingLayer hmem
    cases htext
  categories := List.forall_mem_nil _
  tapDances := List.forall_mem_nil _
  settings := List.forall_mem_nil _
  settingNames := List.nodup_nil
  fits := by
    refine problem?_eq_none_iff.mpr (fits_of_plain rfl rfl rfl fun entry hentry => ?_)
    obtain ⟨shape, -, -, slot, hkey⟩ := mem_unbound_startingLayer hentry
    rw [hkey]

/-- A new layout is read back from its document once the lights of its board are bound. -/
theorem parse_write_starting {limits : Limits} {now : Time.Stamp}
    (hmetadata : SoundMetadata limits m)
    (hrule : ∀ line ∈ Frontmatter.lines m, trimRight line.toList ≠ "---".toList)
    (hload : Frontmatter.load now ((Frontmatter.lines m).map String.toList) = .ok m)
    (hname : OneLine m.name.toList) :
    (parse limits now (write (starting g keycode m))).result.map
      (·.bindLights (.ofGeometry g)) = .ok (starting g keycode m) := by
  have hparse := parse_write_of_legible (legible_unbound_starting hg hbar hone hcell) hmetadata
    hrule hload hname (List.forall_mem_nil _)
  have hbound : (starting g keycode m).unbound.bindLights (.ofGeometry g) = starting g keycode m := by
    refine bindLights_unbound fun layer hlayer entry hentry => ?_
    obtain rfl := List.mem_singleton.mp hlayer
    obtain ⟨shape, hshape, slot, rfl⟩ := mem_startingLayer hentry
    refine Option.ext fun light => ?_
    rw [Coordinates.lightOf?_eq_some_iff hg]
    constructor
    · rintro ⟨other, hother, hposition, hlight⟩
      rwa [← Coordinates.eq_of_position_eq hg hother hshape hposition]
    · exact fun hlight => ⟨shape, hshape, rfl, hlight⟩
  rw [← write_unbound, hparse]
  exact congrArg Except.ok hbound

end Written

/-! ### Its validation -/

open Firmware

theorem length_startingLayer (g : Geometry) (keycode : String) :
    (startingLayer g keycode).keys.length = g.keys.length := by
  rw [startingLayer, Layer.arrange, Layer.length_numberFrom, List.length_mergeSort, List.length_map]

section Validation

variable {s : Subject} (hlayout : s.layout = starting g keycode m)
  (hcoordinates : s.coordinates = .ofGeometry g)

include hcoordinates

theorem keyErrors_starting (hat : '@' ∉ keycode.toList)
    (htap : Keycode.tapDanceReferences keycode = []) {entry : Position × Key}
    (hentry : entry ∈ (startingLayer g keycode).keys) :
    s.keyErrors (startingLayer g keycode) entry.1 entry.2 = [] := by
  obtain ⟨shape, hshape, slot, rfl⟩ := mem_startingLayer hentry
  have hhas : s.coordinates.has shape.position = true := by
    rw [hcoordinates, Coordinates.has_ofGeometry_iff]
    exact List.mem_map_of_mem hshape
  simp [Subject.keyErrors, Subject.positionFindings, hhas, Subject.keyCategoryFindings,
    Subject.layerReferenceFindings, Subject.unknownLayers, Keycode.layerReferences_of_at_notMem hat,
    Subject.tapDanceFindings, htap]

theorem definedCount_starting :
    s.definedCount (startingLayer g keycode) = s.coordinates.keyCount := by
  have hslots := g.slots_perm_positions.length_eq
  rw [Geometry.positions, List.length_map] at hslots
  rw [Subject.definedCount, List.filter_eq_self.mpr, hcoordinates]
  · show _ = g.slots.length
    rw [hslots, length_startingLayer]
  · intro entry hentry
    obtain ⟨shape, hshape, slot, rfl⟩ := mem_startingLayer hentry
    rw [hcoordinates, Coordinates.has_ofGeometry_iff]
    exact List.mem_map_of_mem hshape

include hlayout

theorem errors_starting (hat : '@' ∉ keycode.toList)
    (htap : Keycode.tapDanceReferences keycode = []) :
    s.errors = s.lightFindings.filter Finding.isError := by
  have hkeys : (startingLayer g keycode).keys.flatMap (fun entry =>
      s.keyErrors (startingLayer g keycode) entry.1 entry.2) = [] :=
    List.flatMap_eq_nil_iff.mpr fun entry hentry => keyErrors_starting hcoordinates hat htap hentry
  rw [Subject.errors, hlayout, starting, List.flatMap_singleton, List.flatMap_singleton, hkeys]
  rfl

/-- What can be found about a new layout: the board may have no keys or lights that do not add up, and
the keycode may be unknown or give a layer by a number that is too great. -/
theorem mem_findings_starting (hat : '@' ∉ keycode.toList)
    (htap : Keycode.tapDanceReferences keycode = []) {f : Finding} (hf : f ∈ s.findings) :
    f.kind = .emptyLayer ∨ f.kind = .unknownKeycode ∨ f.kind = .lightCountMismatch ∨
      (f.kind = .unknownLayerReference ∧ g.keys ≠ [] ∧
        ∃ n ∈ Keycode.numericTargets keycode, 1 ≤ n) := by
  rw [Subject.findings, hlayout, starting, List.flatMap_singleton, List.flatMap_singleton] at hf
  rcases List.mem_append.mp hf with hf | hlight
  rcases List.mem_append.mp hf with hf | htapDance
  rcases List.mem_append.mp hf with hlayer | hkey
  · have hkeys : f ∈ s.layerKeysFindings (startingLayer g keycode) := hlayer
    unfold Subject.layerKeysFindings at hkeys
    split at hkeys
    · obtain rfl := List.mem_singleton.mp hkeys
      exact .inl rfl
    · rw [definedCount_starting hcoordinates, if_neg (by simp)] at hkeys
      cases hkeys
  · obtain ⟨entry, hentry, hfound⟩ := List.mem_flatMap.mp hkey
    have hparts : f ∈ s.keyErrors (startingLayer g keycode) entry.1 entry.2 ++
        s.targetFindings (startingLayer g keycode) entry.1 entry.2 ++
        s.keycodeFindings (startingLayer g keycode) entry.1 entry.2 := hfound
    rw [keyErrors_starting hcoordinates hat htap hentry, List.nil_append] at hparts
    rcases List.mem_append.mp hparts with htarget | hkeycode
    · obtain ⟨n, hn, rfl⟩ := List.mem_map.mp htarget
      obtain ⟨shape, hshape, slot, rfl⟩ := mem_startingLayer hentry
      obtain ⟨hn, hbeyond⟩ := List.mem_filter.mp hn
      rw [hlayout] at hbeyond
      exact .inr (.inr (.inr ⟨rfl, List.ne_nil_of_mem hshape, n, hn, of_decide_eq_true hbeyond⟩))
    · exact .inr (.inl (Subject.marks_keycodeFindings _ _ _ f hkeycode).1)
  · have hnone : s.tapDancesFindings = [] := by
      rw [Subject.tapDancesFindings, hlayout]
      rfl
    rw [hnone] at htapDance
    cases htapDance
  · exact .inr (.inr (.inl (Subject.kind_of_mem_lightFindings hlight)))

theorem not_overlong_starting (h : ¬Keycode.Overlong keycode) (hlights : ¬s.LightsOverlong) :
    ¬s.Overlong := by
  rintro (⟨layer, hlayer, entry, hentry, hlong⟩ | hlong)
  · rw [hlayout] at hlayer
    obtain rfl := List.mem_singleton.mp hlayer
    obtain ⟨shape, hshape, slot, rfl⟩ := mem_startingLayer hentry
    rcases hlong with ⟨hstray, -⟩ | hlong
    · rw [hcoordinates, ← Bool.not_eq_true, Coordinates.has_ofGeometry_iff] at hstray
      exact hstray (List.mem_map_of_mem hshape)
    · exact h hlong
  · exact hlights hlong

omit hcoordinates in
theorem exists_finding_of_target (hkeys : g.keys ≠ []) {n : Nat}
    (hn : n ∈ Keycode.numericTargets keycode) (hbeyond : 1 ≤ n) :
    ∃ f ∈ s.findings, f.kind = .unknownLayerReference ∧ f.isError = false := by
  have hne : (startingLayer g keycode).keys ≠ [] := by
    intro hnil
    have hlength := length_startingLayer g keycode
    rw [hnil] at hlength
    exact hkeys (List.length_eq_zero_iff.mp hlength.symm)
  obtain ⟨entry, hentry⟩ := List.exists_mem_of_ne_nil _ hne
  have htarget : Subject.keyFinding (startingLayer g keycode) entry.1 entry.2
      .unknownLayerReference .warning ("keycode " ++ entry.2.keycode ++ " targets layer " ++
        natText n ++ " but the layout has " ++ natText s.layout.layers.length ++ " layers") ∈
      s.targetFindings (startingLayer g keycode) entry.1 entry.2 := by
    refine List.mem_map.mpr ⟨n, List.mem_filter.mpr ⟨?_, ?_⟩, rfl⟩
    · obtain ⟨shape, -, slot, rfl⟩ := mem_startingLayer hentry
      exact hn
    · rw [hlayout]
      exact decide_eq_true hbeyond
  have hfindings : ∀ f ∈ s.targetFindings (startingLayer g keycode) entry.1 entry.2,
      f ∈ s.findings := by
    intro f hf
    rw [Subject.findings, hlayout, starting, List.flatMap_singleton, List.flatMap_singleton]
    refine List.mem_append_left _ (List.mem_append_left _ (List.mem_append_right _ ?_))
    exact List.mem_flatMap.mpr ⟨entry, hentry, List.mem_append_left _ (List.mem_append_right _ hf)⟩
  exact ⟨_, hfindings _ htarget, rfl, rfl⟩

end Validation

/-- **A new layout survives being saved, and fits its board.** Its document is read back to the same
layout, and validation finds nothing but what is about the lights of the board and about the keycode
itself. -/
theorem ofGeometry_survives {now now' : Time.Stamp} {entries : List (Datum × Datum)}
    {limits : Document.Limits} (hg : g.check = .ok g)
    (hm : Metadata.ofEntries now entries = .ok m) (hadmits : limits.Admits m)
    (hrule : ∀ line ∈ Document.Frontmatter.lines m, trimRight line.toList ≠ "---".toList)
    (hload : Document.Frontmatter.load now' ((Document.Frontmatter.lines m).map String.toList) =
      .ok m)
    (hname : OneLine m.name.toList) (hbar : '|' ∉ keycode.toList) (hone : OneLine keycode.toList)
    (hcell : Document.Cell.read keycode.toList = .ok { keycode }) :
    ∃ l, ofGeometry now g (.text keycode) entries = .ok l ∧
      (Document.parse limits now' (Document.write l)).result.map (·.bindLights (.ofGeometry g)) =
        .ok l ∧
      ∀ s : Subject, s.layout = l → s.board.geometry = g → s.coordinates = .ofGeometry g →
        '@' ∉ keycode.toList → Keycode.tapDanceReferences keycode = [] →
        ¬Keycode.Overlong keycode → ¬s.LightsOverlong →
        ∃ report, s.validate = .ok report ∧
          report.errors = s.lightFindings.filter Finding.isError ∧
          (∀ f ∈ report.errors, f.kind = .lightCountMismatch) ∧
          (∀ f ∈ report.warnings, f.kind = .emptyLayer ∨ f.kind = .unknownKeycode ∨
            f.kind = .lightCountMismatch ∨ f.kind = .unknownLayerReference) ∧
          ((∃ f ∈ report.warnings, f.kind = .unknownLayerReference) ↔
            g.keys ≠ [] ∧ ∃ n ∈ Keycode.numericTargets keycode, 1 ≤ n) := by
  have hv := (Geometry.valid_of_check hg).2
  have hwell := (Document.Cell.wellFormed_of_read hcell).1
  obtain ⟨hne, htrimmed⟩ := Document.Cell.trimmed_of_isKeycode hwell.keycode
  refine ⟨starting g keycode m, ofGeometry_eq_ok ⟨hne, htrimmed, hone⟩ hm,
    parse_write_starting hv hbar hone hcell ⟨hadmits, Document.name_of_ofEntries hm⟩ hrule hload hname,
    fun s hlayout _ hcoordinates hat htap hshort hlights => ?_⟩
  have herrors : (Report.ofFindings s.findings).errors = s.lightFindings.filter Finding.isError :=
    Subject.filter_findings.trans (errors_starting hlayout hcoordinates hat htap)
  refine ⟨_, Subject.validate_eq_ok (not_overlong_starting hlayout hcoordinates hshort hlights), herrors,
    fun f hf => ?_, fun f hf => ?_, ?_⟩
  · rw [herrors] at hf
    exact Subject.kind_of_mem_lightFindings (List.mem_of_mem_filter hf)
  · have hkind := mem_findings_starting hlayout hcoordinates hat htap (List.mem_of_mem_filter hf)
    exact hkind.imp_right (Or.imp_right (Or.imp_right And.left))
  · constructor
    · rintro ⟨f, hf, hkind⟩
      have hfound := mem_findings_starting hlayout hcoordinates hat htap (List.mem_of_mem_filter hf)
      rw [hkind] at hfound
      simpa using hfound
    · rintro ⟨hkeys, n, hn, hbeyond⟩
      obtain ⟨f, hf, hkind, hwarning⟩ := exists_finding_of_target hlayout hkeys hn hbeyond
      exact ⟨f, List.mem_filter.mpr ⟨hf, by rw [hwarning]; rfl⟩, hkind⟩

theorem ofEntries_demo :
    Metadata.ofEntries readingTime [(.text "name", .text "Demo")] =
      .ok markedLayout.metadata := by
  rfl

/-- A board with four keys and no lighting. -/
def plainBoard : Board := { keyboard := .text "plain", geometry := mirroredBoard }

theorem ofGeometry_survives_plainBoard :
    mirroredBoard.check = .ok mirroredBoard ∧
      ∃ l, ofGeometry Document.readingTime mirroredBoard (.text "LT(0, KC_A)")
          [(.text "name", .text "Demo")] = .ok l ∧
        (Document.parse {} Document.readingTime (Document.write l)).result.map
          (·.bindLights (.ofGeometry mirroredBoard)) = .ok l ∧
        ∃ report, Subject.validate ⟨l, plainBoard, .ofGeometry mirroredBoard, none⟩ = .ok report ∧
          report.errors = [] ∧ ¬∃ f ∈ report.warnings, f.kind = .unknownLayerReference := by
  have hadmits : Document.Limits.Admits {} Document.markedLayout.metadata := ⟨by decide, by decide⟩
  have hrule : ∀ line ∈ Document.Frontmatter.lines Document.markedLayout.metadata,
      trimRight line.toList ≠ "---".toList := by
    rw [Document.lines_markedLayout]
    decide
  have hload : Document.Frontmatter.load Document.readingTime
      ((Document.Frontmatter.lines Document.markedLayout.metadata).map String.toList) =
        .ok Document.markedLayout.metadata := by
    rw [Document.lines_markedLayout]
    exact Document.load_markedLayout
  have hcell : Document.Cell.read "LT(0, KC_A)".toList = .ok { keycode := "LT(0, KC_A)" } :=
    toOption_eq_some_iff.mp (by decide)
  have htargets : Keycode.numericTargets "LT(0, KC_A)" = [0] := by decide
  have hshort : ¬Keycode.Overlong "LT(0, KC_A)" :=
    Keycode.checkTargets_eq_ok_iff.mp (toOption_eq_some_iff.mp (by decide))
  obtain ⟨l, hl, hparse, hvalidate⟩ := ofGeometry_survives (g := mirroredBoard) rfl
    ofEntries_demo hadmits hrule hload (by decide) (by decide) (by decide) hcell
  obtain ⟨report, hreport, herrors, -, -, hwarnings⟩ :=
    hvalidate ⟨l, plainBoard, .ofGeometry mirroredBoard, none⟩ rfl rfl rfl (by decide)
      (Keycode.tapDanceReferences_of_notMem (by decide)) hshort fun hlights =>
        Bool.false_ne_true hlights.1
  refine ⟨rfl, l, hl, hparse, report, hreport, herrors, ?_⟩
  rw [hwarnings, htargets]
  rintro ⟨-, n, hn, hbeyond⟩
  rw [List.mem_singleton.mp hn] at hbeyond
  exact absurd hbeyond (by decide)

/-- A keycode that refers to no layer id and no tap dance can be warned about: it may give a layer by
its number. -/
theorem validate_starting_layerNumber :
    mirroredBoard.check = .ok mirroredBoard ∧ '|' ∉ "MO(5)".toList ∧ OneLine "MO(5)".toList ∧
      Document.Cell.read "MO(5)".toList = .ok { keycode := "MO(5)" } ∧ '@' ∉ "MO(5)".toList ∧
      Keycode.tapDanceReferences "MO(5)" = [] ∧
      ∃ l report, ofGeometry Document.readingTime mirroredBoard (.text "MO(5)")
          [(.text "name", .text "Demo")] = .ok l ∧
        Subject.validate ⟨l, plainBoard, .ofGeometry mirroredBoard, none⟩ = .ok report ∧
        ∃ f ∈ report.errors ++ report.warnings, f.kind = .unknownLayerReference := by
  have hcell : Document.Cell.read "MO(5)".toList = .ok { keycode := "MO(5)" } :=
    toOption_eq_some_iff.mp (by decide)
  have hwell := (Document.Cell.wellFormed_of_read hcell).1
  obtain ⟨hne, htrimmed⟩ := Document.Cell.trimmed_of_isKeycode hwell.keycode
  have hone : OneLine "MO(5)".toList := by decide
  have htargets : Keycode.numericTargets "MO(5)" = [5] := by decide
  have hshort : ¬Keycode.Overlong "MO(5)" :=
    Keycode.checkTargets_eq_ok_iff.mp (toOption_eq_some_iff.mp (by decide))
  have hlayout := ofGeometry_eq_ok (g := mirroredBoard) ⟨hne, htrimmed, hone⟩ ofEntries_demo
  let s : Subject := ⟨starting mirroredBoard "MO(5)" Document.markedLayout.metadata, plainBoard,
    .ofGeometry mirroredBoard, none⟩
  obtain ⟨f, hf, hkind, hwarning⟩ := exists_finding_of_target (s := s) rfl (List.cons_ne_nil _ _)
    (htargets ▸ List.mem_singleton_self 5) (by decide)
  refine ⟨rfl, by decide, hone, hcell, by decide,
    Keycode.tapDanceReferences_of_notMem (by decide), s.layout, _, hlayout,
    Subject.validate_eq_ok (not_overlong_starting rfl rfl hshort fun hlights =>
      Bool.false_ne_true hlights.1), f, ?_, hkind⟩
  exact List.mem_append_right _ (List.mem_filter.mpr ⟨hf, by rw [hwarning]; rfl⟩)

end Layout

end Keyforge
