import Keyforge.Firmware.Validation
import Keyforge.Proofs.Keycode.Mentions
import Keyforge.Proofs.Layout.Fits

/-!
# What a report says

Most checks find errors only or warnings only, of one kind each; `filter_findings` sorts them out.
`Linked` names what a report without errors establishes about references.
-/

namespace Keyforge.Firmware.Subject

variable {s : Subject}

/-! ### What each check finds -/

section Checks

variable (layer : Layer) (p : Position) (key : Key)

theorem marks_layerCategoryFindings :
    ∀ f ∈ s.layerCategoryFindings layer, f.kind = .danglingCategory ∧ f.isError = true := by
  unfold layerCategoryFindings
  split
  · exact List.forall_mem_nil _
  · split <;> simp [Finding.isError]

theorem marks_layerKeysFindings :
    ∀ f ∈ s.layerKeysFindings layer, f.kind ≠ .lightCountMismatch ∧ f.isError = false := by
  unfold layerKeysFindings
  split
  · simp [Finding.isError]
  · split <;> simp [Finding.isError]

theorem marks_positionFindings :
    ∀ f ∈ s.positionFindings layer p key, f.kind = .unmappedPosition ∧ f.isError = true := by
  unfold positionFindings
  split <;> simp [Finding.isError, keyFinding]

theorem marks_keyCategoryFindings :
    ∀ f ∈ s.keyCategoryFindings layer p key, f.kind = .danglingCategory ∧ f.isError = true := by
  unfold keyCategoryFindings
  split
  · exact List.forall_mem_nil _
  · split <;> simp [Finding.isError, keyFinding]

theorem marks_layerReferenceFindings (context : Finding → Finding)
    (hcontext : ∀ f, (context f).kind = f.kind ∧ (context f).isError = f.isError) (keycode : String) :
    ∀ f ∈ s.layerReferenceFindings context keycode,
      f.kind = .unknownLayerReference ∧ f.isError = true := by
  intro f hf
  obtain ⟨id, -, rfl⟩ := List.mem_map.mp hf
  exact hcontext _

theorem marks_tapDanceFindings :
    ∀ f ∈ s.tapDanceFindings layer p key, f.kind = .unknownTapDance ∧ f.isError = true := by
  intro f hf
  obtain ⟨name, -, rfl⟩ := List.mem_map.mp hf
  exact ⟨rfl, rfl⟩

theorem marks_targetFindings :
    ∀ f ∈ s.targetFindings layer p key, f.kind = .unknownLayerReference ∧ f.isError = false := by
  intro f hf
  obtain ⟨n, -, rfl⟩ := List.mem_map.mp hf
  exact ⟨rfl, rfl⟩

theorem marks_keycodeFindings :
    ∀ f ∈ s.keycodeFindings layer p key, f.kind = .unknownKeycode ∧ f.isError = false := by
  unfold keycodeFindings
  split
  · exact List.forall_mem_nil _
  · split
    · simp [Finding.isError, keyFinding]
    · split <;> simp [Finding.isError, keyFinding]

end Checks

theorem kind_of_mem_lightFindings {f : Finding} (h : f ∈ s.lightFindings) :
    f.kind = .lightCountMismatch := by
  revert f
  unfold lightFindings
  dsimp only
  split
  · exact nofun
  · split <;> simp

/-! ### Errors -/

def keyErrors (s : Subject) (layer : Layer) (p : Position) (key : Key) : List Finding :=
  s.positionFindings layer p key ++ s.keyCategoryFindings layer p key ++
    s.layerReferenceFindings (keyContext layer p) key.keycode ++ s.tapDanceFindings layer p key

def errors (s : Subject) : List Finding :=
  s.layout.layers.flatMap s.layerCategoryFindings ++
    (s.layout.layers.flatMap fun layer =>
      layer.keys.flatMap fun entry => s.keyErrors layer entry.1 entry.2) ++
    (s.layout.tapDances.flatMap fun t =>
      t.keycodes.flatMap fun keycode => s.layerReferenceFindings id keycode) ++
    s.lightFindings.filter Finding.isError

theorem filter_eq_self {findings : List Finding} {P : Finding → Prop}
    (h : ∀ f ∈ findings, P f ∧ f.isError = true) :
    findings.filter Finding.isError = findings :=
  List.filter_eq_self.mpr fun f hf => (h f hf).2

theorem filter_eq_nil {findings : List Finding} {P : Finding → Prop}
    (h : ∀ f ∈ findings, P f ∧ f.isError = false) :
    findings.filter Finding.isError = [] :=
  List.filter_eq_nil_iff.mpr fun f hf => Bool.eq_false_iff.mp (h f hf).2

theorem filter_layerFindings (layer : Layer) :
    (s.layerFindings layer).filter Finding.isError = s.layerCategoryFindings layer := by
  rw [layerFindings, List.filter_append, filter_eq_self (marks_layerCategoryFindings layer),
    filter_eq_nil (marks_layerKeysFindings layer), List.append_nil]

theorem filter_keyFindings (layer : Layer) (p : Position) (key : Key) :
    (s.keyFindings layer p key).filter Finding.isError = s.keyErrors layer p key := by
  simp only [keyFindings, List.filter_append, filter_eq_self (marks_positionFindings layer p key),
    filter_eq_self (marks_keyCategoryFindings layer p key),
    filter_eq_self (marks_layerReferenceFindings (keyContext layer p) (fun _ => ⟨rfl, rfl⟩) _),
    filter_eq_self (marks_tapDanceFindings layer p key), filter_eq_nil (marks_targetFindings layer p key),
    filter_eq_nil (marks_keycodeFindings layer p key), List.append_nil, keyErrors]

theorem filter_tapDancesFindings :
    s.tapDancesFindings.filter Finding.isError = s.layout.tapDances.flatMap fun t =>
      t.keycodes.flatMap fun keycode => s.layerReferenceFindings id keycode := by
  refine (List.filter_append _ _).trans
    ((congrArg₂ (· ++ ·) ?actions (List.filter_eq_nil_iff.mpr ?unused)).trans (List.append_nil _))
  case actions =>
    simp only [List.filter_flatMap,
      filter_eq_self (marks_layerReferenceFindings id (fun _ => ⟨rfl, rfl⟩) _)]
  case unused =>
    intro f hf
    obtain ⟨name, -, rfl⟩ := List.mem_map.mp hf
    exact Bool.false_ne_true

theorem filter_findings : s.findings.filter Finding.isError = s.errors := by
  simp only [findings, List.filter_append, List.filter_flatMap, filter_layerFindings,
    filter_keyFindings, filter_tapDancesFindings, errors]

/-! ### Kinds -/

theorem kind_ne_of_mem_layerFindings (layer : Layer) :
    ∀ f ∈ s.layerFindings layer, f.kind ≠ .lightCountMismatch := by
  refine List.forall_mem_append.mpr ⟨fun f hf => ?_, fun f hf => (marks_layerKeysFindings _ f hf).1⟩
  simp [(marks_layerCategoryFindings _ f hf).1]

theorem kind_ne_of_mem_keyFindings (layer : Layer) (p : Position) (key : Key) :
    ∀ f ∈ s.keyFindings layer p key, f.kind ≠ .lightCountMismatch := by
  intro f hf
  simp only [keyFindings, List.mem_append] at hf
  rcases hf with ((((hf | hf) | hf) | hf) | hf) | hf
  · simp [(marks_positionFindings _ _ _ f hf).1]
  · simp [(marks_keyCategoryFindings _ _ _ f hf).1]
  · simp [(marks_layerReferenceFindings (keyContext layer p) (fun _ => ⟨rfl, rfl⟩) _ f hf).1]
  · simp [(marks_tapDanceFindings _ _ _ f hf).1]
  · simp [(marks_targetFindings _ _ _ f hf).1]
  · simp [(marks_keycodeFindings _ _ _ f hf).1]

theorem mem_lightFindings_iff {f : Finding} :
    f ∈ s.lightFindings ↔ f ∈ s.findings ∧ f.kind = .lightCountMismatch := by
  refine ⟨fun h => ⟨List.mem_append_right _ h, kind_of_mem_lightFindings h⟩, ?_⟩
  rintro ⟨h, hkind⟩
  simp only [findings, tapDancesFindings, List.mem_append, List.mem_flatMap] at h
  rcases h with ((⟨layer, -, h⟩ | ⟨layer, -, entry, -, h⟩) | ⟨t, -, keycode, -, h⟩ | h) | h
  · exact absurd hkind (kind_ne_of_mem_layerFindings layer f h)
  · exact absurd hkind (kind_ne_of_mem_keyFindings layer _ _ f h)
  · simp [(marks_layerReferenceFindings id (fun _ => ⟨rfl, rfl⟩) _ f h).1] at hkind
  · obtain ⟨name, -, rfl⟩ := List.mem_map.mp h
    cases hkind
  · exact h

/-! ### Reports -/

/-- The lights do not add up, and a number of lights has too many digits to say so. -/
def LightsOverlong (s : Subject) : Prop :=
  s.board.geometry.hasLighting = true ∧
    s.board.geometry.totalLights ≠ s.board.geometry.keyedLights ∧
    ∃ n ∈ [s.board.geometry.totalLights, s.board.geometry.decorativeLights], Number.Long n

/-- A key is not on the board, and a number that the board is described by has too many digits to say
so. -/
def PlaceOverlong (s : Subject) (p : Position) : Prop :=
  s.coordinates.has p = false ∧ ∃ n ∈ s.board.keyboard.integers ++
    [s.board.geometry.rows, s.board.geometry.cols], Number.Long n

/-- Validation comes upon a number with too many digits: that of a layer function, which it reads, or
one of the board, which it writes. -/
def Overlong (s : Subject) : Prop :=
  (∃ layer ∈ s.layout.layers, ∃ entry ∈ layer.keys,
    s.PlaceOverlong entry.1 ∨ Keycode.Overlong entry.2.keycode) ∨ s.LightsOverlong

theorem checkKey_eq_ok_iff {p : Position} {key : Key} :
    s.checkKey p key = .ok () ↔ ¬(s.PlaceOverlong p ∨ Keycode.Overlong key.keycode) := by
  have hplace : (∃ n ∈ s.positionNumbers p, Number.Long n) ↔ s.PlaceOverlong p := by
    unfold positionNumbers PlaceOverlong
    cases s.coordinates.has p <;> simp
  rw [checkKey, unit_bind_eq_ok_iff, Number.checkWritable_eq_ok_iff, hplace,
    Keycode.checkTargets_eq_ok_iff, not_or]

theorem checkNumbers_eq_ok_iff : s.checkNumbers = .ok () ↔ ¬s.Overlong := by
  have hlights : (∃ n ∈ s.lightNumbers, Number.Long n) ↔ s.LightsOverlong := by
    unfold lightNumbers LightsOverlong
    by_cases hsame : s.board.geometry.totalLights = s.board.geometry.keyedLights <;>
      by_cases hlit : s.board.geometry.hasLighting = true <;> simp [hsame, hlit]
  have hkeys : (s.layout.layers.forM fun layer => layer.keys.forM fun entry =>
      s.checkKey entry.1 entry.2) = .ok () ↔ ¬∃ layer ∈ s.layout.layers, ∃ entry ∈ layer.keys,
        s.PlaceOverlong entry.1 ∨ Keycode.Overlong entry.2.keycode := by
    simp only [forM_eq_ok_iff, checkKey_eq_ok_iff, not_exists, not_and]
  rw [checkNumbers, unit_bind_eq_ok_iff, hkeys, Number.checkWritable_eq_ok_iff, hlights, Overlong,
    not_or]

/-- Where no number of the board and no layer function is too long, the lights and the places of the
keys do not matter. -/
theorem not_overlong (hkeys : ∀ layer ∈ s.layout.layers, ∀ entry ∈ layer.keys,
      (Keycode.checkTargets entry.2.keycode).toOption = some ())
    (hboard : (s.board.keyboard.integers ++ [s.board.geometry.rows, s.board.geometry.cols,
      s.board.geometry.totalLights, s.board.geometry.decorativeLights]).all Number.isWritable = true) :
    ¬s.Overlong := by
  have hshort : ∀ n ∈ s.board.keyboard.integers ++ [s.board.geometry.rows, s.board.geometry.cols,
      s.board.geometry.totalLights, s.board.geometry.decorativeLights], ¬Number.Long n :=
    fun n hn => Number.isWritable_iff.mp (List.all_eq_true.mp hboard n hn)
  rintro (⟨layer, hlayer, entry, hentry, ⟨-, n, hn, hlong⟩ | hlong⟩ | ⟨-, -, n, hn, hlong⟩)
  · refine hshort n ?_ hlong
    simp only [List.mem_append, List.mem_cons] at hn ⊢
    tauto
  · exact Keycode.checkTargets_eq_ok_iff.mp (toOption_eq_some_iff.mp (hkeys layer hlayer entry hentry))
      hlong
  · refine hshort n (List.mem_append_right _ ?_) hlong
    simp only [List.mem_cons] at hn ⊢
    tauto

/-- Numbers that are short enough leave everything to the checks. -/
theorem validate_eq_ok (h : ¬s.Overlong) : s.validate = .ok (.ofFindings s.findings) := by
  rw [validate, checkNumbers_eq_ok_iff.mpr h]
  rfl

theorem exceeds_of_checkKey {p : Position} {key : Key} {e : Number.IntegerError}
    (h : s.checkKey p key = .error e) : e.Exceeds := by
  rcases bind_eq_error_iff.mp h with hwritten | ⟨_, -, hread⟩
  · exact Number.exceeds_of_checkWritable hwritten
  · exact Keycode.exceeds_of_checkTargets hread

/-- A number with too many digits ends the validation before anything is reported. -/
theorem exists_checkNumbers_eq_error (h : s.Overlong) :
    ∃ e : Number.IntegerError, e.Exceeds ∧ s.checkNumbers = .error e := by
  cases hchecked : s.checkNumbers with
  | ok _ => exact absurd h (checkNumbers_eq_ok_iff.mp hchecked)
  | error e =>
    refine ⟨e, ?_, rfl⟩
    rcases bind_eq_error_iff.mp hchecked with hkeys | ⟨_, -, hlights⟩
    · obtain ⟨layer, -, hlayer⟩ := exists_of_forM_eq_error hkeys
      obtain ⟨entry, -, hentry⟩ := exists_of_forM_eq_error hlayer
      exact exceeds_of_checkKey hentry
    · exact Number.exceeds_of_checkWritable hlights

theorem exists_validate_eq_error (h : s.Overlong) :
    ∃ e : Number.IntegerError, e.Exceeds ∧ s.validate = .error e := by
  obtain ⟨e, he, hchecked⟩ := exists_checkNumbers_eq_error h
  exact ⟨e, he, by rw [validate, hchecked]; rfl⟩

theorem errors_of_validate {report : Report} (h : s.validate = .ok report) :
    report.errors = s.errors := by
  obtain ⟨-, -, hreport⟩ := bind_eq_ok_iff.mp h
  cases hreport
  exact filter_findings

/-! ### References -/

/-- All references of a layout lead somewhere. -/
structure Linked (s : Subject) : Prop where
  keyLayers : ∀ layer ∈ s.layout.layers, ∀ entry ∈ layer.keys,
    s.layout.LayersKnown entry.2.keycode
  keyTapDances : ∀ layer ∈ s.layout.layers, ∀ entry ∈ layer.keys,
    ∀ name ∈ Keycode.tapDanceReferences entry.2.keycode, ∃ t ∈ s.layout.tapDances, t.name = name
  actionLayers : ∀ t ∈ s.layout.tapDances, ∀ keycode ∈ t.keycodes, s.layout.LayersKnown keycode

theorem layersKnown_of_findings {context : Finding → Finding} {keycode : String}
    (h : s.layerReferenceFindings context keycode = []) : s.layout.LayersKnown keycode := by
  intro id hid
  have hknown := List.filter_eq_nil_iff.mp (List.map_eq_nil_iff.mp h) id hid
  simpa using hknown

theorem exists_of_tapDanceFindings {layer : Layer} {p : Position} {key : Key}
    (h : s.tapDanceFindings layer p key = []) :
    ∀ name ∈ Keycode.tapDanceReferences key.keycode, ∃ t ∈ s.layout.tapDances, t.name = name := by
  intro name hname
  have hsome := List.filter_eq_nil_iff.mp (List.map_eq_nil_iff.mp h) name hname
  cases ht : s.layout.tapDance? name with
  | some t => exact ⟨t, List.mem_of_find?_eq_some ht, by simpa using List.find?_some ht⟩
  | none => exact absurd (by rw [ht]; rfl) hsome

/-- References lead somewhere if there are no errors. -/
theorem linked_of_validate {report : Report} (h : s.validate = .ok report)
    (hvalid : report.isValid = true) : s.Linked := by
  have hnone : s.errors = [] := (errors_of_validate h).symm.trans (List.isEmpty_iff.mp hvalid)
  simp only [errors, keyErrors, List.append_eq_nil_iff, List.flatMap_eq_nil_iff] at hnone
  obtain ⟨⟨⟨-, hkeys⟩, hactions⟩, -⟩ := hnone
  refine { keyLayers := fun layer hlayer entry hentry => ?_,
           keyTapDances := fun layer hlayer entry hentry => ?_,
           actionLayers := fun t ht keycode hkeycode => ?_ }
  · exact layersKnown_of_findings (hkeys layer hlayer entry hentry).1.2
  · exact exists_of_tapDanceFindings (hkeys layer hlayer entry hentry).2
  · exact layersKnown_of_findings (hactions t ht keycode hkeycode)

end Keyforge.Firmware.Subject
