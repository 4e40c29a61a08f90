import Keyforge.Firmware.Sources
import Keyforge.Proofs.Firmware.Keymap
import Keyforge.Proofs.Firmware.Validation
import Mathlib.Data.List.Permutation

/-!
# Errors are violations

`violations` lists what is wrong with a layout on a board, straight from the rules. Every reference
counts as often as it occurs. Each check gives an error for each violation of its own rule
(`Finding.Describes`), in the order of the list (`forall₂_describes_errors`). No later step fails
because of a report (`NeverInvalid`), so sources are refused with one just if it has errors
(`exists_invalid_iff`).
-/

namespace Keyforge.Firmware

/-! ### Violations -/

/-- A rule that is broken, and where. -/
structure Violation where
  kind : Kind
  layer? : Option Int := none
  position? : Option Position := none
  keycode? : Option String := none
  name? : Option String := none
  deriving Repr, DecidableEq

/-- The category that is named although it is not defined. -/
def undefinedCategory (l : Layout) (category? : Option String) : List String :=
  category?.toList.filter fun id => id ∉ l.categories.map (·.id)

def missingLayers (l : Layout) (keycode : String) : List String :=
  (Keycode.layerReferences keycode).filter fun id => id ∉ l.layers.filterMap (·.id?)

def missingTapDances (l : Layout) (keycode : String) : List String :=
  (Keycode.tapDanceReferences keycode).filter fun name => name ∉ l.tapDances.map (·.name)

namespace Violation

def ofLayer (l : Layout) (layer : Layer) : List Violation :=
  (undefinedCategory l layer.category?).map fun id =>
    { kind := .danglingCategory, layer? := some layer.index, name? := some id }

def atKey (layer : Layer) (p : Position) (key : Key) (kind : Kind) (name? : Option String) :
    Violation :=
  ⟨kind, some layer.index, some p, some key.keycode, name?⟩

def ofKey (l : Layout) (g : Geometry) (layer : Layer) (p : Position) (key : Key) :
    List Violation :=
  (if p ∈ g.positions then [] else [atKey layer p key .unmappedPosition none]) ++
    (undefinedCategory l key.category?).map (fun id =>
      atKey layer p key .danglingCategory (some id)) ++
    (missingLayers l key.keycode).map (fun id =>
      atKey layer p key .unknownLayerReference (some ("@" ++ id))) ++
    (missingTapDances l key.keycode).map fun name =>
      atKey layer p key .unknownTapDance (some name)

def ofAction (l : Layout) (keycode : String) : List Violation :=
  (missingLayers l keycode).map fun id =>
    { kind := .unknownLayerReference, keycode? := some keycode, name? := some ("@" ++ id) }

def ofLights (g : Geometry) : List Violation :=
  if g.hasLighting = true ∧ g.totalLights ≠ g.keyedLights ∧
      g.totalLights ≠ g.keyedLights + g.decorativeLights then
    [{ kind := .lightCountMismatch }]
  else []

end Violation

/-- Everything that is wrong with a layout on a board, each occurrence once. -/
def violations (l : Layout) (g : Geometry) : List Violation :=
  l.layers.flatMap (Violation.ofLayer l) ++
    (l.layers.flatMap fun layer =>
      layer.keys.flatMap fun entry => Violation.ofKey l g layer entry.1 entry.2) ++
    (l.tapDances.flatMap fun t => t.keycodes.flatMap (Violation.ofAction l)) ++
    Violation.ofLights g

/-! ### Errors that describe them -/

def Finding.Quotes (f : Finding) (name : String) : Prop :=
  ∃ before behind, f.message = before ++ "\"" ++ name ++ "\"" ++ behind

/-- A finding is an error that says what is wrong and where. -/
structure Finding.Describes (f : Finding) (v : Violation) : Prop where
  severity : f.severity = .error
  kind : f.kind = v.kind
  layer : f.layer? = v.layer?
  position : f.position? = v.position?
  keycode : f.keycode? = v.keycode?
  name : ∀ name, v.name? = some name → f.Quotes name

namespace Subject

variable {s : Subject}

theorem undefinedCategory_some (l : Layout) (id : String) :
    undefinedCategory l (some id) = if (l.category? id).isSome then [] else [id] := by
  have hdefined : (l.category? id).isSome = true ↔ id ∈ l.categories.map (·.id) := by
    simp [Layout.category?]
  simp only [undefinedCategory, Option.toList_some, List.filter_singleton, hdefined]
  split <;> simp_all

theorem missingLayers_eq_unknownLayers (keycode : String) :
    missingLayers s.layout keycode = s.unknownLayers keycode := by
  refine List.filter_congr fun id _ => ?_
  rw [Bool.eq_iff_iff, decide_eq_true_iff, ← Layout.has_layerIds_iff, Bool.not_eq_true,
    Bool.not_eq_true']

theorem missingTapDances_eq_filter (l : Layout) (keycode : String) :
    missingTapDances l keycode =
      (Keycode.tapDanceReferences keycode).filter fun name => (l.tapDance? name).isNone := by
  refine List.filter_congr fun name _ => ?_
  rw [Bool.eq_iff_iff]
  simp [Layout.tapDance?]

theorem forall₂_describes_flatMap {findings : α → List Finding} {violations : α → List Violation}
    (h : ∀ a, List.Forall₂ Finding.Describes (findings a) (violations a)) (items : List α) :
    List.Forall₂ Finding.Describes (items.flatMap findings) (items.flatMap violations) := by
  induction items with
  | nil => exact .nil
  | cons a items ih =>
    rw [List.flatMap_cons, List.flatMap_cons]
    exact List.rel_append (h a) ih

theorem forall₂_describes_map {finding : String → Finding} {violation : String → Violation}
    (h : ∀ name, (finding name).Describes (violation name)) (names : List String) :
    List.Forall₂ Finding.Describes (names.map finding) (names.map violation) := by
  rw [List.forall₂_map_left_iff, List.forall₂_map_right_iff, List.forall₂_same]
  exact fun name _ => h name

theorem describes_undefinedCategory {finding : String → Finding} {violation : String → Violation}
    (h : ∀ id, (finding id).Describes (violation id)) (category? : Option String) :
    List.Forall₂ Finding.Describes
      (match category? with
      | none => []
      | some id => if (s.layout.category? id).isSome then [] else [finding id])
      ((undefinedCategory s.layout category?).map violation) := by
  cases category? with
  | none => exact .nil
  | some id =>
    simp only [undefinedCategory_some]
    split
    · exact .nil
    · exact .cons (h id) .nil

theorem describes_layerCategoryFindings (layer : Layer) :
    List.Forall₂ Finding.Describes (s.layerCategoryFindings layer)
      (Violation.ofLayer s.layout layer) := by
  refine describes_undefinedCategory (fun id => ⟨rfl, rfl, rfl, rfl, rfl, ?_⟩) layer.category?
  rintro name ⟨⟩
  exact ⟨"layer category ", " is not defined", String.toList_inj.mp (by simp)⟩

theorem describes_keyCategoryFindings (layer : Layer) (p : Position) (key : Key) :
    List.Forall₂ Finding.Describes (s.keyCategoryFindings layer p key)
      ((undefinedCategory s.layout key.category?).map fun id =>
        Violation.atKey layer p key .danglingCategory (some id)) := by
  refine describes_undefinedCategory (fun id => ⟨rfl, rfl, rfl, rfl, rfl, ?_⟩) key.category?
  rintro name ⟨⟩
  exact ⟨"category ", " of key " ++ key.keycode ++ " is not defined",
    String.toList_inj.mp (by simp [keyFinding])⟩

theorem describes_layerReferenceFindings {context : Finding → Finding}
    {violation : String → Violation} {keycode : String}
    (hplace : ∀ f : Finding, f.severity = .error → f.kind = .unknownLayerReference →
      f.layer? = none → f.position? = none → f.keycode? = some keycode → ∀ id, f.Quotes ("@" ++ id) →
      (context f).Describes (violation id)) :
    List.Forall₂ Finding.Describes (s.layerReferenceFindings context keycode)
      ((missingLayers s.layout keycode).map violation) := by
  rw [missingLayers_eq_unknownLayers]
  refine forall₂_describes_map (fun id => hplace _ rfl rfl rfl rfl rfl id ?_) _
  exact ⟨"keycode " ++ keycode ++ " refers to unknown layer id ", "",
    String.toList_inj.mp (by simp)⟩

theorem describes_tapDanceFindings (layer : Layer) (p : Position) (key : Key) :
    List.Forall₂ Finding.Describes (s.tapDanceFindings layer p key)
      ((missingTapDances s.layout key.keycode).map fun name =>
        Violation.atKey layer p key .unknownTapDance (some name)) := by
  rw [missingTapDances_eq_filter]
  refine forall₂_describes_map (fun name => ⟨rfl, rfl, rfl, rfl, rfl, ?_⟩) _
  rintro name ⟨⟩
  exact ⟨"keycode " ++ key.keycode ++ " refers to tap dance ", " which is not defined",
    String.toList_inj.mp (by simp [keyFinding])⟩

theorem describes_lightFindings :
    List.Forall₂ Finding.Describes (s.lightFindings.filter Finding.isError)
      (Violation.ofLights s.board.geometry) := by
  unfold lightFindings Violation.ofLights
  simp only [Bool.or_eq_true, Bool.not_eq_true', beq_iff_eq]
  split
  next hfine =>
    -- a board without lighting, or one whose keys account for all lights
    refine Eq.mpr (congrArg _ (if_neg ?_)) List.Forall₂.nil
    rintro ⟨hlighting, hkeyed, -⟩
    rcases hfine with hdark | hsame
    · rw [hdark] at hlighting
      cases hlighting
    · exact hkeyed hsame
  next hmismatch =>
    rw [not_or, Bool.not_eq_false] at hmismatch
    split
    -- decorative lights that make up for the difference are only warned of
    next hdecorative =>
      rw [if_neg fun h => h.2.2 hdecorative]
      exact .nil
    next hother =>
      rw [if_pos ⟨hmismatch.1, hmismatch.2, hother⟩]
      exact .cons ⟨rfl, rfl, rfl, rfl, rfl, nofun⟩ .nil

variable (hcoordinates : s.coordinates = .ofGeometry s.board.geometry)

include hcoordinates

theorem describes_positionFindings (layer : Layer) (p : Position) (key : Key) :
    List.Forall₂ Finding.Describes (s.positionFindings layer p key)
      (if p ∈ s.board.geometry.positions then []
        else [Violation.atKey layer p key .unmappedPosition none]) := by
  unfold positionFindings
  rw [hcoordinates]
  simp only [Coordinates.has_ofGeometry_iff]
  split
  · exact .nil
  · exact .cons ⟨rfl, rfl, rfl, rfl, rfl, nofun⟩ .nil

theorem describes_keyErrors (layer : Layer) (p : Position) (key : Key) :
    List.Forall₂ Finding.Describes (s.keyErrors layer p key)
      (Violation.ofKey s.layout s.board.geometry layer p key) := by
  refine List.rel_append (List.rel_append (List.rel_append ?_ ?_) ?_) ?_
  · exact describes_positionFindings hcoordinates layer p key
  · exact describes_keyCategoryFindings layer p key
  · refine describes_layerReferenceFindings fun f hseverity hkind _ _ hkeycode id hquotes => ?_
    refine ⟨hseverity, hkind, rfl, rfl, hkeycode, ?_⟩
    rintro name ⟨⟩
    exact hquotes
  · exact describes_tapDanceFindings layer p key

/-- **The errors are the violations**, one by one and in the order of the checks. -/
theorem forall₂_describes_errors :
    List.Forall₂ Finding.Describes s.errors (violations s.layout s.board.geometry) := by
  refine List.rel_append (List.rel_append (List.rel_append ?_ ?_) ?_) describes_lightFindings
  · exact forall₂_describes_flatMap describes_layerCategoryFindings s.layout.layers
  · refine forall₂_describes_flatMap (fun layer => ?_) s.layout.layers
    refine forall₂_describes_flatMap (fun entry => ?_) layer.keys
    exact describes_keyErrors hcoordinates layer entry.1 entry.2
  · refine forall₂_describes_flatMap (fun t => ?_) s.layout.tapDances
    refine forall₂_describes_flatMap (fun keycode => ?_) t.keycodes
    refine describes_layerReferenceFindings fun f hseverity hkind hlayer hposition hkeycode id
      hquotes => ⟨hseverity, hkind, hlayer, hposition, hkeycode, ?_⟩
    rintro name ⟨⟩
    exact hquotes

theorem isValid_iff {report : Report} (h : s.validate = .ok report) :
    report.isValid = true ↔ violations s.layout s.board.geometry = [] := by
  have hdescribed := forall₂_describes_errors hcoordinates
  rw [Report.isValid, List.isEmpty_iff, errors_of_validate h]
  constructor
  · intro hnil
    rw [hnil] at hdescribed
    exact List.forall₂_nil_left_iff.mp hdescribed
  · intro hnil
    rw [hnil] at hdescribed
    exact List.forall₂_nil_right_iff.mp hdescribed

end Subject

/-! ### Sources -/

/-- A computation that does not fail because of a report. -/
def NeverInvalid (x : Except Failure α) : Prop := ∀ report, x ≠ .error (.invalid report)

namespace NeverInvalid

theorem ok (a : α) : NeverInvalid (.ok a) := nofun

theorem bind {x : Except Failure α} {f : α → Except Failure β} (hx : NeverInvalid x)
    (hf : ∀ a, NeverInvalid (f a)) : NeverInvalid (x >>= f) := by
  cases x with
  | ok a => exact hf a
  | error e =>
    intro report h
    cases h
    exact hx report rfl

theorem mapM {f : α → Except Failure β} (hf : ∀ a, NeverInvalid (f a)) (items : List α) :
    NeverInvalid (items.mapM f) := by
  induction items with
  | nil => exact .ok []
  | cons a items ih =>
    rw [List.mapM_cons]
    exact (hf a).bind fun b => ih.bind fun bs => .ok (b :: bs)

theorem written (numbers : List Int) (a : α) : NeverInvalid (written numbers a) := by
  intro report h
  unfold Firmware.written at h
  split at h <;> cases h

end NeverInvalid

namespace Compilation

variable (c : Compilation)

theorem neverInvalid_keycodeAt (layer : Layer) (p : Position) :
    NeverInvalid (c.keycodeAt layer p) := by
  intro report h
  unfold keycodeAt at h
  split at h
  · cases h
  · split at h <;> cases h

theorem neverInvalid_rowOf (key : KeyShape) : NeverInvalid (rowOf key) := by
  intro report h
  unfold rowOf at h
  split at h <;> cases h

theorem neverInvalid_layerEntry (layer : Layer) : NeverInvalid (c.layerEntry layer) := by
  have hmatrix : NeverInvalid (c.matrixLayer layer) := by
    refine (NeverInvalid.mapM (fun row => ?_) _).bind fun rows => .ok _
    refine (NeverInvalid.mapM (fun col => ?_) _).bind fun codes => .ok _
    unfold crossing
    split
    · exact c.neverInvalid_keycodeAt layer _
    · exact .ok _
  have hlayout : ∀ name, NeverInvalid (c.macroLayer name layer) := fun name =>
    (NeverInvalid.mapM (c.neverInvalid_keycodeAt layer) _).bind fun codes =>
      (NeverInvalid.mapM neverInvalid_rowOf _).bind fun rows => .ok _
  unfold layerEntry
  split
  · split
    · exact hmatrix.bind fun lines => .ok _
    · exact (hlayout _).bind fun lines => .ok _
  · exact hmatrix.bind fun lines => .ok _

theorem neverInvalid_tapDanceEntry (t : TapDance) : NeverInvalid (c.tapDanceEntry t) := by
  refine (NeverInvalid.mapM (fun keycode report h => ?_) _).bind fun codes => .ok _
  unfold actionCode at h
  split at h <;> cases h

theorem neverInvalid_keymapText : NeverInvalid c.keymapText := by
  have htapDances : NeverInvalid c.tapDanceLines := by
    simp only [tapDanceLines]
    split
    · exact .ok []
    · exact (NeverInvalid.mapM c.neverInvalid_tapDanceEntry _).bind fun entries => .ok _
  have hkeymap : NeverInvalid c.keymapLines :=
    (NeverInvalid.mapM c.neverInvalid_layerEntry _).bind fun layers => .ok _
  exact htapDances.bind fun tapDances => hkeymap.bind fun keymap =>
    (NeverInvalid.written _ _).bind fun lighting => .ok _

theorem neverInvalid_settingsFrom (lighting : Bool) (settings found : List (String × String)) :
    NeverInvalid (settingsFrom lighting settings found).2 := by
  fun_induction settingsFrom lighting settings found with
  | case1 => exact .ok _
  | case2 => assumption
  | case3 => assumption
  | case4 => exact nofun
  | case5 => simp_all

theorem neverInvalid_sources (report : Report) : NeverInvalid (c.sources report).2 := by
  have hconfig : NeverInvalid c.configText.2 := by
    have hsettings := neverInvalid_settingsFrom c.board.geometry.hasLighting c.layout.settings []
    unfold configText settingsDeclarations
    split
    next e heq =>
      intro found h
      cases h
      exact NeverInvalid.written _ _ found heq
    next =>
      split
      next log e heq =>
        rw [heq] at hsettings
        intro found h
        exact hsettings found (by simpa using h)
      next =>
        intro found h
        cases h
      next => exact .ok _
  unfold sources
  split
  next e heq =>
    intro found h
    cases h
    exact c.neverInvalid_keymapText found heq
  next =>
    split
    next log e heq =>
      rw [heq] at hconfig
      intro found h
      exact hconfig found (by simpa using h)
    next => exact .ok _

section Generate

variable {c} {report : Report} (h : c.toSubject.validate = .ok report)

include h

theorem generate_of_not_isValid (hvalid : report.isValid = false) :
    c.generate = (warningLog report, .error (.refused report)) := by
  rw [generate, h]
  simp only [hvalid, Bool.false_eq_true, if_false]

theorem generate_of_isValid (hvalid : report.isValid = true) :
    c.generate = (warningLog report ++ (c.sources report).1, (c.sources report).2) := by
  rw [generate, h]
  simp only [hvalid, if_true]

/-- Sources are refused because of a report exactly if it has errors and can be written. -/
theorem exists_invalid_iff :
    (∃ log found, c.generate = (log, .error (.invalid found))) ↔
      report.errors ≠ [] ∧ report.isWritable = true := by
  cases hvalid : report.isValid with
  | false =>
    have hne : report.errors ≠ [] := List.isEmpty_eq_false_iff.mp hvalid
    rw [generate_of_not_isValid h hvalid, Failure.refused]
    cases report.isWritable with
    | false => simp
    | true => simp [hne]
  | true =>
    have hnil : report.errors = [] := List.isEmpty_iff.mp hvalid
    refine ⟨?_, fun hne => absurd hnil hne.1⟩
    rintro ⟨log, found, hgenerate⟩
    rw [generate_of_isValid h hvalid] at hgenerate
    exact absurd (congrArg Prod.snd hgenerate) (c.neverInvalid_sources report found)

end Generate

/-- **Validation reports exactly the violations**, each occurrence once and with any table of
keycodes. Sources are refused with a report that has errors. A number with too many digits, in a
layer function or in the description of the board, ends all this before anything is reported; one in
the place of a finding keeps the report from being written. -/
theorem validate_reports_violations {c : Compilation}
    (hcoordinates : c.coordinates = .ofGeometry c.board.geometry) :
    (∀ keycode ids, Keycode.layerReferences keycode = ids ↔
      Keycode.MentionsLayers keycode.toList ids) ∧
    (∀ keycode names, Keycode.tapDanceReferences keycode = names ↔
      Keycode.MentionsTapDances false keycode.toList names) ∧
    (¬c.toSubject.Overlong → ∃ report, c.toSubject.validate = .ok report ∧
      List.Forall₂ Finding.Describes report.errors (violations c.layout c.board.geometry) ∧
      (report.isValid = true ↔ violations c.layout c.board.geometry = []) ∧
      (∀ table?, ∃ other, Subject.validate ⟨c.layout, c.board, c.coordinates, table?⟩ =
        .ok other ∧ other.errors = report.errors) ∧
      ((∃ log found, c.generate = (log, .error (.invalid found))) ↔
        report.errors ≠ [] ∧ report.isWritable = true) ∧
      (report.errors ≠ [] → report.isWritable = false →
        c.generate.2 = .error (.number .unwritable))) ∧
    (c.toSubject.Overlong → ∃ e : Number.IntegerError, e.Exceeds ∧
      (∀ table?, Subject.validate ⟨c.layout, c.board, c.coordinates, table?⟩ = .error e) ∧
      c.generate = ([], .error (.number e))) := by
  refine ⟨fun _ _ => Keycode.layerReferences_eq_iff,
    fun _ _ => Keycode.tapDanceReferences_eq_iff, fun hshort => ?_, fun hlong => ?_⟩
  · have hreport := Subject.validate_eq_ok hshort
    have herrors := Subject.errors_of_validate hreport
    refine ⟨_, hreport, ?_, Subject.isValid_iff hcoordinates hreport, fun table? => ?_,
      exists_invalid_iff hreport, fun hne hlong => ?_⟩
    · rw [herrors]
      exact Subject.forall₂_describes_errors hcoordinates
    · have hother : Subject.validate ⟨c.layout, c.board, c.coordinates, table?⟩ = .ok _ :=
        Subject.validate_eq_ok hshort
      -- no check that finds errors looks at the table
      exact ⟨_, hother, (Subject.errors_of_validate hother).trans herrors.symm⟩
    · rw [generate_of_not_isValid hreport (List.isEmpty_eq_false_iff.mpr hne), Failure.refused, hlong]
      rfl
  · obtain ⟨e, he, hchecked⟩ := Subject.exists_checkNumbers_eq_error hlong
    have hvalidate : ∀ table?, Subject.validate ⟨c.layout, c.board, c.coordinates, table?⟩ =
        .error e := by
      intro table?
      show (c.toSubject.checkNumbers >>= _) = _
      rw [hchecked]
      rfl
    refine ⟨e, he, hvalidate, ?_⟩
    rw [generate, show c.toSubject.validate = _ from hvalidate c.table?]

/-- A layout that breaks every rule, on a board that declares too many lights. -/
def strayKeymap : Compilation :=
  { cornerKeymap with
    layout := { cornerLayout with
      layers := [{ index := 0, name := "Base", category? := some "ghost", keys := [(⟨5, 1⟩, {
        keycode := "LT(@up, @up) TD(lost)", position := ⟨5, 1⟩, category? := some "ghost" })] }]
      tapDances := [{ name := "caps", single := "MO(@nav)" }] }
    board := { cornerBoard with geometry := { cornerBoard.geometry with lightCount? := some 5 } }
    coordinates := .ofGeometry { cornerBoard.geometry with lightCount? := some 5 } }

def strayViolations : List Violation :=
  [
    { kind := .danglingCategory, layer? := some 0, name? := some "ghost" },
    ⟨.unmappedPosition, some 0, some ⟨5, 1⟩, some "LT(@up, @up) TD(lost)", none⟩,
    ⟨.danglingCategory, some 0, some ⟨5, 1⟩, some "LT(@up, @up) TD(lost)", some "ghost"⟩,
    ⟨.unknownLayerReference, some 0, some ⟨5, 1⟩, some "LT(@up, @up) TD(lost)", some "@up"⟩,
    ⟨.unknownLayerReference, some 0, some ⟨5, 1⟩, some "LT(@up, @up) TD(lost)", some "@up"⟩,
    ⟨.unknownTapDance, some 0, some ⟨5, 1⟩, some "LT(@up, @up) TD(lost)", some "lost"⟩,
    { kind := .unknownLayerReference, keycode? := some "MO(@nav)", name? := some "@nav" },
    { kind := .lightCountMismatch }]

/-- A layout with a layer number of too many digits, all of them zero. -/
def zerosKeymap : Compilation :=
  { cornerKeymap with
    layout := { cornerLayout with
      layers := [{ index := 0, name := "Base", keys := [(⟨1, 0⟩, {
        keycode := String.ofList ("MO(".toList ++ (List.replicate 4301 '0' ++ [')']))
        position := ⟨1, 0⟩ })] }] } }

theorem overlong_zerosKeymap : zerosKeymap.toSubject.Overlong := by
  refine .inl ⟨_, List.mem_cons_self, _, List.mem_cons_self, .inr ⟨List.replicate 4301 '0', ?_, ?_⟩⟩
  · rw [String.toList_ofList]
    refine ⟨[], _, rfl, "MO", by decide, _, rfl, [], [], ')', [], rfl, nofun, ?_, ?_, nofun, .inr rfl⟩
    · exact List.cons_ne_nil _ _
    · intro d hd
      rw [(List.mem_replicate.mp hd).2]
      decide
  · rw [List.length_replicate]
    decide

def farRow : Int := Nat.pow 10 Number.digitLimit

/-- A layout with a key off the board, in a row whose number has too many digits. -/
def farKeymap : Compilation :=
  { cornerKeymap with
    layout := { cornerLayout with
      layers := [{ index := 0, name := "Base", keys := [(⟨farRow, 0⟩, {
        keycode := "KC_A", position := ⟨farRow, 0⟩ })] }] } }

theorem not_writable_farKeymap {report : Report} (h : List.Forall₂ Finding.Describes report.errors
      (violations farKeymap.layout farKeymap.board.geometry)) :
    report.errors ≠ [] ∧ report.isWritable = false := by
  have hviolations : violations farKeymap.layout farKeymap.board.geometry =
      [⟨.unmappedPosition, some 0, some ⟨farRow, 0⟩, some "KC_A", none⟩,
        { kind := .unknownLayerReference, keycode? := some "MO(@nav)", name? := some "@nav" }] := by
    decide +kernel
  have hlong : Number.isWritable farRow = false :=
    Bool.eq_false_iff.mpr fun h => Number.isWritable_iff.mp h (Number.long_pow le_rfl)
  rw [hviolations] at h
  obtain ⟨f, others, hf, -, herrors⟩ := List.forall₂_cons_right_iff.mp h
  have hfinding : f.isWritable = false := by
    rw [Finding.isWritable, hf.layer, hf.position]
    simp [Position.coordinates, hlong]
  refine ⟨herrors ▸ List.cons_ne_nil f others, ?_⟩
  rw [Report.isWritable, herrors, List.cons_append, List.all_cons, hfinding, Bool.false_and]

theorem validate_reports_violations_strayKeymap :
    (∃ report, strayKeymap.toSubject.validate = .ok report ∧
      List.Forall₂ Finding.Describes report.errors strayViolations ∧
      ∃ log found, strayKeymap.generate = (log, .error (.invalid found))) ∧
    (∃ e : Number.IntegerError, e.Exceeds ∧ zerosKeymap.generate = ([], .error (.number e))) ∧
    farKeymap.generate.2 = .error (.number .unwritable) := by
  have hviolations : violations strayKeymap.layout strayKeymap.board.geometry = strayViolations := by
    decide +kernel
  have hshort : ¬strayKeymap.toSubject.Overlong :=
    Subject.not_overlong (by decide +kernel) (by decide +kernel)
  obtain ⟨-, -, hreported, -⟩ := validate_reports_violations (c := strayKeymap) rfl
  obtain ⟨report, hreport, hdescribed, -, -, hrefused, -⟩ := hreported hshort
  obtain ⟨-, -, -, hunread⟩ := validate_reports_violations (c := zerosKeymap) rfl
  obtain ⟨e, he, -, hgenerate⟩ := hunread overlong_zerosKeymap
  obtain ⟨-, -, hfar, -⟩ := validate_reports_violations (c := farKeymap) rfl
  have hnear : ¬farKeymap.toSubject.Overlong :=
    Subject.not_overlong (by decide +kernel) (by decide +kernel)
  obtain ⟨far, -, hfar, -, -, -, hunwritten⟩ := hfar hnear
  obtain ⟨hne, hlong⟩ := not_writable_farKeymap hfar
  rw [hviolations] at hdescribed
  refine ⟨⟨report, hreport, hdescribed, hrefused.mpr ⟨fun hnil => ?_, ?_⟩⟩, ⟨e, he, hgenerate⟩,
    hunwritten hne hlong⟩
  · rw [hnil] at hdescribed
    cases hdescribed
  · have hwritable : ∀ slots ∈ strayKeymap.board.geometry.positions.permutations',
        (Report.ofFindings (Subject.findings { strayKeymap.toSubject with
          coordinates := ⟨strayKeymap.board.geometry, slots⟩ })).isWritable = true := by
      decide +kernel
    rw [Subject.validate_eq_ok hshort] at hreport
    cases hreport
    exact hwritable _ (List.mem_permutations'.mpr strayKeymap.board.geometry.slots_perm_positions)

end Compilation

end Keyforge.Firmware
