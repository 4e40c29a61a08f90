import Keyforge.Proofs.Board.Lights
import Keyforge.Proofs.Firmware.LayerRemoval
import Keyforge.Proofs.Firmware.Lighting

/-!
# The number of lights

A board takes its lights from its definition, and what is said of their number has to fit together.
The lights under keys and those under none are all lights but the doubled ones, and validation compares
just these numbers (`lightCountMismatch_iff`). The table and the header get theirs from the same board
(`startsTable_lightingLines`, `lookup_lightDeclarations`).
-/

namespace Keyforge.Firmware

namespace Subject

variable {s : Subject}

theorem lightFindings_cases (hlighting : s.board.geometry.hasLighting = true) :
    let g := s.board.geometry
    (g.totalLights = g.keyedLights ∧ s.lightFindings = []) ∨
      (g.totalLights ≠ g.keyedLights ∧ ∃ f, s.lightFindings = [f] ∧
        (f.isError = true ↔ g.totalLights ≠ g.keyedLights + g.decorativeLights)) := by
  unfold lightFindings
  simp only [hlighting, Bool.not_true, Bool.false_or, beq_iff_eq]
  split
  next hkeyed => exact .inl ⟨hkeyed, rfl⟩
  next hkeyed =>
    refine .inr ⟨hkeyed, ?_⟩
    split
    next hdecorative => exact ⟨_, rfl, by simp [Finding.isError, hdecorative]⟩
    next hdecorative => exact ⟨_, rfl, by simp [Finding.isError, hdecorative]⟩

theorem exists_lightCountMismatch_iff (p : Finding → Bool) :
    (∃ f ∈ s.findings.filter p, f.kind = .lightCountMismatch) ↔
      ∃ f ∈ s.lightFindings, p f = true := by
  simp only [List.mem_filter, mem_lightFindings_iff]
  exact exists_congr fun f => and_right_comm

theorem lightCountMismatch_iff (hlighting : s.board.geometry.hasLighting = true) :
    let g := s.board.geometry
    let report := Report.ofFindings s.findings
    g.keyedLights + g.decorativeLights ≤ g.totalLights → 0 ≤ g.decorativeLights →
    ((∃ f ∈ report.errors, f.kind = .lightCountMismatch) ↔
      g.keyedLights + g.decorativeLights ≠ g.totalLights) ∧
    ((∃ f ∈ report.warnings, f.kind = .lightCountMismatch) ↔
      g.keyedLights + g.decorativeLights = g.totalLights ∧ 0 < g.decorativeLights) := by
  dsimp only
  intro hle hnonneg
  rw [Report.ofFindings, exists_lightCountMismatch_iff, exists_lightCountMismatch_iff]
  rcases lightFindings_cases hlighting with ⟨hsame, hnone⟩ | ⟨hother, f, hfound, herror⟩
  · simp only [hnone, List.not_mem_nil, false_and, exists_false, false_iff, not_not, not_and]
    omega
  · simp only [hfound, List.mem_singleton, exists_eq_left, Bool.not_eq_true', ← Bool.not_eq_true,
      herror, not_not]
    omega

end Subject

/-- **Lights are accounted for exactly.** The light of a key is the last one at its position. Unless
counts for halves are given, all lights but the doubled ones are counted. Doubled lights are
reported, and else lights under no key are. -/
theorem toBoard_accounts_lights {info : Info} {keyboard : Datum} {name? : Option String}
    {baseConfig : String} {board : Board} {lighting : Info.Lighting}
    (hboard : (info.toBoard keyboard name? baseConfig).2 = .ok board)
    (hused : info.usedLighting? = some lighting) :
    let g := board.geometry
    let lights := lighting.lights
    (∀ k ∈ g.keys, ∀ light, k.light? = some light ↔ ∃ i : Nat, light = i ∧
      Info.LiesAt lights i k.position ∧ ∀ j, Info.LiesAt lights j k.position → j ≤ i) ∧
    (∀ k ∈ g.keys, k.light? = none ↔ ∀ i, ¬Info.LiesAt lights i k.position) ∧
    g.keyLights.Nodup ∧
    (∃ count, g.lightCount? = some count ∧ ∀ light ∈ g.keyLights, 0 ≤ light ∧ light < count) ∧
    (lighting.splitCounts? = none →
      g.lightCount? = some ((lights.length : Nat) : Int) ∧
      g.keyedLights + g.decorativeLights ≤ lights.length ∧
      (g.keyedLights + g.decorativeLights = lights.length ↔ ¬Info.Doubled g.positions lights) ∧
      ∀ layout table?,
        let s := Subject.of layout board table?
        (¬s.Overlong → ∃ report, s.validate = .ok report ∧
          ((∃ f ∈ report.errors, f.kind = .lightCountMismatch) ↔ Info.Doubled g.positions lights) ∧
          ((∃ f ∈ report.warnings, f.kind = .lightCountMismatch) ↔
            ¬Info.Doubled g.positions lights ∧
              ∃ light ∈ lights, ∀ p ∈ g.positions, light.at? ≠ some p)) ∧
        (s.Overlong → ∃ e : Number.IntegerError, e.Exceeds ∧ s.validate = .error e)) := by
  obtain ⟨-, hvalid, name, keys, count, -, hgeometry⟩ := Info.of_toBoard hboard
  have hlights := Info.lights_of_usedLighting? hused
  have hlighting := hgeometry ▸ Info.hasLighting_of_usedLighting? hused keys count
  have hcount : board.geometry.lightCount? = some (Info.lightCount lighting) :=
    hgeometry ▸ Info.lightCount?_of_usedLighting? hused keys count
  have hlight : ∀ k ∈ board.geometry.keys, k.light? =
      Info.lightAt? k.position 0 lighting.lights := by
    rw [hgeometry, ← hlights]
    exact fun k => Info.light?_of_mem_geometry
  have htotal : board.geometry.totalLights = Info.lightCount lighting := by
    rw [Geometry.totalLights, hcount]
  intro g lights
  refine ⟨fun k hk light => ?_, fun k hk => ?_, hvalid.lights_nodup, ⟨_, hcount, fun light h => ?_⟩,
    fun hsplit => ?_⟩
  · rw [hlight k hk, Info.lightAt?_eq_some_iff]
  · rw [hlight k hk, Info.lightAt?_eq_none_iff, Info.mem_places_iff, not_exists]
  · exact ⟨hvalid.lights_nonneg light h, htotal ▸ hvalid.lights_lt light h⟩
  · have hlength : Info.lightCount lighting = (lights.length : Nat) := by
      rw [Info.lightCount, hsplit]
    have hcounts := Info.count_geometry info keys count (hgeometry ▸ hvalid.positions_nodup)
    rw [← hgeometry, hlights] at hcounts
    obtain ⟨hle, hexact, hnonneg, hbare⟩ := hcounts
    rw [hlength] at htotal hcount
    refine ⟨hcount, hle, hexact, fun layout table? =>
      ⟨fun hshort => ⟨_, Subject.validate_eq_ok hshort, ?_⟩, Subject.exists_validate_eq_error⟩⟩
    obtain ⟨herrors, hwarnings⟩ := Subject.lightCountMismatch_iff
      (s := Subject.of layout board table?) hlighting (hle.trans_eq htotal.symm) hnonneg
    rw [← htotal] at hexact
    exact ⟨herrors.trans ((not_congr hexact).trans not_not), hwarnings.trans (and_congr hexact hbare)⟩

/-- A definition with two lights under one key and one under none. -/
def twinLights : Info where
  layouts := [("LAYOUT", [⟨(0, 0), 0, 0, 1, 1, 0⟩, ⟨(0, 1), 1, 0, 1, 1, 0⟩])]
  lighting? := some { lights := [⟨some (0, 0)⟩, ⟨some (0, 0)⟩, {}] }

theorem toBoard_accounts_lights_twinLights :
    ∃ board, (twinLights.toBoard .null).2 = .ok board ∧
      board.geometry.keyLights = [1] ∧ board.geometry.lightCount? = some 3 ∧
      board.geometry.keyedLights + board.geometry.decorativeLights = 2 ∧
      ∃ report, (Subject.of Layout.letterLayout board none).validate = .ok report ∧
        ∃ f ∈ report.errors, f.kind = .lightCountMismatch := by
  obtain ⟨board, hboard⟩ : ∃ board, (twinLights.toBoard .null).2 = .ok board := ⟨_, rfl⟩
  have hshort : ¬(Subject.of Layout.letterLayout board none).Overlong := by
    cases hboard
    exact Subject.not_overlong (by decide +kernel) (by decide +kernel)
  obtain ⟨-, -, -, -, hcounts⟩ := toBoard_accounts_lights hboard rfl
  obtain ⟨hcount, -, -, hreports⟩ := hcounts rfl
  obtain ⟨report, hreport, herror, -⟩ := (hreports Layout.letterLayout none).1 hshort
  refine ⟨board, hboard, ?_, hcount, ?_, report, hreport, herror.mpr ?_⟩ <;> cases hboard
  · decide
  · decide
  · exact ⟨⟨0, 0⟩, by decide, by decide⟩

/-! ### The header and the keymap -/

namespace Compilation

variable {c : Compilation}

/-- The line that opens the light table, with the numbers of layers and lights. -/
def tableHeading (layers : Nat) (lights : String) : String :=
  "const uint8_t PROGMEM ledmap[" ++ Text.natText layers ++ "][" ++ lights ++ "][3] = \x7b"

/-- Lines start with a light table that has a row of `count` colors for each layer. -/
def StartsTable (lines : List String) (layers : List Layer) (lights : String) (count : Nat) : Prop :=
  ∃ (row : Layer → List Color) (rest : List String),
    lines = "#ifdef RGB_MATRIX_ENABLE" :: tableHeading layers.length lights ::
      ((layers.map fun layer => lightRowText layer.index (row layer)) ++ rest) ∧
    ∀ layer ∈ layers, (row layer).length = count

def halvesText (left right : Int) : String :=
  "\x7b " ++ Text.intText left ++ ", " ++ Text.intText right ++ " \x7d"

theorem exists_lookup_lightTable {l : Layout} {layer : Layer} (hlayer : layer ∈ l.layers)
    (coordinates : Coordinates) (fallback : Color) :
    ∃ other, (l.lightTable coordinates fallback).lookup layer.index =
      some (l.lightColors coordinates fallback other) := by
  rw [Layout.lightTable]
  generalize l.layers = layers at hlayer
  induction layers using List.reverseRecOn with
  | nil => cases hlayer
  | append_singleton layers last ih =>
    rw [List.map_append, Pairs.ofList, Pairs.putAll, List.map_singleton, List.foldl_concat,
      Pairs.lookup_put]
    split
    next => exact ⟨last, rfl⟩
    next hne =>
      rcases List.mem_append.mp hlayer with hlayer | hlayer
      · exact ih hlayer
      · rw [List.mem_singleton.mp hlayer, beq_self_eq_true] at hne
        exact absurd rfl hne

theorem startsTable_lightingLines (h : c.hasLights = true) :
    StartsTable c.lightingLines c.layout.layers (Text.intText c.coordinates.lightCount)
      c.coordinates.lightCount.toNat := by
  refine ⟨fun layer => ((c.layout.lightTable c.coordinates c.fallback).lookup layer.index).getD [],
    _, by rw [lightingLines, h]; rfl, fun layer hlayer => ?_⟩
  obtain ⟨other, hother⟩ := exists_lookup_lightTable hlayer c.coordinates c.fallback
  show (((c.layout.lightTable c.coordinates c.fallback).lookup layer.index).getD []).length = _
  rw [hother, Option.getD_some, Layout.length_lightColors]

theorem lookup_derivedDeclarations {name : String} (h : name ≠ "DYNAMIC_KEYMAP_LAYER_COUNT") :
    c.derivedDeclarations.lookup name = c.lightDeclarations.lookup name := by
  unfold derivedDeclarations
  dsimp only
  split
  next => rw [Pairs.lookup_put, if_neg (by simpa using h)]
  next => rfl

theorem lookup_lightDeclarations (hdefine : c.options.lightCountDefine ≠ "RGB_MATRIX_SPLIT")
    (hsum : ∀ left right, c.board.splitLightCounts? = some (left, right) →
      left + right = c.board.geometry.totalLights) :
    c.lightDeclarations.lookup c.options.lightCountDefine =
        (if c.board.geometry.hasLighting && c.board.geometry.totalLights != 0 then
          some (Text.intText c.board.geometry.totalLights) else none) ∧
      ∀ text, c.lightDeclarations.lookup "RGB_MATRIX_SPLIT" = some text → ∃ left right,
        left + right = c.board.geometry.totalLights ∧ text = halvesText left right := by
  unfold lightDeclarations
  dsimp only
  split
  next =>
    cases hsplit : c.board.splitLightCounts? with
    | none =>
      have hother : ("RGB_MATRIX_SPLIT" == c.options.lightCountDefine) = false := by
        simpa using Ne.symm hdefine
      simp [List.lookup_cons, hother]
    | some counts =>
      obtain ⟨left, right⟩ := counts
      have hsum := hsum left right hsplit
      simp only [Pairs.ofList, Pairs.putAll, List.foldl_cons, List.foldl_nil, Pairs.lookup_put,
        beq_self_eq_true, if_true, Option.some.injEq]
      refine ⟨?_, fun text htext => ⟨left, right, hsum, htext.symm⟩⟩
      rw [if_neg (by simpa using hdefine), hsum]
  next => exact ⟨rfl, fun _ h => by cases h⟩

/-- **The header and the keymap agree on the number of lights.** The header declares it exactly if
the keymap has a light table. The declared number is that of all lights and of the colors in each row
of the table, and declared numbers for halves sum up to it. -/
theorem headers_agree_on_lights {info : Info} {keyboard : Datum} {name? : Option String}
    {baseConfig : String} (hboard : (info.toBoard keyboard name? baseConfig).2 = .ok c.board)
    (hcoordinates : c.coordinates = .ofGeometry c.board.geometry)
    (hsplit : c.options.lightCountDefine ≠ "RGB_MATRIX_SPLIT")
    (hcount : c.options.lightCountDefine ≠ "DYNAMIC_KEYMAP_LAYER_COUNT") :
    let total := c.board.geometry.totalLights
    let declared? := c.derivedDeclarations.lookup c.options.lightCountDefine
    (declared?.isSome = true ↔ ∃ layers lights, tableHeading layers lights ∈ c.lightingLines) ∧
    (∀ value, declared? = some value → value = Text.intText total ∧
      StartsTable c.lightingLines c.layout.layers value total.toNat) ∧
    ∀ text, c.derivedDeclarations.lookup "RGB_MATRIX_SPLIT" = some text → ∃ left right,
      left + right = total ∧ text = halvesText left right := by
  have hlights : c.hasLights =
      (c.board.geometry.hasLighting && c.board.geometry.totalLights != 0) := by
    rw [hasLights, hcoordinates]
    rfl
  obtain ⟨hdeclared, hhalves⟩ := lookup_lightDeclarations hsplit fun left right =>
    Info.add_of_splitLightCounts? hboard
  rw [← hlights] at hdeclared
  rw [lookup_derivedDeclarations hcount, lookup_derivedDeclarations (by decide), hdeclared]
  cases hlit : c.hasLights with
  | false =>
    have hnone : c.lightingLines = [] := by
      rw [lightingLines, hlit]
      rfl
    rw [hnone]
    refine ⟨⟨fun h => (by cases h), ?_⟩, fun _ h => (by cases h), hhalves⟩
    rintro ⟨_, _, hmem⟩
    cases hmem
  | true =>
    have htable := startsTable_lightingLines hlit
    rw [hcoordinates] at htable
    refine ⟨⟨fun _ => ?_, fun _ => rfl⟩, ?_, hhalves⟩
    · obtain ⟨row, rest, hlines, -⟩ := htable
      exact ⟨_, _, hlines ▸ List.mem_cons_of_mem _ List.mem_cons_self⟩
    · rintro value ⟨⟩
      exact ⟨rfl, htable⟩

def halvedLights : Info :=
  { twinLights with
    lighting? := some { lights := twinLights.lights, splitCounts? := some (2, 1) } }

theorem headers_agree_on_lights_halvedLights :
    ∃ c : Compilation, (halvedLights.toBoard .null).2 = .ok c.board ∧
      c.derivedDeclarations.lookup c.options.lightCountDefine = some "3" ∧
      c.derivedDeclarations.lookup "RGB_MATRIX_SPLIT" = some (halvesText 2 1) ∧
      StartsTable c.lightingLines c.layout.layers "3" 3 := by
  obtain ⟨board, hboard⟩ : ∃ board, (halvedLights.toBoard .null).2 = .ok board := ⟨_, rfl⟩
  let c : Compilation := { cornerKeymap with board, coordinates := .ofGeometry board.geometry }
  have hfree : ∀ name ∈ ["RGB_MATRIX_SPLIT", "DYNAMIC_KEYMAP_LAYER_COUNT"],
      cornerKeymap.options.lightCountDefine ≠ name := by decide
  obtain ⟨-, htable, -⟩ := headers_agree_on_lights (c := c) hboard rfl (hfree _ (.head _))
    (hfree _ (.tail _ (.head _)))
  refine ⟨c, hboard, ?_⟩
  cases hboard
  have hdeclared : c.derivedDeclarations.lookup c.options.lightCountDefine = some "3" := by
    decide +kernel
  exact ⟨hdeclared, rfl, (htable _ hdeclared).2⟩

end Compilation

end Keyforge.Firmware
