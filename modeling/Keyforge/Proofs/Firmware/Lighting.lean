import Keyforge.Firmware.Lighting
import Keyforge.Proofs.Firmware.Keymap
import Keyforge.Proofs.Layout.Colors

/-!
# The light table as it is written

The lines behind the heading of the table are its rows in the order of the layers, and in a row the
colors stand in the order of the lights (`rows_lightingLines`).
-/

namespace Keyforge.Firmware.Compilation

variable {c : Compilation}

def lightRowText (index : Int) (colors : List Color) : String :=
  indent ++ "[" ++ Text.intText index ++ "] = \x7b " ++
    String.intercalate ", " (colors.map colorEntry) ++ " \x7d,"

/-- The lines between the heading of the table and its end are the rows of the layers. -/
theorem rows_lightingLines (hnumbered : c.layout.Numbered) (hlights : c.hasLights = true) :
    (c.lightingLines.drop 2).take c.layout.layers.length =
      (c.layout.layers.map (c.layout.lightColors c.coordinates c.fallback)).mapIdx
        fun i row => lightRowText i row := by
  have htake : (c.lightingLines.drop 2).take c.layout.layers.length =
      c.layout.layers.map (colorRow (c.layout.lightTable c.coordinates c.fallback)) := by
    rw [lightingLines, hlights, Bool.not_true, if_neg Bool.false_ne_true, List.append_assoc]
    exact List.take_left' (List.length_map _)
  rw [htake]
  refine List.ext_getElem? fun i => ?_
  rw [List.getElem?_mapIdx, List.getElem?_map, List.getElem?_map]
  cases hlayer : c.layout.layers[i]? with
  | none => rfl
  | some layer =>
    have hrow := Layout.lookup_lightTable hnumbered (List.mem_of_getElem? hlayer) c.coordinates
      c.fallback
    rw [Option.map_some, Option.map_some, Option.map_some, colorRow, hrow,
      hnumbered i layer hlayer]
    rfl

/-- **The light table is complete and has the right colors.** It has one color for each light on
each layer: that of the key's position on the layer, or that of the layer if there is no key above
the light. -/
theorem lightTable_complete {c : Compilation}
    (hcoordinates : c.coordinates = .ofGeometry c.board.geometry)
    (hcheck : c.board.geometry.check = .ok c.board.geometry) (hnumbered : c.layout.Numbered) :
    let table := c.layout.lightTable c.coordinates c.fallback
    (table.map Prod.fst).Nodup ∧
      (∀ index light, (Layout.tableColor? table index light).isSome ↔
        (∃ layer ∈ c.layout.layers, layer.index = index) ∧
          0 ≤ light ∧ light < c.board.geometry.totalLights) ∧
      (∀ layer ∈ c.layout.layers,
        (∀ k ∈ c.board.geometry.keys, ∀ light, k.light? = some light →
          Layout.tableColor? table layer.index light =
            some (c.layout.colorAt layer.index k.position c.fallback)) ∧
        (∀ light, 0 ≤ light → light < c.board.geometry.totalLights →
          (∀ k ∈ c.board.geometry.keys, k.light? ≠ some light) →
          Layout.tableColor? table layer.index light =
            some (c.layout.layerColor layer c.fallback)) ∧
        ∀ p, c.layout.colorAt layer.index p c.fallback =
          ((c.layout.colorChoices layer p).findSome? id).getD c.fallback) ∧
      (c.hasLights = true → ∃ rows : List (List Color),
        rows.length = c.layout.layers.length ∧
        (∀ (i : Nat) (row : List Color), rows[i]? = some row →
          row.length = c.board.geometry.totalLights.toNat ∧
          ∀ light : Nat, row[light]? = Layout.tableColor? table i light) ∧
        (c.lightingLines.drop 2).take c.layout.layers.length =
          rows.mapIdx fun i row => lightRowText i row) := by
  obtain ⟨-, hv⟩ := Geometry.valid_of_check hcheck
  have hcount : c.coordinates.lightCount = c.board.geometry.totalLights := by
    rw [hcoordinates]
    rfl
  intro table
  refine ⟨?_, fun index light => ?_, fun layer hlayer => ⟨?_, ?_, fun p => ?_⟩, fun hlights => ?_⟩
  · rw [Layout.map_fst_lightTable hnumbered]
    exact hnumbered.nodup_index
  · rw [Layout.isSome_tableColor?_iff hnumbered, hcount]
  · intro k hk light hlight
    show Layout.tableColor? (c.layout.lightTable c.coordinates c.fallback) _ _ = _
    rw [hcoordinates]
    exact Layout.tableColor?_of_key hnumbered hlayer hv hk hlight c.fallback
  · intro light hnonneg hlt hbare
    show Layout.tableColor? (c.layout.lightTable c.coordinates c.fallback) _ _ = _
    rw [hcoordinates]
    exact Layout.tableColor?_of_bare hnumbered hlayer hv hnonneg hlt hbare c.fallback
  · rw [Layout.colorAt_index hnumbered hlayer, Layout.colorIn_eq_first]
  · refine ⟨_, List.length_map _, fun i row hrow => ?_, rows_lightingLines hnumbered hlights⟩
    rw [List.getElem?_map] at hrow
    obtain ⟨layer, hlayer, rfl⟩ := Option.map_eq_some_iff.mp hrow
    refine ⟨by rw [Layout.length_lightColors, hcount], fun light => ?_⟩
    rw [← hnumbered i layer hlayer,
      Layout.tableColor?_eq_itemAt? hnumbered (List.mem_of_getElem? hlayer),
      Coordinates.itemAt?_natCast]

theorem numbered_cornerKeymap : cornerKeymap.layout.Numbered := by
  intro i layer hlayer
  match i with
  | 0 => cases hlayer; rfl
  | 1 => cases hlayer; rfl
  | _ + 2 => cases hlayer

theorem lightTable_complete_cornerKeymap :
    let table := cornerKeymap.layout.lightTable cornerKeymap.coordinates cornerKeymap.fallback
    cornerKeymap.board.geometry.check = .ok cornerKeymap.board.geometry ∧
      cornerKeymap.layout.Numbered ∧ (table.map Prod.fst).Nodup ∧
      Layout.tableColor? table 0 0 = some ⟨0, 0, 255⟩ ∧
      Layout.tableColor? table 0 1 = some .white ∧
      (Layout.tableColor? table 1 3).isSome = false := by
  obtain ⟨hnodup, hentries, hcolors, -⟩ :=
    lightTable_complete (c := cornerKeymap) rfl rfl numbered_cornerKeymap
  obtain ⟨hkey, hbare, -⟩ := hcolors _ List.mem_cons_self
  refine ⟨rfl, numbered_cornerKeymap, hnodup, ?_, ?_, ?_⟩
  · exact hkey _ (List.mem_cons_of_mem _ List.mem_cons_self) 0 rfl
  · exact hbare 1 (by decide) (by decide) (by decide)
  · rw [Bool.eq_false_iff]
    exact fun hsome => absurd ((hentries 1 3).mp hsome).2.2 (by decide)

end Keyforge.Firmware.Compilation
