import Keyforge.Layout.Colors
import Keyforge.Proofs.Board.Coordinates
import Keyforge.Proofs.Layout.Fits

/-!
# The table of lights

The table of lights has one row for each layer (`lookup_lightTable`) and in it one color for each
light (`isSome_tableColor?_iff`).
-/

namespace Keyforge.Layout

variable {l : Layout} {layer : Layer}

/-! ### Colors of positions -/

/-- The colors a position of a layer may have, of which the first that is there counts: the key's
own, that of its category, that of the layer's category if the layer uses it, and the layer's own.
-/
def colorChoices (l : Layout) (layer : Layer) (p : Position) : List (Option Color) :=
  [(layer.keyAt? p).bind Key.color?,
    ((layer.keyAt? p).bind Key.category?).bind fun id => (l.category? id).map Category.color,
    if layer.colorsEnabled then
      layer.category?.bind fun id => (l.category? id).map Category.color
    else none,
    layer.color?]

theorem categoryColor?_eq_bind (l : Layout) (id? : Option String) :
    l.categoryColor? id? = id?.bind fun id => (l.category? id).map Category.color := by
  cases id? <;> rfl

theorem findSome?_id_cons (choice : Option Color) (rest : List (Option Color)) :
    (choice :: rest).findSome? id = choice.or (rest.findSome? id) := by
  cases choice <;> rfl

theorem bind_keyColor? (l : Layout) (key? : Option Key) :
    key?.bind l.keyColor? =
      (key?.bind Key.color?).or (l.categoryColor? (key?.bind Key.category?)) := by
  cases key? with
  | none => rfl
  | some key =>
    rw [Option.bind_some, Option.bind_some, Option.bind_some, keyColor?, Option.orElse_eq_orElse,
      Option.orElse_eq_or]

/-- The color of a position is the first of its choices. -/
theorem colorIn_eq_first (l : Layout) (layer : Layer) (p : Position) (fallback : Color) :
    l.colorIn layer p fallback = ((l.colorChoices layer p).findSome? id).getD fallback := by
  rw [colorIn, bind_keyColor?, layerColor, Option.orElse_eq_orElse, Option.orElse_eq_or,
    colorChoices, ← categoryColor?_eq_bind, ← categoryColor?_eq_bind]
  simp only [findSome?_id_cons, List.findSome?_nil, Option.or_none, Option.getD_or]

/-! ### Rows of the table -/

theorem length_lightColors (l : Layout) (c : Coordinates) (fallback : Color) (layer : Layer) :
    (l.lightColors c fallback layer).length = c.lightCount.toNat := by
  simp [lightColors]

theorem lightColor_of_bare {c : Coordinates} {light : Nat} (hbare : c.overLight? light = none)
    (fallback : Color) : l.lightColor c layer fallback light = l.layerColor layer fallback := by
  rw [lightColor, hbare]

/-- The color a table has for a light on the layer with a number. -/
def tableColor? (table : List (Int × List Color)) (index light : Int) : Option Color :=
  (table.lookup index).bind fun row => Coordinates.itemAt? row light

variable (h : l.Numbered)

include h

theorem lightTable_eq_map (c : Coordinates) (fallback : Color) :
    l.lightTable c fallback =
      l.layers.map fun layer => (layer.index, l.lightColors c fallback layer) := by
  have hnames : (l.layers.map fun layer => (layer.index, l.lightColors c fallback layer)).map
      Prod.fst = l.layers.map Layer.index := by
    rw [List.map_map]
    rfl
  rw [lightTable, Pairs.ofList, Pairs.putAll_eq_append (hnames ▸ h.nodup_index)
    (List.forall_mem_nil _), List.nil_append]

theorem map_fst_lightTable (c : Coordinates) (fallback : Color) :
    (l.lightTable c fallback).map Prod.fst = l.layers.map Layer.index := by
  rw [lightTable_eq_map h, List.map_map]
  rfl

section Layer

variable (hlayer : layer ∈ l.layers)

include hlayer

theorem colorAt_index (p : Position)
    (fallback : Color) : l.colorAt layer.index p fallback = l.colorIn layer p fallback := by
  rw [colorAt, h.layerAt?_index hlayer]

theorem lookup_lightTable (c : Coordinates) (fallback : Color) :
    (l.lightTable c fallback).lookup layer.index = some (l.lightColors c fallback layer) := by
  rw [Pairs.lookup_eq_some_iff (map_fst_lightTable h c fallback ▸ h.nodup_index),
    lightTable_eq_map h]
  exact List.mem_map_of_mem hlayer

theorem tableColor?_eq_itemAt? (c : Coordinates) (fallback : Color) (light : Int) :
    tableColor? (l.lightTable c fallback) layer.index light =
      Coordinates.itemAt? (l.lightColors c fallback layer) light := by
  rw [tableColor?, lookup_lightTable h hlayer, Option.bind_some]

/-! ### Colors of lights -/

theorem tableColor?_eq_lightColor (c : Coordinates)
    (fallback : Color) {light : Int} (hnonneg : 0 ≤ light) (hlt : light < c.lightCount) :
    tableColor? (l.lightTable c fallback) layer.index light =
      some (l.lightColor c layer fallback light.toNat) := by
  obtain ⟨n, rfl⟩ := Int.eq_ofNat_of_zero_le hnonneg
  rw [tableColor?_eq_itemAt? h hlayer, Coordinates.itemAt?_natCast, lightColors, List.getElem?_map,
    List.getElem?_range (by omega)]
  rfl

theorem lightColor_of_over {c : Coordinates}
    {light : Nat} {p : Position} (hover : c.overLight? light = some p) (fallback : Color) :
    l.lightColor c layer fallback light = l.colorAt layer.index p fallback := by
  rw [lightColor, hover]
  show (if _ then _ else _) = _
  split
  · rfl
  next hkey =>
    have hnone : layer.keyAt? p = none := by simpa using hkey
    rw [colorAt_index h hlayer, colorIn, hnone]
    rfl

variable {g : Geometry}

theorem tableColor?_of_key (hv : g.Valid) {k : KeyShape} {light : Int} (hk : k ∈ g.keys)
    (hlight : k.light? = some light) (fallback : Color) :
    tableColor? (l.lightTable (.ofGeometry g) fallback) layer.index light =
      some (l.colorAt layer.index k.position fallback) := by
  have hmem : light ∈ g.keyLights := List.mem_filterMap.mpr ⟨k, hk, hlight⟩
  have hnonneg := hv.lights_nonneg light hmem
  have hover : (Coordinates.ofGeometry g).overLight? light.toNat = some k.position := by
    rw [Int.toNat_of_nonneg hnonneg]
    exact (Coordinates.overLight?_eq_some_iff hv).mpr ⟨k, hk, rfl, hlight⟩
  rw [tableColor?_eq_lightColor h hlayer (.ofGeometry g) fallback hnonneg (hv.lights_lt light hmem),
    lightColor_of_over h hlayer hover]

theorem tableColor?_of_bare (hv : g.Valid) {light : Int} (hnonneg : 0 ≤ light)
    (hlt : light < g.totalLights) (hbare : ∀ k ∈ g.keys, k.light? ≠ some light) (fallback : Color) :
    tableColor? (l.lightTable (.ofGeometry g) fallback) layer.index light =
      some (l.layerColor layer fallback) := by
  have hover : (Coordinates.ofGeometry g).overLight? light.toNat = none := by
    rw [Int.toNat_of_nonneg hnonneg, Option.eq_none_iff_forall_not_mem]
    intro p hp
    obtain ⟨k, hk, -, hlight⟩ := (Coordinates.overLight?_eq_some_iff hv).mp hp
    exact hbare k hk hlight
  rw [tableColor?_eq_lightColor h hlayer (.ofGeometry g) fallback hnonneg hlt,
    lightColor_of_bare hover]

end Layer

/-- The table has a color for every light on every layer and for nothing else. -/
theorem isSome_tableColor?_iff (c : Coordinates) (fallback : Color) (index light : Int) :
    (tableColor? (l.lightTable c fallback) index light).isSome ↔
      (∃ layer ∈ l.layers, layer.index = index) ∧ 0 ≤ light ∧ light < c.lightCount := by
  constructor
  · intro hentry
    obtain ⟨color, hcolor⟩ := Option.isSome_iff_exists.mp hentry
    obtain ⟨row, hrow, -⟩ := Option.bind_eq_some_iff.mp hcolor
    have hindex : index ∈ l.layers.map Layer.index :=
      map_fst_lightTable h c fallback ▸ List.mem_map_of_mem (Pairs.mem_of_lookup hrow)
    obtain ⟨layer, hlayer, rfl⟩ := List.mem_map.mp hindex
    rw [tableColor?_eq_itemAt? h hlayer, Coordinates.isSome_itemAt?_iff, length_lightColors]
      at hentry
    exact ⟨⟨layer, hlayer, rfl⟩, by omega⟩
  · rintro ⟨⟨layer, hlayer, rfl⟩, hlight⟩
    rw [tableColor?_eq_itemAt? h hlayer, Coordinates.isSome_itemAt?_iff, length_lightColors]
    omega

end Keyforge.Layout
