import Keyforge.Layout.Check

/-!
# Layouts that fit together

The requirements on a layout as a whole, one by one (`problem?_eq_none_iff`).
-/

namespace Keyforge.Layout

/-- The number of every layer is its place. -/
def Numbered (l : Layout) : Prop :=
  ∀ (i : Nat) (layer : Layer), l.layers[i]? = some layer → layer.index = i

/-- A layout whose parts fit together. -/
structure Fits (l : Layout) : Prop where
  layers_ne : l.layers ≠ []
  numbered : l.Numbered
  categories : (l.categories.map (·.id)).Nodup
  ids : (l.layers.filterMap (·.id?)).Nodup
  tapDances : (l.tapDances.map (·.enumerator)).Nodup
  uses : ∀ u ∈ l.categoryUses, u.id ∈ l.categories.map (·.id)

theorem misnumbered?_eq_none_iff {n : Nat} {layers : List Layer} :
    misnumbered? n layers = none ↔
      ∀ (i : Nat) (layer : Layer), layers[i]? = some layer → layer.index = (n + i : Nat) := by
  induction layers generalizing n with
  | nil => simp [misnumbered?]
  | cons first rest ih =>
    rw [misnumbered?]
    split
    next h =>
      rw [ih]
      constructor
      · intro hrest i layer hlayer
        cases i with
        | zero =>
          cases hlayer
          simpa using h
        | succ i =>
          have := hrest i layer hlayer
          omega
      · intro hall i layer hlayer
        have := hall (i + 1) layer hlayer
        omega
    next h =>
      refine ⟨nofun, fun hall => absurd ?_ h⟩
      simpa using hall 0 first rfl

theorem problem?_eq_none_iff {l : Layout} : l.problem? = none ↔ l.Fits := by
  unfold problem?
  split
  next h => exact ⟨nofun, fun fits => absurd (List.isEmpty_iff.mp h) fits.layers_ne⟩
  next hne =>
    have hne' : l.layers ≠ [] := by simpa using hne
    split
    next n layer hfound =>
      refine ⟨nofun, fun fits => ?_⟩
      have hnone : misnumbered? 0 l.layers = none :=
        misnumbered?_eq_none_iff.mpr fun i layer hlayer => by simpa using fits.numbered i layer hlayer
      rw [hnone] at hfound
      cases hfound
    next hnone =>
      have hnumbered : l.Numbered :=
        fun i layer hlayer => by simpa using misnumbered?_eq_none_iff.mp hnone i layer hlayer
      simp only [Bool.not_eq_true', ← Bool.not_eq_true, allDistinct_iff_nodup]
      split
      next h => exact ⟨nofun, fun fits => absurd fits.categories h⟩
      next hcategories =>
        split
        next h => exact ⟨nofun, fun fits => absurd fits.ids h⟩
        next hids =>
          split
          next h => exact ⟨nofun, fun fits => absurd fits.tapDances h⟩
          next htapDances =>
            rw [Option.map_eq_none_iff, List.find?_eq_none]
            simp only [List.contains_eq_mem, Bool.not_eq_true', decide_eq_false_iff_not,
              Classical.not_not] at *
            exact ⟨fun h => ⟨hne', hnumbered, hcategories, hids, htapDances, h⟩, (·.uses)⟩

theorem check_eq_ok_iff {l : Layout} : l.check = .ok l ↔ l.Fits := by
  rw [← problem?_eq_none_iff, check]
  cases l.problem? with
  | none => exact ⟨fun _ => rfl, fun _ => rfl⟩
  | some text => exact ⟨nofun, nofun⟩

/-! ### Layers by number -/

theorem index_of_getElem?_append {layers : List Layer} {layer : Layer}
    (h : ∀ (i : Nat) (other : Layer), layers[i]? = some other → other.index = i)
    (hindex : layer.index = layers.length) (i : Nat) (other : Layer)
    (hother : (layers ++ [layer])[i]? = some other) : other.index = i := by
  by_cases hi : i < layers.length
  · exact h i other ((List.getElem?_append_left hi).symm.trans hother)
  · -- the new layer is the only one behind the others
    rw [List.getElem?_append_right (Nat.not_lt.mp hi), List.getElem?_singleton] at hother
    split at hother
    · cases hother
      rw [hindex]
      omega
    · cases hother

namespace Numbered

variable {l : Layout} {layer : Layer}

theorem map_index (h : l.Numbered) :
    l.layers.map Layer.index = (List.range l.layers.length).map Int.ofNat := by
  refine List.ext_getElem? fun i => ?_
  rw [List.getElem?_map, List.getElem?_map]
  by_cases hi : i < l.layers.length
  · rw [List.getElem?_range hi, List.getElem?_eq_getElem hi]
    exact congrArg some (h i _ (List.getElem?_eq_getElem hi))
  · rw [List.getElem?_eq_none (by omega), List.getElem?_eq_none (by simpa using hi)]
    rfl

theorem nodup_index (h : l.Numbered) : (l.layers.map Layer.index).Nodup := by
  rw [h.map_index]
  exact List.Pairwise.map Int.ofNat (fun _ _ hne heq => hne (Int.ofNat.inj heq)) List.nodup_range

theorem layerAt?_index (h : l.Numbered) (hlayer : layer ∈ l.layers) :
    l.layerAt? layer.index = some layer := by
  obtain ⟨i, hi⟩ := List.mem_iff_getElem?.mp hlayer
  have hnonneg : ¬((i : Int) < 0) := by omega
  rw [h i layer hi, layerAt?, if_neg hnonneg, Int.toNat_natCast, hi]

end Numbered

/-! ### Layers by id -/

theorem filterMap_id?_congr {layers others : List Layer}
    (h : layers.map Layer.id? = others.map Layer.id?) :
    layers.filterMap (·.id?) = others.filterMap (·.id?) := by
  have hview : ∀ layers : List Layer,
      layers.filterMap (·.id?) = (layers.map Layer.id?).filterMap id := by
    intro layers
    rw [List.filterMap_map]
    rfl
  rw [hview, h, ← hview]

variable {l : Layout}

/-- A number is the place of the one layer with an id. -/
def IsNumberOf (l : Layout) (id : String) (n : Nat) : Prop :=
  n < l.layers.length ∧ ∀ i, l.layers[i]?.bind Layer.id? = some id ↔ i = n

def LayersKnown (l : Layout) (keycode : String) : Prop :=
  ∀ id ∈ Keycode.layerReferences keycode, Pairs.has id l.layerIds = true

theorem of_mem_layerIds (l : Layout) :
    ∀ pair ∈ l.layerIds, ∃ layer ∈ l.layers, layer.id? = some pair.1 ∧ layer.index = pair.2 := by
  refine List.foldlRecOn (motive := fun ids : List (String × Int) => ∀ pair ∈ ids,
    ∃ layer ∈ l.layers, layer.id? = some pair.1 ∧ layer.index = pair.2) l.layers _
    (List.forall_mem_nil _) fun ids hids layer hlayer pair h => ?_
  cases hid : layer.id? with
  | none =>
    simp only [hid] at h
    exact hids pair h
  | some id =>
    simp only [hid] at h
    rcases Pairs.mem_put h with rfl | h
    · exact ⟨layer, hlayer, hid, rfl⟩
    · exact hids pair h

theorem mem_foldl_iff {step : List (String × Int) → Layer → List (String × Int)} {id : String}
    (hstep : ∀ ids layer, id ∈ (step ids layer).map Prod.fst ↔
      id ∈ ids.map Prod.fst ∨ layer.id? = some id) (layers : List Layer)
    (ids : List (String × Int)) :
    id ∈ (layers.foldl step ids).map Prod.fst ↔
      id ∈ ids.map Prod.fst ∨ id ∈ layers.filterMap (·.id?) := by
  induction layers generalizing ids with
  | nil => simp
  | cons layer layers ih =>
    rw [List.foldl_cons, ih, hstep, or_assoc]
    simp only [List.mem_filterMap, List.mem_cons, exists_eq_or_imp]

theorem has_layerIds_iff {id : String} :
    Pairs.has id l.layerIds = true ↔ id ∈ l.layers.filterMap (·.id?) := by
  rw [Pairs.has_iff_mem, layerIds, mem_foldl_iff]
  · simp
  · intro ids layer
    cases hid : layer.id? with
    | none => simp
    | some other => simp [Pairs.mem_map_fst_put, or_comm, eq_comm]

theorem place_eq_of_id_eq (h : (l.layers.filterMap (·.id?)).Nodup) {i j : Nat} {id : String}
    (hi : l.layers[i]?.bind Layer.id? = some id) (hj : l.layers[j]?.bind Layer.id? = some id) :
    i = j := by
  have hnotLt : ∀ {i j : Nat}, l.layers[i]?.bind Layer.id? = some id →
      l.layers[j]?.bind Layer.id? = some id → ¬i < j := by
    intro i j hi hj hlt
    obtain ⟨a, ha, hida⟩ := Option.bind_eq_some_iff.mp hi
    obtain ⟨b, hb, hidb⟩ := Option.bind_eq_some_iff.mp hj
    obtain ⟨hia, rfl⟩ := List.getElem?_eq_some_iff.mp ha
    obtain ⟨hjb, rfl⟩ := List.getElem?_eq_some_iff.mp hb
    have hpairs := List.pairwise_iff_getElem.mp (List.pairwise_filterMap.mp h)
    exact hpairs i j hia hjb hlt id hida id hidb rfl
  have := hnotLt hi hj
  have := hnotLt hj hi
  omega

theorem exists_lookup_layerIds (hnumbered : l.Numbered)
    (hids : (l.layers.filterMap (·.id?)).Nodup) {id : String}
    (h : Pairs.has id l.layerIds = true) :
    ∃ n : Nat, l.layerIds.lookup id = some (n : Int) ∧ l.IsNumberOf id n := by
  obtain ⟨index, hindex⟩ := Pairs.exists_lookup_of_has h
  obtain ⟨layer, hlayer, hid, rfl⟩ := l.of_mem_layerIds _ (Pairs.mem_of_lookup hindex)
  obtain ⟨n, hn⟩ := List.mem_iff_getElem?.mp hlayer
  have hplace : l.layers[n]?.bind Layer.id? = some id := by rw [hn, Option.bind_some, hid]
  refine ⟨n, hnumbered n layer hn ▸ hindex, (List.getElem?_eq_some_iff.mp hn).1, fun i => ?_⟩
  exact ⟨fun hi => place_eq_of_id_eq hids hi hplace, fun hi => hi ▸ hplace⟩

end Keyforge.Layout

namespace Keyforge

/-! ### Categories -/

def Layer.categoryIds (layer : Layer) : List String :=
  layer.category?.toList ++ layer.keys.filterMap fun (_, key) => key.category?

theorem Layer.mem_categoryIds {layer : Layer} {id : String} :
    id ∈ layer.categoryIds ↔
      layer.category? = some id ∨ ∃ entry ∈ layer.keys, entry.2.category? = some id := by
  rw [categoryIds, List.mem_append, List.mem_filterMap, Option.mem_toList]

theorem Layout.map_id_layerCategoryUses (layer : Layer) :
    (layerCategoryUses layer).map (·.id) = layer.categoryIds := by
  have hlayer : ∀ category? : Option String,
      (category?.toList.map fun id => CategoryUse.mk layer none id).map (·.id) = category?.toList := by
    rintro (- | id) <;> rfl
  have hkey : ∀ key : Key,
      (key.category?.map fun id => CategoryUse.mk layer (some key) id).map (·.id) =
        key.category? := fun key => by
    cases key.category? <;> rfl
  simp only [layerCategoryUses, Layer.categoryIds, List.map_append, List.map_filterMap, hlayer, hkey]

theorem Layout.Fits.mem_categories {l : Layout} (h : l.Fits) {layer : Layer} (hlayer : layer ∈ l.layers)
    {id : String} (hid : id ∈ layer.categoryIds) : id ∈ l.categories.map (·.id) := by
  rw [← map_id_layerCategoryUses] at hid
  obtain ⟨u, hu, rfl⟩ := List.mem_map.mp hid
  exact h.uses u (List.mem_flatMap.mpr ⟨layer, hlayer, hu⟩)

end Keyforge
