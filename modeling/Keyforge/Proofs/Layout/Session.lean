import Keyforge.Layout.Session
import Keyforge.Proofs.Layout.Arranged
import Keyforge.Proofs.Layout.Fits
import Keyforge.Proofs.Result

/-!
# Changes keep layouts orderly

What the changes of a layout keep if keys are values. A layout is `Kept` by them, whatever they are
given: its layers stay numbered, no name is used twice, and the keys of each layer stay as they have
to be. `Resolved` says that no category is missing, which holds as long as new layers and keys name
only categories that are there (`NamesKnown`).
-/

namespace Keyforge

open Datum.Verdict

variable {layer : Layer} {changed : Layout} {l : Layout} {edit : Edit Key}

namespace Layout

/-- The layers of a layout are numbered and their keys are as `Q` says, and no name is used twice. -/
structure Kept (Q : List (Position × Key) → Prop) (l : Layout) : Prop where
  layers_ne : l.layers ≠ []
  numbered : l.Numbered
  ids : (l.layers.filterMap (·.id?)).Nodup
  categories : (l.categories.map (·.id)).Nodup
  tapDances : (l.tapDances.map (·.enumerator)).Nodup
  keys : ∀ layer ∈ l.layers, Q layer.keys

/-- The layers of a layout are numbered and their keys are in order, and no name is used twice. -/
abbrev Orderly (l : Layout) : Prop := l.Kept Layer.InOrder

/-- The layers of a layout are numbered and their keys are in reading order, whatever their slots,
and no name is used twice. -/
abbrev Structured (l : Layout) : Prop := l.Kept Layer.Placed

/-- No layer and no key refers to a category that is not defined. -/
def Resolved (l : Layout) : Prop := ∀ u ∈ l.categoryUses, u.id ∈ l.categories.map (·.id)

/-- The categories that a change names for a new layer or key. -/
def givenCategories (l : Layout) : Edit Key → List String
  | .addLayer name options keys? =>
    match l.newLayer name options keys? with
    | .ok layer => layer.categoryIds
    | .faults _ => []
  | .setKey _ key => key.category?.toList
  | _ => []

def NamesKnown (l : Layout) (edit : Edit Key) : Prop :=
  ∀ id ∈ l.givenCategories edit, id ∈ l.categories.map (·.id)

instance (l : Layout) (edit : Edit Key) : Decidable (l.NamesKnown edit) :=
  inferInstanceAs (Decidable (∀ id ∈ _, _))

/-! ### New layers -/

theorem draftLayer_eq_ok {name : Datum} {options : List (Datum × Datum)}
    {keys? : Option (List (Position × Key))} {draft : Layer}
    (h : l.draftLayer name options keys? = .ok draft) :
    draft.index = l.layers.length ∧ (draft.keys.map Prod.fst).Nodup ∧
      ∀ given, keys? = some given → draft.keys = Pairs.ofList given := by
  simp only [draftLayer, Layer.draft, seq_eq_ok_iff, functor_map_eq] at h
  obtain ⟨_, keys, ⟨_, _, ⟨_, _, ⟨_, _, ⟨_, _, ⟨_, _, hnumber, -, rfl⟩, -, rfl⟩, -, rfl⟩, -, rfl⟩,
    -, rfl⟩, hkeys, rfl⟩ := h
  obtain ⟨index, hindex, rfl⟩ := Datum.Verdict.map_eq_ok_iff.mp hnumber
  -- the number stands first among the entries, so that it is not taken from the options
  have hnext : index = l.layers.length := by
    cases hindex
    rfl
  refine ⟨hnext, ?_⟩
  cases keys? with
  | some given =>
    cases hkeys
    refine ⟨Pairs.nodup_ofList given, fun other hother => ?_⟩
    cases hother
    rfl
  | none =>
    refine ⟨?_, fun given hgiven => by cases hgiven⟩
    change Layer.keysOf _ = _ at hkeys
    unfold Layer.keysOf Datum.withDefault at hkeys
    split at hkeys
    next value _ =>
      have hkeys := within_eq_ok_iff.mp hkeys
      unfold Datum.Decoder.mapBy at hkeys
      split at hkeys
      · obtain ⟨items, -, rfl⟩ := Datum.Verdict.map_eq_ok_iff.mp hkeys
        exact Pairs.nodup_ofList items
      · cases hkeys
    next =>
      cases hkeys
      exact List.nodup_nil

theorem newLayer_eq_ok {name : Datum} {options : List (Datum × Datum)}
    {keys? : Option (List (Position × Key))} (h : l.newLayer name options keys? = .ok layer) :
    layer.index = l.layers.length ∧ Layer.InOrder layer.keys := by
  obtain ⟨draft, hdraft, hchecked⟩ := andThen_eq_ok_iff.mp h
  obtain ⟨hnext, hnodup, -⟩ := draftLayer_eq_ok hdraft
  obtain ⟨rfl, hfiled⟩ := Layer.filed_of_checkKeys hchecked hnodup
  exact ⟨hnext, Layer.inOrder_arrange hfiled⟩

/-! ### Changes of layers -/

theorem mem_modify {f : α → α} {items : List α} {index : Nat} {a : α}
    (h : a ∈ items.modify index f) : ∃ original ∈ items, a = original ∨ a = f original := by
  obtain ⟨i, hi⟩ := List.mem_iff_getElem?.mp h
  rw [List.getElem?_modify] at hi
  obtain ⟨original, horiginal, rfl⟩ := Option.map_eq_some_iff.mp hi
  refine ⟨original, List.mem_of_getElem? horiginal, ?_⟩
  by_cases hplace : index = i
  · exact .inr (if_pos hplace)
  · exact .inl (if_neg hplace)

theorem map_id?_renumber (layers : List Layer) :
    (renumber layers).map Layer.id? = layers.map Layer.id? := by
  refine List.ext_getElem? fun i => ?_
  rw [List.getElem?_map, renumber, List.getElem?_mapIdx, List.getElem?_map, Option.map_map]
  rfl

theorem mem_renumber {layers : List Layer} (h : layer ∈ renumber layers) :
    ∃ original ∈ layers, ∃ n : Int, layer = { original with index := n } := by
  obtain ⟨i, hi, rfl⟩ := List.mem_mapIdx.mp h
  exact ⟨_, List.getElem_mem hi, i, rfl⟩

theorem addLayer_eq_ok_iff :
    l.addLayer layer = .ok changed ↔ changed = { l with layers := l.layers ++ [layer] } ∧
      ∀ id, layer.id? = some id → id ∉ l.layers.filterMap (·.id?) := by
  unfold addLayer
  cases hid : layer.id? with
  | none => simp [eq_comm]
  | some id =>
    simp only [Option.some.injEq, forall_eq', ← has_layerIds_iff]
    split
    next hused =>
      constructor
      · intro h
        cases h
      · intro h
        exact absurd hused h.2
    next hfree =>
      constructor
      · intro h
        cases h
        exact ⟨rfl, hfree⟩
      · intro h
        rw [h.1]

theorem appendLayer_eq_ok {name : Datum} {options : List (Datum × Datum)}
    {keys? : Option (List (Position × Key))} (h : l.appendLayer name options keys? = .ok changed) :
    ∃ layer, l.newLayer name options keys? = .ok layer ∧ l.addLayer layer = .ok changed := by
  unfold appendLayer at h
  split at h
  · cases h
  · split at h
    next layer hlayer => exact ⟨layer, hlayer, h⟩
    next => cases h

theorem removeLayer_eq_ok {index : Int} {removed : Layer}
    (h : l.removeLayer index = .ok (removed, changed)) :
    0 < index ∧ index.toNat < l.layers.length ∧
      changed = { l with layers := renumber (l.layers.eraseIdx index.toNat) } := by
  unfold removeLayer layerAt? at h
  split at h
  · cases h
  next hbase =>
    split at h
    · cases h
    next layer hlayer =>
      cases h
      split at hlayer
      · cases hlayer
      next hpos =>
        obtain ⟨hlt, -⟩ := List.getElem?_eq_some_iff.mp hlayer
        exact ⟨by omega, hlt, rfl⟩

namespace Kept

variable {Q : List (Position × Key) → Prop} (h : l.Kept Q)

include h

theorem withLayers {layers : List Layer}
    (hindex : layers.map Layer.index = l.layers.map Layer.index)
    (hid : layers.map Layer.id? = l.layers.map Layer.id?)
    (hkeys : ∀ layer ∈ layers, Q layer.keys) : { l with layers }.Kept Q := by
  refine { h with layers_ne := ?_, numbered := fun i layer hlayer => ?_, ids := ?_, keys := hkeys }
  · intro hnil
    rw [show layers = [] from hnil, List.map_nil, eq_comm, List.map_eq_nil_iff] at hindex
    exact h.layers_ne hindex
  · have hat := congrArg (·[i]?) hindex
    simp only [List.getElem?_map, show layers[i]? = some layer from hlayer, Option.map_some] at hat
    obtain ⟨original, horiginal, heq⟩ := Option.map_eq_some_iff.mp hat.symm
    rw [← heq]
    exact h.numbered i original horiginal
  · show (layers.filterMap (·.id?)).Nodup
    rw [filterMap_id?_congr hid]
    exact h.ids

theorem mapLayers {f : Layer → Layer}
    (hf : ∀ layer, (f layer).index = layer.index ∧ (f layer).id? = layer.id?)
    (hkeys : ∀ layer, Q layer.keys → Q (f layer).keys) :
    { l with layers := l.layers.map f }.Kept Q := by
  refine h.withLayers ?_ ?_ ?_
  · simp [(hf _).1, Function.comp_def]
  · simp [(hf _).2, Function.comp_def]
  · intro layer hlayer
    obtain ⟨original, horiginal, rfl⟩ := List.mem_map.mp hlayer
    exact hkeys original (h.keys original horiginal)

theorem modifyLayer {f : Layer → Layer}
    (hf : ∀ layer, (f layer).index = layer.index ∧ (f layer).id? = layer.id?)
    (hkeys : ∀ layer, Q layer.keys → Q (f layer).keys) (index : Nat) :
    (l.modifyLayer index f).Kept Q := by
  have hmap : ∀ {β : Type} (view : Layer → β), (∀ layer, view (f layer) = view layer) →
      (l.layers.modify index f).map view = l.layers.map view := by
    intro β view hview
    refine List.ext_getElem? fun i => ?_
    rw [List.getElem?_map, List.getElem?_map, List.getElem?_modify]
    cases l.layers[i]? with
    | none => rfl
    | some layer => by_cases hi : index = i <;> simp [hi, hview]
  refine h.withLayers (hmap _ fun layer => (hf layer).1) (hmap _ fun layer => (hf layer).2) ?_
  intro layer hlayer
  obtain ⟨original, horiginal, hlayer⟩ := mem_modify hlayer
  rcases hlayer with rfl | rfl
  · exact h.keys layer horiginal
  · exact hkeys original (h.keys original horiginal)

/-! ### Each change -/

theorem addLayer (hindex : layer.index = l.layers.length) (hkeys : Q layer.keys)
    (hchanged : l.addLayer layer = .ok changed) : changed.Kept Q := by
  obtain ⟨rfl, hnew⟩ := addLayer_eq_ok_iff.mp hchanged
  refine { h with
    layers_ne := by simp, numbered := index_of_getElem?_append h.numbered hindex, ids := ?_
    keys := ?_ }
  · rw [List.filterMap_append]
    cases hid : layer.id? with
    | none => simpa [hid] using h.ids
    | some id => simpa [hid] using h.ids.concat (hnew id hid)
  · exact forall_mem_concat.mpr ⟨h.keys, hkeys⟩

theorem removeLayer {index : Int} {removed : Layer}
    (hchanged : l.removeLayer index = .ok (removed, changed)) : changed.Kept Q := by
  obtain ⟨hpos, hlt, rfl⟩ := removeLayer_eq_ok hchanged
  have hsub := List.eraseIdx_sublist l.layers index.toNat
  refine { h with layers_ne := ?_, numbered := fun i other hother => ?_, ids := ?_, keys := ?_ }
  · -- the base layer is left at least
    refine List.ne_nil_of_length_pos ?_
    rw [renumber, List.length_mapIdx, List.length_eraseIdx, if_pos hlt]
    omega
  · rw [renumber, List.getElem?_mapIdx] at hother
    obtain ⟨original, -, rfl⟩ := Option.map_eq_some_iff.mp hother
    rfl
  · show ((renumber _).filterMap (·.id?)).Nodup
    rw [filterMap_id?_congr (map_id?_renumber _)]
    exact h.ids.sublist (hsub.filterMap _)
  · intro other hother
    obtain ⟨original, horiginal, n, rfl⟩ := mem_renumber hother
    exact h.keys original (hsub.subset horiginal)

theorem addCategory {category : Category}
    (hchanged : l.addCategory category = .ok changed) : changed.Kept Q := by
  unfold Layout.addCategory at hchanged
  split at hchanged
  · cases hchanged
  next hfree =>
    cases hchanged
    refine { h with categories := ?_ }
    have hnew : category.id ∉ l.categories.map (·.id) := by simpa [category?] using hfree
    simpa using h.categories.concat hnew

theorem removeCategory (hQ : Layer.Stable Q) (id : String) : (l.removeCategory id).2.Kept Q := by
  unfold Layout.removeCategory
  split
  · exact h
  next category hcategory =>
    have hlayers := h.mapLayers (f := forgetInLayer id) (fun _ => ⟨rfl, rfl⟩)
      fun _ hkeys => hQ.map (f := forgetInKey id) hkeys fun _ => ⟨rfl, rfl⟩
    exact { hlayers with
      categories := h.categories.sublist (List.erase_sublist.map _) }

theorem addTapDance {tapDance : TapDance}
    (hchanged : l.addTapDance tapDance = .ok changed) : changed.Kept Q := by
  unfold Layout.addTapDance at hchanged
  split at hchanged
  · cases hchanged
  next hfree =>
    cases hchanged
    refine { h with tapDances := ?_ }
    have hnew : tapDance.enumerator ∉ l.tapDances.map (·.enumerator) := by simpa using hfree
    simpa using h.tapDances.concat hnew

theorem bindLights (hQ : Layer.Stable Q) (coordinates : Coordinates) :
    (l.bindLights coordinates).Kept Q :=
  h.mapLayers (f := bindLayer coordinates) (fun _ => ⟨rfl, rfl⟩) fun _ hkeys =>
    hQ.map (f := fun key => { key with light? := coordinates.lightOf? key.position }) hkeys
      fun _ => ⟨rfl, rfl⟩

theorem edited (hQ : Layer.Stable Q) (hchanged : l.edited edit = .ok changed) : changed.Kept Q := by
  cases edit with
  | addLayer name options keys? =>
    obtain ⟨layer, hlayer, hadded⟩ := appendLayer_eq_ok hchanged
    obtain ⟨hindex, hkeys⟩ := newLayer_eq_ok hlayer
    exact h.addLayer hindex (hQ.of_inOrder hkeys) hadded
  | removeLayer index =>
    obtain ⟨⟨removed, changed⟩, hremoved, rfl⟩ := Keyforge.map_eq_ok_iff.mp hchanged
    exact h.removeLayer hremoved
  | addCategory category => exact h.addCategory hchanged
  | removeCategory id =>
    cases hchanged
    exact h.removeCategory hQ id
  | addTapDance tapDance => exact h.addTapDance hchanged
  | bindLights coordinates =>
    cases hchanged
    exact h.bindLights hQ coordinates
  | setKey index key =>
    cases hchanged
    exact h.modifyLayer (f := fun layer => layer.setKey key) (fun _ => ⟨rfl, rfl⟩)
      (fun _ hkeys => hQ.of_inOrder ((hQ.placed hkeys).setKey key)) index
  | removeKey index p =>
    cases hchanged
    exact h.modifyLayer (f := fun layer => layer.removeKey p) (fun _ => ⟨rfl, rfl⟩)
      (fun _ hkeys => hQ.of_inOrder ((hQ.placed hkeys).removeKey p)) index

end Kept

/-! ### References to categories -/

theorem resolved_iff : l.Resolved ↔
    ∀ layer ∈ l.layers, ∀ id ∈ layer.categoryIds, id ∈ l.categories.map (·.id) := by
  constructor
  · intro h layer hlayer id hid
    rw [← map_id_layerCategoryUses] at hid
    obtain ⟨u, hu, rfl⟩ := List.mem_map.mp hid
    exact h u (List.mem_flatMap.mpr ⟨layer, hlayer, hu⟩)
  · intro h u hu
    obtain ⟨layer, hlayer, hu⟩ := List.mem_flatMap.mp hu
    refine h layer hlayer u.id ?_
    rw [← map_id_layerCategoryUses]
    exact List.mem_map_of_mem hu

theorem mem_categoryIds_of_mem_setKey {key : Key} {id : String}
    (h : id ∈ (layer.setKey key).categoryIds) :
    key.category? = some id ∨ id ∈ layer.categoryIds := by
  rw [Layer.mem_categoryIds] at h ⊢
  rcases h with h | ⟨entry, hentry, hid⟩
  · exact .inr (.inl h)
  · obtain ⟨original, hmem, slot, rfl⟩ := Layer.mem_arrange hentry
    rcases Pairs.mem_put hmem with rfl | hmem
    · exact .inl hid
    · exact .inr (.inr ⟨original, hmem, hid⟩)

theorem mem_categoryIds_of_mem_removeKey {p : Position} {id : String}
    (h : id ∈ (layer.removeKey p).categoryIds) : id ∈ layer.categoryIds := by
  rw [Layer.mem_categoryIds] at h ⊢
  rcases h with h | ⟨entry, hentry, hid⟩
  · exact .inl h
  · obtain ⟨original, hmem, slot, rfl⟩ := Layer.mem_arrange hentry
    exact .inr ⟨original, List.mem_of_mem_filter hmem, hid⟩

theorem forget_eq_some_iff {id other : String} {category? : Option String} :
    forget id category? = some other ↔ category? = some other ∧ other ≠ id := by
  unfold forget
  split
  next h =>
    rw [beq_iff_eq.mp h, Option.some.injEq]
    constructor
    · intro hnone
      cases hnone
    · intro hother
      exact absurd hother.1.symm hother.2
  next h =>
    refine ⟨fun hother => ⟨hother, ?_⟩, And.left⟩
    rintro rfl
    exact h (beq_iff_eq.mpr hother)

theorem mem_categoryIds_of_mem_forgetInLayer {id other : String}
    (h : other ∈ (forgetInLayer id layer).categoryIds) :
    other ∈ layer.categoryIds ∧ other ≠ id := by
  rw [Layer.mem_categoryIds] at h ⊢
  rcases h with h | ⟨entry, hentry, hid⟩
  · obtain ⟨hother, hne⟩ := forget_eq_some_iff.mp h
    exact ⟨.inl hother, hne⟩
  · obtain ⟨original, horiginal, rfl⟩ := List.mem_map.mp hentry
    obtain ⟨hother, hne⟩ := forget_eq_some_iff.mp hid
    exact ⟨.inr ⟨original, horiginal, hother⟩, hne⟩

theorem categoryIds_bindLayer (coordinates : Coordinates) (layer : Layer) :
    (bindLayer coordinates layer).categoryIds = layer.categoryIds := by
  rw [Layer.categoryIds, bindLayer, List.filterMap_map]
  rfl

namespace Resolved

variable (h : l.Resolved)

include h

theorem modifyLayer {f : Layer → Layer}
    (hf : ∀ layer, ∀ id ∈ (f layer).categoryIds,
      id ∈ layer.categoryIds ∨ id ∈ l.categories.map (·.id)) (index : Nat) :
    (l.modifyLayer index f).Resolved := by
  refine resolved_iff.mpr fun layer hlayer id hid => ?_
  obtain ⟨original, horiginal, rfl | rfl⟩ := mem_modify hlayer
  · exact resolved_iff.mp h layer horiginal id hid
  · rcases hf original id hid with hid | hid
    · exact resolved_iff.mp h original horiginal id hid
    · exact hid

theorem addLayer (hknown : ∀ id ∈ layer.categoryIds, id ∈ l.categories.map (·.id))
    (hchanged : l.addLayer layer = .ok changed) : changed.Resolved := by
  obtain ⟨rfl, -⟩ := addLayer_eq_ok_iff.mp hchanged
  exact resolved_iff.mpr (forall_mem_concat.mpr ⟨resolved_iff.mp h, hknown⟩)

theorem removeLayer {index : Int} {removed : Layer}
    (hchanged : l.removeLayer index = .ok (removed, changed)) : changed.Resolved := by
  obtain ⟨-, -, rfl⟩ := removeLayer_eq_ok hchanged
  refine resolved_iff.mpr fun other hother => ?_
  obtain ⟨original, horiginal, n, rfl⟩ := mem_renumber hother
  exact resolved_iff.mp h original (List.mem_of_mem_eraseIdx horiginal)

theorem addCategory {category : Category}
    (hchanged : l.addCategory category = .ok changed) : changed.Resolved := by
  unfold Layout.addCategory at hchanged
  split at hchanged
  · cases hchanged
  · cases hchanged
    intro u hu
    rw [List.map_append]
    exact List.mem_append_left _ (h u hu)

theorem removeCategory (id : String) : (l.removeCategory id).2.Resolved := by
  unfold Layout.removeCategory
  split
  · exact h
  next category hcategory =>
    refine resolved_iff.mpr fun layer hlayer other hother => ?_
    obtain ⟨original, horiginal, rfl⟩ := List.mem_map.mp hlayer
    obtain ⟨hother, hne⟩ := mem_categoryIds_of_mem_forgetInLayer hother
    obtain ⟨named, hnamed, rfl⟩ := List.mem_map.mp (resolved_iff.mp h original horiginal other hother)
    have hid : category.id = id := by simpa using List.find?_some hcategory
    -- `other` is not the id that was forgotten, so its category is not the one that is erased
    refine List.mem_map_of_mem ((List.mem_erase_of_ne ?_).mpr hnamed)
    rintro rfl
    exact hne hid

theorem addTapDance {tapDance : TapDance}
    (hchanged : l.addTapDance tapDance = .ok changed) : changed.Resolved := by
  unfold Layout.addTapDance at hchanged
  split at hchanged
  · cases hchanged
  · cases hchanged
    exact h

theorem bindLights (coordinates : Coordinates) : (l.bindLights coordinates).Resolved := by
  refine resolved_iff.mpr fun layer hlayer => ?_
  obtain ⟨original, horiginal, rfl⟩ := List.mem_map.mp hlayer
  rw [categoryIds_bindLayer]
  exact resolved_iff.mp h original horiginal

/-- A change that names only categories that are defined leaves no reference unresolved. -/
theorem edited (hknown : l.NamesKnown edit)
    (hchanged : l.edited edit = .ok changed) : changed.Resolved := by
  cases edit with
  | addLayer name options keys? =>
    obtain ⟨layer, hlayer, hadded⟩ := appendLayer_eq_ok hchanged
    refine h.addLayer (fun id hid => hknown id ?_) hadded
    unfold givenCategories
    dsimp only
    rw [hlayer]
    exact hid
  | removeLayer index =>
    obtain ⟨⟨removed, changed⟩, hremoved, rfl⟩ := Keyforge.map_eq_ok_iff.mp hchanged
    exact h.removeLayer hremoved
  | addCategory category => exact h.addCategory hchanged
  | removeCategory id =>
    cases hchanged
    exact h.removeCategory id
  | addTapDance tapDance => exact h.addTapDance hchanged
  | bindLights coordinates =>
    cases hchanged
    exact h.bindLights coordinates
  | setKey index key =>
    cases hchanged
    refine h.modifyLayer (fun layer id hid => ?_) index
    rcases mem_categoryIds_of_mem_setKey hid with hid | hid
    · exact .inr (hknown id (Option.mem_toList.mpr hid))
    · exact .inl hid
  | removeKey index p =>
    cases hchanged
    exact h.modifyLayer (fun layer id hid => .inl (mem_categoryIds_of_mem_removeKey hid)) index

end Resolved

/-! ### Steps -/

theorem perform_induction {P : Layout → Prop} (h : P l)
    (hedited : ∀ changed, l.edited edit = .ok changed → P changed) : P (l.perform edit).1 := by
  unfold perform
  split
  next changed hchanged => exact hedited changed hchanged
  next => exact h

/-- Every step keeps what changes keep. -/
theorem Kept.perform {Q : List (Position × Key) → Prop} (h : l.Kept Q) (hQ : Layer.Stable Q)
    (edit : Edit Key) : (l.perform edit).1.Kept Q :=
  perform_induction h fun _ hchanged => h.edited hQ hchanged

theorem Resolved.perform (h : l.Resolved) (hknown : l.NamesKnown edit) :
    (l.perform edit).1.Resolved :=
  perform_induction h fun _ hchanged => h.edited hknown hchanged

theorem perform_of_refused {e : EditError} (h : (l.perform edit).2 = some e) :
    (l.perform edit).1 = l := by
  unfold perform at h ⊢
  split at h
  · cases h
  · rfl

theorem Kept.check_eq_ok {Q : List (Position × Key) → Prop} (h : l.Kept Q) (hresolved : l.Resolved) :
    l.check = .ok l :=
  check_eq_ok_iff.mpr ⟨h.layers_ne, h.numbered, h.categories, h.ids, h.tapDances, hresolved⟩

def letterLayout : Layout where
  metadata := { name := "Letters", created := { date := ⟨2024, 1, 2⟩ },
                modified := { date := ⟨2024, 1, 2⟩ } }
  layers := [{ index := 0, name := "Base", keys :=
    [(⟨0, 1⟩, { keycode := "KC_B", position := ⟨0, 1⟩, category? := some "letters" })] }]
  categories := [{ id := "letters", name := "Letters", color := .white }]

theorem orderly_letterLayout : letterLayout.Orderly where
  layers_ne := by decide
  numbered i layer hlayer := by
    cases i with
    | zero =>
      cases hlayer
      rfl
    | succ i => cases hlayer
  ids := by decide
  categories := by decide
  tapDances := by decide
  keys layer hlayer := by
    obtain rfl := List.mem_singleton.mp hlayer
    refine ⟨⟨by decide, by decide⟩, fun i entry hentry => ?_⟩
    cases i with
    | zero =>
      cases hentry
      rfl
    | succ i => cases hentry

end Layout

end Keyforge
