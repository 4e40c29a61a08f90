import Keyforge.Proofs.Layout.Colors
import Keyforge.Proofs.Layout.Session

/-!
# Removing a category

Removing a category clears all references to it, on layers and on keys. `dropCategory` takes only
the entry away and leaves the references dangling. Colors pass over references that lead nowhere, so
both ways lead to the same colors (`colorAt_removeCategory`).
-/

namespace Keyforge.Layout

variable {l : Layout} {id : String}

/-- A layout without a category, in which the references to it are left as they are. -/
def dropCategory (l : Layout) (id : String) : Layout :=
  { l with categories := l.categories.filter (·.id != id) }

/-- A position of a layer has its color from a category: there is no color of the key's own, and the
key is in the category, or nothing about the key gives a color and the layer shows the category. -/
def TakesColor (l : Layout) (layer : Layer) (p : Position) (id : String) : Prop :=
  (l.category? id).isSome = true ∧ (layer.keyAt? p).bind Key.color? = none ∧
    ((layer.keyAt? p).bind Key.category? = some id ∨
      l.categoryColor? ((layer.keyAt? p).bind Key.category?) = none ∧
        layer.colorsEnabled = true ∧ layer.category? = some id)

instance (l : Layout) (layer : Layer) (p : Position) (id : String) :
    Decidable (l.TakesColor layer p id) :=
  inferInstanceAs (Decidable (_ ∧ _))

/-! ### What is removed -/

theorem forget_eq_filter (id : String) (category? : Option String) :
    forget id category? = category?.filter (· != id) := by
  cases category? with
  | none => rfl
  | some other => by_cases h : other = id <;> simp [forget, Option.filter, h]

theorem isSome_category?_iff : (l.category? id).isSome = true ↔ id ∈ l.categories.map (·.id) := by
  simp [category?]

theorem removeCategory_of_notMem (h : id ∉ l.categories.map (·.id)) :
    (l.removeCategory id).2 = l := by
  rw [← isSome_category?_iff, Bool.not_eq_true, Option.isSome_eq_false_iff, Option.isNone_iff_eq_none]
    at h
  rw [removeCategory, h]

theorem removeCategory_of_mem (hunique : (l.categories.map (·.id)).Nodup)
    (h : id ∈ l.categories.map (·.id)) :
    (l.removeCategory id).2 =
      { l.dropCategory id with layers := l.layers.map (forgetInLayer id) } := by
  obtain ⟨category, hcategory⟩ := Option.isSome_iff_exists.mp (isSome_category?_iff.mpr h)
  have hid : category.id = id := by simpa using List.find?_some hcategory
  have herase : l.categories.erase category = l.categories.filter (·.id != id) := by
    rw [(List.Nodup.of_map _ hunique).erase_eq_filter]
    refine List.filter_congr fun other hother => ?_
    have hsame : other = category ↔ other.id = id := by
      rw [← hid]
      exact ⟨congrArg _, fun heq => List.inj_on_of_nodup_map hunique hother
        (List.mem_of_find?_eq_some hcategory) heq⟩
    rw [Bool.eq_iff_iff, bne_iff_ne, bne_iff_ne, Ne, Ne, hsame]
  rw [removeCategory, hcategory]
  exact congrArg (fun categories => { l with categories, layers := l.layers.map (forgetInLayer id) })
    herase

/-! ### Colors -/

theorem categoryColor?_dropCategory (category? : Option String) :
    (l.dropCategory id).categoryColor? category? = l.categoryColor? (forget id category?) := by
  have hfind : ∀ other, (l.dropCategory id).category? other =
      if other = id then none else l.category? other := by
    intro other
    rw [Layout.category?, dropCategory, List.find?_filter]
    split
    next h => simp [h]
    next h =>
      refine congrArg (l.categories.find? ·) (funext fun c => ?_)
      by_cases hc : c.id = other <;> simp [hc, h]
  cases category? with
  | none => rfl
  | some other => by_cases h : other = id <;> simp [categoryColor?, forget, hfind, h]

theorem categoryColor?_dropCategory_forget (category? : Option String) :
    (l.dropCategory id).categoryColor? (forget id category?) =
      (l.dropCategory id).categoryColor? category? := by
  have htwice : forget id (forget id category?) = forget id category? := by
    simp [forget_eq_filter, Option.filter_filter]
  rw [categoryColor?_dropCategory, categoryColor?_dropCategory, htwice]

/-- A layer without references to a category has the colors of one whose references dangle. -/
theorem colorIn_forgetInLayer (layer : Layer) (p : Position) (fallback : Color) :
    (l.dropCategory id).colorIn (forgetInLayer id layer) p fallback =
      (l.dropCategory id).colorIn layer p fallback := by
  have hkey : (forgetInLayer id layer).keyAt? p = (layer.keyAt? p).map (forgetInKey id) :=
    Pairs.lookup_map_snd (forgetInKey id) p layer.keys
  have hcolor : ((layer.keyAt? p).map (forgetInKey id)).bind Key.color? =
      (layer.keyAt? p).bind Key.color? := by cases layer.keyAt? p <;> rfl
  have hcategory : ((layer.keyAt? p).map (forgetInKey id)).bind Key.category? =
      forget id ((layer.keyAt? p).bind Key.category?) := by cases layer.keyAt? p <;> rfl
  have hlayer : (l.dropCategory id).layerColor (forgetInLayer id layer) fallback =
      (l.dropCategory id).layerColor layer fallback := by
    simp only [layerColor, forgetInLayer, categoryColor?_dropCategory_forget]
  rw [colorIn, colorIn, bind_keyColor?, bind_keyColor?, hkey, hcolor, hcategory, hlayer,
    categoryColor?_dropCategory_forget]

theorem colorIn_dropCategory {layer : Layer} {p : Position} (h : ¬l.TakesColor layer p id)
    (fallback : Color) :
    (l.dropCategory id).colorIn layer p fallback = l.colorIn layer p fallback := by
  have hkept : ∀ category?, category? ≠ some id ∨ (l.category? id).isSome = false →
      (l.dropCategory id).categoryColor? category? = l.categoryColor? category? := by
    intro category? hother
    rw [categoryColor?_dropCategory, forget]
    split
    next hsame =>
      -- a reference to nothing gives no color with or without it
      rw [beq_iff_eq.mp hsame] at hother ⊢
      have hnone : l.category? id = none := by simpa using hother
      simp [categoryColor?, hnone]
    · rfl
  rw [colorIn, colorIn, bind_keyColor?, bind_keyColor?, layerColor, layerColor]
  unfold TakesColor at h
  cases hdefined : (l.category? id).isSome with
  | false => rw [hkept _ (.inr hdefined), hkept _ (.inr hdefined)]
  | true =>
    cases hown : (layer.keyAt? p).bind Key.color? with
    | some color => rfl
    | none =>
      simp only [hdefined, hown, true_and, not_or, not_and] at h
      rw [hkept _ (.inl h.1)]
      cases hkey : l.categoryColor? ((layer.keyAt? p).bind Key.category?) with
      | some color => rfl
      | none =>
        cases henabled : layer.colorsEnabled with
        | false => rfl
        | true => rw [hkept _ (.inl (h.2 hkey henabled))]

/-! ### Removing and dropping -/

theorem mem_categoryIds_removeCategory (hunique : (l.categories.map (·.id)).Nodup) :
    (∃ layer ∈ (l.removeCategory id).2.layers, id ∈ layer.categoryIds) ↔
      id ∉ l.categories.map (·.id) ∧ ∃ layer ∈ l.layers, id ∈ layer.categoryIds := by
  by_cases h : id ∈ l.categories.map (·.id)
  · rw [removeCategory_of_mem hunique h]
    refine ⟨?_, fun hnot => absurd h hnot.1⟩
    rintro ⟨layer, hlayer, hid⟩
    obtain ⟨original, -, rfl⟩ := List.mem_map.mp hlayer
    exact absurd rfl (mem_categoryIds_of_mem_forgetInLayer hid).2
  · rw [removeCategory_of_notMem h]
    exact ⟨fun hleft => ⟨h, hleft⟩, And.right⟩

theorem colorAt_dropCategory_of_removed (hunique : (l.categories.map (·.id)).Nodup) (index : Int)
    (p : Position) (fallback : Color) :
    (l.removeCategory id).2.colorAt index p fallback =
      (l.dropCategory id).colorAt index p fallback := by
  by_cases h : id ∈ l.categories.map (·.id)
  · have hlayer : (l.removeCategory id).2.layerAt? index =
        (l.layerAt? index).map (forgetInLayer id) := by
      rw [removeCategory_of_mem hunique h]
      unfold layerAt?
      split
      · rfl
      · exact List.getElem?_map
    rw [colorAt, colorAt, hlayer, show (l.dropCategory id).layerAt? index = l.layerAt? index from rfl,
      removeCategory_of_mem hunique h]
    cases l.layerAt? index with
    | none => rfl
    | some layer => exact colorIn_forgetInLayer layer p fallback
  · have hsame : l.dropCategory id = l := by
      have hall : l.categories.filter (·.id != id) = l.categories := by
        refine List.filter_eq_self.mpr fun c hc => bne_iff_ne.mpr ?_
        rintro rfl
        exact h (List.mem_map_of_mem hc)
      rw [dropCategory, hall]
    rw [removeCategory_of_notMem h, hsame]

/-- **Removing a category is the same as letting it dangle.** Every position has the color it has
without the entry alone, and nothing else changes but the references to it. -/
theorem colorAt_removeCategory (hunique : (l.categories.map (·.id)).Nodup) (id : String) :
    (∀ index p fallback, (l.removeCategory id).2.colorAt index p fallback =
      (l.dropCategory id).colorAt index p fallback) ∧
    ((∃ layer ∈ (l.removeCategory id).2.layers, id ∈ layer.categoryIds) ↔
      id ∉ l.categories.map (·.id) ∧ ∃ layer ∈ l.layers, id ∈ layer.categoryIds) ∧
    (id ∈ l.categories.map (·.id) → (l.removeCategory id).2 =
      { l with
        categories := l.categories.filter (·.id != id)
        layers := l.layers.map fun layer =>
          { layer with
            category? := layer.category?.filter (· != id)
            keys := layer.keys.map fun entry =>
              (entry.1, { entry.2 with category? := entry.2.category?.filter (· != id) }) } }) ∧
    (id ∉ l.categories.map (·.id) → (l.removeCategory id).2 = l) ∧
    ∀ index p fallback, (∀ layer, l.layerAt? index = some layer → ¬l.TakesColor layer p id) →
      (l.removeCategory id).2.colorAt index p fallback = l.colorAt index p fallback := by
  refine ⟨colorAt_dropCategory_of_removed hunique, mem_categoryIds_removeCategory hunique,
    fun h => ?_, removeCategory_of_notMem, fun index p fallback h => ?_⟩
  · rw [removeCategory_of_mem hunique h]
    refine congrArg (fun layers => { l.dropCategory id with layers })
      (List.map_congr_left fun layer _ => ?_)
    simp only [forgetInLayer, forgetInKey, forget_eq_filter]
  · rw [colorAt_dropCategory_of_removed hunique, colorAt, colorAt,
      show (l.dropCategory id).layerAt? index = l.layerAt? index from rfl]
    cases hlayer : l.layerAt? index with
    | none => rfl
    | some layer => exact colorIn_dropCategory (h layer hlayer) fallback

/-- A layout with a key in a category, on a layer in another one. -/
def shadedLayout : Layout :=
  { letterLayout with
    layers := letterLayout.layers.map fun layer => { layer with category? := some "rest" }
    categories := letterLayout.categories ++ [{ id := "rest", name := "Rest", color := default }] }

theorem colorAt_removeCategory_shadedLayout :
    shadedLayout.colorAt 0 ⟨0, 1⟩ = .white ∧
    (shadedLayout.removeCategory "letters").2.colorAt 0 ⟨0, 1⟩ = default ∧
    (shadedLayout.removeCategory "letters").2.colorAt 0 ⟨0, 0⟩ = shadedLayout.colorAt 0 ⟨0, 0⟩ ∧
    ¬∃ layer ∈ (shadedLayout.removeCategory "letters").2.layers, "letters" ∈ layer.categoryIds := by
  obtain ⟨hcolor, hleft, -, -, hkept⟩ :=
    colorAt_removeCategory (l := shadedLayout) (by decide) "letters"
  refine ⟨by decide, (hcolor 0 ⟨0, 1⟩ .white).trans (by decide), hkept 0 ⟨0, 0⟩ .white ?_, ?_⟩
  · intro layer hlayer
    cases hlayer
    decide
  · exact fun h => absurd (by decide) (hleft.mp h).1

end Keyforge.Layout
