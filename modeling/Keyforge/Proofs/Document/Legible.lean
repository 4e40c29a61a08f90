import Keyforge.Layout.Check
import Keyforge.Proofs.Document.CategoryLine
import Keyforge.Proofs.Document.Cell

/-!
# Legible layouts

The layouts that documents can express: each part can stand in the lines it is written to.
-/

namespace Keyforge

open Keyforge.Text Keyforge.Document

/-! ### Keys and layers -/

structure Key.Legible (key : Key) : Prop where
  cell : (Cell.ofKey key).WellFormed
  noBar : '|' ∉ key.keycode.toList
  oneLine : OneLine key.keycode.toList
  noLight : key.light? = none

def Key.bare (key : Key) : Key := { key with description? := none }

theorem Key.Legible.bare {key : Key} (h : key.Legible) : key.bare.Legible :=
  ⟨h.cell, h.noBar, h.oneLine, h.noLight⟩

/-- Keys as a table gives them: under their own positions, in reading order. -/
structure Tabular (keys : List (Position × Key)) : Prop where
  sorted : keys.Pairwise fun a b => a.1.before b.1 = true
  placed : ∀ p key, (p, key) ∈ keys → p = key.position ∧ 0 ≤ p.row ∧ 0 ≤ p.col
  legible : ∀ p key, (p, key) ∈ keys → key.Legible

theorem Tabular.bare {keys : List (Position × Key)} (h : Tabular keys) :
    Tabular (keys.map fun (p, key) => (p, key.bare)) := by
  refine ⟨List.pairwise_map.mpr h.sorted, ?_, ?_⟩
  · rintro p key hmem
    obtain ⟨⟨p, original⟩, horiginal, ⟨⟩⟩ := List.mem_map.mp hmem
    exact h.placed p original horiginal
  · rintro p key hmem
    obtain ⟨⟨p, original⟩, horiginal, ⟨⟩⟩ := List.mem_map.mp hmem
    exact (h.legible p original horiginal).bare

structure Layer.Legible (layer : Layer) : Prop where
  index : 0 ≤ layer.index ∧ Number.Short layer.index.toNat
  name : Phrase layer.name.toList
  id : ∀ id, layer.id? = some id → Name.isLayerId id.toList = true
  category : ∀ id, layer.category? = some id → Name.isCategoryId id.toList = true
  tabular : Tabular layer.keys
  numbered : Layer.numberFrom 0 layer.keys = layer.keys

/-- A key whose description, if it has one, can be read back. -/
def Key.Described (key : Key) : Prop :=
  ∀ text, key.description? = some text → Phrase text.toList ∧
    Number.Short key.position.row.toNat ∧ Number.Short key.position.col.toNat

/-! ### Sections -/

structure Category.Legible (c : Category) : Prop where
  id : Name.isCategoryId c.id.toList = true
  name : Phrase c.name.toList
  short : size c.name.toList ≤ 50
  unsplit : Line.Unsplit c.name.toList
  description : ∀ text, c.description? = some text → Phrase text.toList

structure TapDance.Legible (t : TapDance) : Prop where
  name : Name.isTapDanceName t.name.toList = true
  keycodes : ∀ code ∈ t.keycodes, Phrase code.toList

/-- A setting whose line can be read back if its name is not empty. -/
structure LegibleSetting (setting : String × String) : Prop where
  oneLine : OneLine setting.1.toList ∧ OneLine setting.2.toList
  trimmed : Trimmed setting.1.toList ∧ Trimmed setting.2.toList
  boldFree : Line.BoldFree setting.1.toList

/-! ### Layouts -/

/-- A layout that a document can express. -/
structure Layout.Legible (l : Layout) : Prop where
  layers : ∀ layer ∈ l.layers, layer.Legible
  described : ∀ layer ∈ l.layers, ∀ p key, (p, key) ∈ layer.keys → key.Described
  categories : ∀ c ∈ l.categories, c.Legible
  tapDances : ∀ t ∈ l.tapDances, t.Legible
  settings : ∀ setting ∈ l.settings, LegibleSetting setting
  settingNames : (l.settings.map Prod.fst).Nodup
  fits : l.problem? = none

end Keyforge
