import Keyforge.Proofs.Document.Table
import Keyforge.Proofs.Layout.Fits

/-!
# Descriptions of keys

Describing goes through all notes and changes nothing but the descriptions of the keys they are for
(`describe_eq`): each key gets the description of the last note for it.
-/

namespace Keyforge

open Keyforge.Document

variable {note : DescriptionNote} {place : Nat}

/-! ### What notes do -/

/-- Whether a note is for the key at a position of a layer. -/
def Document.DescriptionNote.isFor (note : DescriptionNote) (place : Nat) (p : Position) : Bool :=
  note.layer == place && note.position == p

def Key.noted (place : Nat) (p : Position) (key : Key) (note : DescriptionNote) : Key :=
  if note.isFor place p then
    { key with description? := if note.text == "" then none else some note.text }
  else key

def Layer.noted (notes : List DescriptionNote) (place : Nat) (layer : Layer) : Layer :=
  { layer with keys := layer.keys.map fun (p, key) => (p, notes.foldl (Key.noted place p) key) }

theorem Key.foldl_noted_slot (notes : List DescriptionNote) (place : Nat) (p : Position) (key : Key)
    (slot : Int) :
    notes.foldl (Key.noted place p) { key with slot } =
      { notes.foldl (Key.noted place p) key with slot } := by
  induction notes generalizing key with
  | nil => rfl
  | cons note notes ih =>
    rw [List.foldl_cons, List.foldl_cons, ← ih]
    congr 1
    unfold Key.noted
    split <;> rfl

theorem Key.exists_foldl_noted (notes : List DescriptionNote) (place : Nat) (p : Position) (key : Key) :
    ∃ description?, notes.foldl (Key.noted place p) key = { key with description? } ∧
      ∀ text, description? = some text → key.description? = some text ∨
        ∃ note ∈ notes, note.position = p ∧ note.text = text ∧ text ≠ "" := by
  induction notes generalizing key with
  | nil => exact ⟨key.description?, rfl, fun text h => .inl h⟩
  | cons note notes ih =>
    obtain ⟨description?, hfold, htext⟩ := ih (Key.noted place p key note)
    refine ⟨description?, ?_, ?_⟩
    · rw [List.foldl_cons, hfold, Key.noted]
      split <;> rfl
    · intro text h
      rcases htext text h with hkey | ⟨other, hother, hspec⟩
      · rw [Key.noted] at hkey
        split at hkey
        next hfor =>
          simp only [DescriptionNote.isFor, Bool.and_eq_true, beq_iff_eq] at hfor
          dsimp only at hkey
          split at hkey
          next => cases hkey
          next hne =>
            cases hkey
            exact .inr ⟨note, List.mem_cons_self, hfor.2, rfl, by simpa using hne⟩
        next => exact .inl hkey
      · exact .inr ⟨other, List.mem_cons_of_mem _ hother, hspec⟩

theorem Layer.noted_nil (place : Nat) (layer : Layer) : Layer.noted [] place layer = layer := by
  simp [Layer.noted]

theorem Layer.noted_cons (note : DescriptionNote) (notes : List DescriptionNote) (place : Nat)
    (layer : Layer) :
    Layer.noted notes place (Layer.noted [note] place layer) =
      Layer.noted (note :: notes) place layer := by
  simp [Layer.noted]

theorem Layer.noted_eq_describeKey (note : DescriptionNote) (layer : Layer) :
    Layer.noted [note] note.layer layer =
      { layer with keys := describeKey note.position note.text layer.keys } := by
  simp only [Layer.noted, describeKey, List.foldl_cons, List.foldl_nil, Key.noted,
    DescriptionNote.isFor, beq_self_eq_true, Bool.true_and]
  congr 1
  refine List.map_congr_left ?_
  rintro ⟨p, key⟩ -
  by_cases hp : p = note.position
  · simp [hp]
  · have hp' : ¬note.position = p := fun h => hp h.symm
    simp [hp, hp']

theorem Layer.noted_eq_self {layer : Layer}
    (h : note.layer = place → layer.keyAt? note.position = none) :
    Layer.noted [note] place layer = layer := by
  have hkeys : layer.keys.map (fun (p, key) => (p, Key.noted place p key note)) = layer.keys := by
    refine (List.map_congr_left ?_).trans (List.map_id layer.keys)
    rintro ⟨p, key⟩ hmem
    have hfor : ¬note.isFor place p = true := by
      intro hfor
      simp only [DescriptionNote.isFor, Bool.and_eq_true, beq_iff_eq] at hfor
      have hnone := List.lookup_eq_none_iff.mp (h hfor.1) (p, key) hmem
      simp [hfor.2] at hnone
    simp [Key.noted, hfor]
  simp only [Layer.noted, List.foldl_cons, List.foldl_nil, hkeys]

namespace Document

theorem mapIdx_noted_eq_set {layers : List Layer} {layer : Layer}
    (h : layers[note.layer]? = some layer) :
    layers.mapIdx (Layer.noted [note]) =
      layers.set note.layer (Layer.noted [note] note.layer layer) := by
  refine List.ext_getElem? fun i => ?_
  rw [List.getElem?_mapIdx, List.getElem?_set]
  split
  next hi =>
    subst hi
    rw [h, if_pos (List.getElem?_eq_some_iff.mp h).1]
    rfl
  next hi =>
    cases layers[i]? with
    | none => rfl
    | some other => exact congrArg some (Layer.noted_eq_self fun h => absurd h hi)

theorem mapIdx_noted_eq_self {layers : List Layer}
    (h : ∀ layer, layers[note.layer]? = some layer → layer.keyAt? note.position = none) :
    layers.mapIdx (Layer.noted [note]) = layers := by
  refine List.ext_getElem? fun i => ?_
  rw [List.getElem?_mapIdx]
  cases hi : layers[i]? with
  | none => rfl
  | some layer =>
    refine congrArg some (Layer.noted_eq_self fun hplace => h layer ?_)
    rw [hplace, hi]

/-- Describing gives each key the description of the last note for it. -/
theorem describe_eq (notes : List DescriptionNote) (layers : List Layer) :
    (describe notes layers).1 = layers.mapIdx (Layer.noted notes) := by
  induction notes generalizing layers with
  | nil =>
    rw [describe]
    refine List.ext_getElem? fun i => ?_
    rw [List.getElem?_mapIdx]
    cases layers[i]? <;> simp [Layer.noted_nil]
  | cons note notes ih =>
    -- whether the note finds its key or not, it changes every layer as it should
    have hstep : (describe (note :: notes) layers).1 =
        (describe notes (layers.mapIdx (Layer.noted [note]))).1 := by
      rw [describe]
      split
      next layer hfound =>
        obtain ⟨layer', hlayer, hsome⟩ := Option.bind_eq_some_iff.mp hfound
        obtain ⟨key, hkey, rfl⟩ := Option.map_eq_some_iff.mp hsome
        rw [mapIdx_noted_eq_set hlayer, Layer.noted_eq_describeKey]
      next hnone =>
        rw [mapIdx_noted_eq_self]
        intro layer hlayer
        simpa [hlayer] using hnone
    rw [hstep, ih, List.mapIdx_mapIdx]
    congr 1
    funext i layer
    exact Layer.noted_cons note notes i layer

end Document

/-! ### The notes of a layout -/

def Layer.bare (layer : Layer) : Layer :=
  { layer with keys := layer.keys.map fun (p, key) => (p, key.bare) }

def Document.DescriptionNote.gist (note : DescriptionNote) : DescriptionNote := { note with line := 0 }

def Key.note? (place : Nat) (key : Key) : Option DescriptionNote :=
  key.description?.map fun text => ⟨0, place, key.position, text⟩

def Layer.notes (layer : Layer) : List DescriptionNote :=
  layer.keys.filterMap fun (_, key) => key.note? layer.index.toNat

theorem Layer.noted_map_gist (notes : List DescriptionNote) (place : Nat) (layer : Layer) :
    Layer.noted (notes.map DescriptionNote.gist) place layer = Layer.noted notes place layer := by
  simp only [Layer.noted, List.foldl_map]
  rfl

theorem Key.foldl_noted_eq_self {p : Position} {notes : List DescriptionNote}
    (h : ∀ note ∈ notes, note.isFor place p = false) (key : Key) :
    notes.foldl (Key.noted place p) key = key := by
  induction notes with
  | nil => rfl
  | cons note notes ih =>
    have hnote : Key.noted place p key note = key := by
      simp [Key.noted, h note List.mem_cons_self]
    rw [List.foldl_cons, hnote, ih (List.forall_mem_cons.mp h).2]

theorem Key.foldl_noted_note? {key : Key} (h : key.Described) :
    (key.note? place).toList.foldl (Key.noted place key.position) key.bare = key := by
  obtain ⟨keycode, position, slot, light?, color?, category?, description?⟩ := key
  cases description? with
  | none => rfl
  | some text =>
    have hne : text ≠ "" := by
      rintro rfl
      exact (h "" rfl).1.ne_nil rfl
    simp [Key.note?, Key.noted, DescriptionNote.isFor, Key.bare, hne]

theorem Key.isFor_note? {other : Nat} {p : Position} {key : Key} (h : key.note? other = some note)
    (hne : other ≠ place ∨ key.position ≠ p) : note.isFor place p = false := by
  obtain ⟨text, -, rfl⟩ := Option.map_eq_some_iff.mp h
  simpa [DescriptionNote.isFor, imp_iff_not_or] using hne

theorem Layer.foldl_notes {layer : Layer} (h : Tabular layer.keys) {p : Position} {key : Key}
    (hmem : (p, key) ∈ layer.keys) (hkey : key.Described) :
    layer.notes.foldl (Key.noted layer.index.toNat p) key.bare = key := by
  obtain rfl := (h.placed p key hmem).1
  obtain ⟨before, after, hkeys⟩ := List.append_of_mem hmem
  -- the keys before and after it have other positions, so their notes are for others
  have hnodup := Layer.nodup_of_increasing h.sorted
  rw [hkeys, (List.perm_middle.map Prod.fst).nodup_iff, List.map_cons, List.nodup_cons] at hnodup
  have hothers : ∀ keys, keys ⊆ before ++ after → ∀ note ∈ keys.filterMap
      (fun (_, key) => Key.note? layer.index.toNat key),
      note.isFor layer.index.toNat key.position = false := by
    intro keys hsub note hnote
    obtain ⟨⟨q, other⟩, hother, hfound⟩ := List.mem_filterMap.mp hnote
    refine Key.isFor_note? hfound (.inr fun hq => hnodup.1 ?_)
    have hplaced : (q, other) ∈ layer.keys := by
      have := hsub hother
      rw [hkeys]
      simp only [List.mem_append, List.mem_cons] at this ⊢
      tauto
    show key.position ∈ _
    rw [← hq, ← (h.placed q other hplaced).1]
    exact List.mem_map_of_mem (hsub hother)
  have hnote : [(key.position, key)].filterMap (fun (_, key) => Key.note? layer.index.toNat key) =
      (key.note? layer.index.toNat).toList := by
    cases hkey : key.note? layer.index.toNat <;> simp [hkey]
  rw [Layer.notes, hkeys, List.append_cons, List.filterMap_append, List.filterMap_append,
    List.foldl_append, List.foldl_append, hnote,
    Key.foldl_noted_eq_self (hothers before (List.subset_append_left _ _)),
    Key.foldl_noted_note? hkey,
    Key.foldl_noted_eq_self (hothers after (List.subset_append_right _ _))]

theorem Layout.foldl_notes {l : Layout} (hnumbered : l.Numbered)
    {layer : Layer} (hlayer : l.layers[place]? = some layer) (p : Position) (key : Key) :
    (l.layers.flatMap Layer.notes).foldl (Key.noted place p) key =
      layer.notes.foldl (Key.noted place p) key := by
  have hother : ∀ (layers : List Layer),
      (∀ other ∈ layers, ∃ i, i ≠ place ∧ l.layers[i]? = some other) →
      ∀ note ∈ layers.flatMap Layer.notes, note.isFor place p = false := by
    intro layers hlayers note hnote
    obtain ⟨other, hmem, hnote⟩ := List.mem_flatMap.mp hnote
    obtain ⟨⟨q, k⟩, -, hfound⟩ := List.mem_filterMap.mp hnote
    obtain ⟨i, hne, hi⟩ := hlayers other hmem
    refine Key.isFor_note? hfound (.inl ?_)
    have := hnumbered i other hi
    omega
  -- the notes come layer by layer, and the number of a layer is its place
  obtain ⟨hlt, hget⟩ := List.getElem?_eq_some_iff.mp hlayer
  have hsplit : l.layers = l.layers.take place ++ layer :: l.layers.drop (place + 1) := by
    rw [← hget, List.getElem_cons_drop, List.take_append_drop]
  have hbefore := hother (l.layers.take place) fun other hmem => by
    obtain ⟨i, hi⟩ := List.mem_iff_getElem?.mp hmem
    rw [List.getElem?_take] at hi
    split at hi
    next hlt => exact ⟨i, by omega, hi⟩
    next => cases hi
  have hafter := hother (l.layers.drop (place + 1)) fun other hmem => by
    obtain ⟨i, hi⟩ := List.mem_iff_getElem?.mp hmem
    rw [List.getElem?_drop] at hi
    exact ⟨place + 1 + i, by omega, hi⟩
  rw [hsplit, List.flatMap_append, List.flatMap_cons, List.foldl_append, List.foldl_append,
    Key.foldl_noted_eq_self hbefore, Key.foldl_noted_eq_self hafter]

/-- The notes of a layout's layers give the keys their descriptions back. -/
theorem Layout.Legible.describe_notes {l : Layout} (h : l.Legible) {notes : List DescriptionNote}
    (hnotes : notes.map DescriptionNote.gist = l.layers.flatMap Layer.notes) :
    (describe notes (l.layers.map Layer.bare)).1 = l.layers := by
  have hnumbered := (problem?_eq_none_iff.mp h.fits).numbered
  rw [describe_eq]
  refine List.ext_getElem? fun place => ?_
  rw [List.getElem?_mapIdx, List.getElem?_map]
  cases hlayer : l.layers[place]? with
  | none => rfl
  | some layer =>
    have hmem := List.mem_of_getElem? hlayer
    have hplace : layer.index.toNat = place := by
      have := hnumbered place layer hlayer
      omega
    have hkeys : layer.keys.map (fun (p, key) =>
        (p, (l.layers.flatMap Layer.notes).foldl (Key.noted place p) key.bare)) = layer.keys := by
      refine (List.map_congr_left ?_).trans (List.map_id layer.keys)
      rintro ⟨p, key⟩ hkey
      have hfold := Layer.foldl_notes (h.layers layer hmem).tabular hkey
        (h.described layer hmem p key hkey)
      rw [hplace] at hfold
      simp only [Layout.foldl_notes hnumbered hlayer, hfold, id_eq]
    rw [Option.map_some, Option.map_some, ← Layer.noted_map_gist, hnotes]
    simp only [Layer.noted, Layer.bare, List.map_map]
    exact congrArg (fun keys => some { layer with keys }) hkeys

end Keyforge
