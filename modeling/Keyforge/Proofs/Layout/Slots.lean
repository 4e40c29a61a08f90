import Keyforge.Proofs.Board.ReadingOrder
import Keyforge.Proofs.Layout.Arranged
import Keyforge.Proofs.Result
import Mathlib.Data.List.Permutation

/-!
# Slots of layers and of boards

A layer numbers its keys by their positions and a board numbers its keys by their cells. On a board
without halves the cells are the positions, so that both list positions in reading order
(`Geometry.ascending_slots`), and there is just one such list.
-/

namespace Keyforge

open Position

/-- A board without halves is read by its positions. -/
theorem Geometry.ascending_slots {g : Geometry} (hnodup : g.positions.Nodup)
    (hsplit : g.split? = none) : Ascending id g.slots := by
  have hcells : g.cells.zip g.positions = g.positions.map fun p => ((p.row, p.col), p) := by
    have hunsplit : g.cells = g.positions.map fun p => (p.row, p.col) := by
      unfold cells
      rw [hsplit]
    rw [hunsplit]
    nth_rewrite 2 [← List.map_id g.positions]
    exact List.zip_map'
  have hperm := g.slots_perm_positions
  have hdistinct := hperm.nodup_iff.mpr hnodup
  have hsorted := pairwise_readsBefore (g.cells.zip g.positions)
  refine List.pairwise_map.mpr ((hsorted.and (List.pairwise_map.mp hdistinct)).imp_of_mem ?_)
  rintro ⟨c, p⟩ ⟨d, q⟩ hp hq ⟨hreads, hne⟩
  rw [List.mem_mergeSort, hcells] at hp hq
  obtain ⟨_, -, hp⟩ := List.mem_map.mp hp
  obtain ⟨_, -, hq⟩ := List.mem_map.mp hq
  cases hp
  cases hq
  rcases readsBefore_iff.mp hreads with hbefore | ⟨-, hatMost⟩
  · exact Position.before_iff.mpr hbefore
  · exact Position.before_of_atMost hatMost hne

inductive KeyEdit where
  | set (key : Key)
  | remove (p : Position)

namespace Layer

def editKey (layer : Layer) : KeyEdit → Layer
  | .set key => layer.setKey key
  | .remove p => layer.removeKey p

def editKeys (layer : Layer) (edits : List KeyEdit) : Layer := edits.foldl editKey layer

/-- Keys stay in order along a run of changes. -/
theorem InOrder.editKeys {layer : Layer} (h : InOrder layer.keys) (edits : List KeyEdit) :
    InOrder (layer.editKeys edits).keys := by
  induction edits generalizing layer with
  | nil => exact h
  | cons edit edits ih =>
    cases edit with
    | set key => exact ih (h.setKey key)
    | remove p => exact ih (h.removeKey p)

/-- The keys of a layer that is accepted are in order, if no position has two. -/
theorem inOrder_of_make {given layer : Layer} (hnodup : (given.keys.map Prod.fst).Nodup)
    (h : given.make = .ok layer) : InOrder layer.keys := by
  obtain ⟨named, hnamed, hchecked⟩ := Datum.Verdict.andThen_eq_ok_iff.mp h
  simp only [Datum.Verdict.seq_eq_ok_iff, Datum.Verdict.functor_map_eq] at hnamed
  obtain ⟨_, _, hname, -, rfl⟩ := hnamed
  obtain ⟨_, -, rfl⟩ := Datum.Verdict.map_eq_ok_iff.mp hname
  obtain ⟨rfl, hfiled⟩ := filed_of_checkKeys hchecked hnodup
  exact inOrder_arrange hfiled

/-- **On a board without halves, layers and boards count alike.** However the keys of a layer are
edited, as long as they are on the board their slots compare as the board's slots for their positions
do; and the slots are the board's if every position of the board has a key. -/
theorem slots_agree_with_board {g : Geometry} (hcheck : g.check = .ok g) (hsplit : g.split? = none)
    {given layer : Layer} (hnodup : (given.keys.map Prod.fst).Nodup)
    (hmake : given.make = .ok layer) (edits : List KeyEdit)
    (hon : ∀ entry ∈ (layer.editKeys edits).keys, entry.2.position ∈ g.positions) :
    (∀ a ∈ (layer.editKeys edits).keys, ∀ b ∈ (layer.editKeys edits).keys, ∃ m n,
      (Coordinates.ofGeometry g).slotOf? a.2.position = some m ∧
      (Coordinates.ofGeometry g).slotOf? b.2.position = some n ∧
      (a.2.slot < b.2.slot ↔ m < n)) ∧
    ((∀ p ∈ g.positions, ∃ entry ∈ (layer.editKeys edits).keys, entry.1 = p) →
      ∀ entry ∈ (layer.editKeys edits).keys, ∃ n,
        (Coordinates.ofGeometry g).slotOf? entry.2.position = some n ∧ entry.2.slot = n) := by
  have horder := (inOrder_of_make hnodup hmake).editKeys edits
  obtain ⟨-, hvalid⟩ := Geometry.valid_of_check hcheck
  have hboard := Geometry.ascending_slots hvalid.positions_nodup hsplit
  have hkeys : Ascending id ((layer.editKeys edits).keys.map Prod.fst) :=
    List.pairwise_map.mpr horder.increasing
  have hdistinct := g.slots_perm_positions.nodup_iff.mpr hvalid.positions_nodup
  have hplace : ∀ {p : Position}, p ∈ g.positions →
      ∃ n, g.slots.idxOf? p = some n ∧ g.slots[n]? = some p := by
    intro p hp
    obtain ⟨n, hn⟩ := List.mem_iff_getElem?.mp (g.slots_perm_positions.mem_iff.mpr hp)
    exact ⟨n, (Coordinates.idxOf?_eq_some_iff_of_nodup hdistinct).mpr hn, hn⟩
  generalize (layer.editKeys edits).keys = keys at *
  -- the slot of a key is its place among the positions of the layer
  have hslot : ∀ entry ∈ keys, ∃ i : Nat, entry.2.slot = i ∧
      (keys.map Prod.fst)[i]? = some entry.2.position := by
    intro entry hentry
    obtain ⟨i, hi⟩ := List.mem_iff_getElem?.mp hentry
    refine ⟨i, horder.slots i entry hi, ?_⟩
    rw [List.getElem?_map, hi, ← horder.own entry hentry]
    rfl
  constructor
  · intro a ha b hb
    obtain ⟨i, hi, hai⟩ := hslot a ha
    obtain ⟨j, hj, hbj⟩ := hslot b hb
    obtain ⟨m, hm, ham⟩ := hplace (hon a ha)
    obtain ⟨n, hn, hbn⟩ := hplace (hon b hb)
    refine ⟨m, n, hm, hn, ?_⟩
    rw [hi, hj, Int.ofNat_lt, hkeys.lt_iff_before hai hbj, hboard.lt_iff_before ham hbn]
  · intro hall entry hentry
    have hsame : keys.map Prod.fst = g.slots := by
      refine hkeys.eq_of_mem_iff hboard fun p => ?_
      rw [g.slots_perm_positions.mem_iff, List.mem_map]
      refine ⟨?_, hall p⟩
      rintro ⟨other, hother, rfl⟩
      rw [horder.own other hother]
      exact hon other hother
    obtain ⟨i, hi, hplaced⟩ := hslot entry hentry
    rw [hsame] at hplaced
    exact ⟨i, (Coordinates.idxOf?_eq_some_iff_of_nodup hdistinct).mpr hplaced, hi⟩

/-- A square whose layout macro starts at the bottom. -/
def squareBoard : Geometry where
  keys := [⟨1, 1⟩, ⟨1, 0⟩, ⟨0, 1⟩, ⟨0, 0⟩].map fun p => { position := p }
  rows := 2
  cols := 2

/-- The keys are set in an order of their own, and some of them are removed. -/
theorem slots_agree_with_board_squareBoard :
    let layer : Layer := { index := 0, name := "Base" }
    let edits : List KeyEdit := [.set { keycode := "KC_D", position := ⟨1, 1⟩ },
      .set { keycode := "KC_B", position := ⟨0, 1⟩ }, .remove ⟨1, 1⟩, .remove ⟨0, 0⟩,
      .set { keycode := "KC_C", position := ⟨1, 0⟩ }, .set { keycode := "KC_A", position := ⟨0, 0⟩ },
      .set { keycode := "KC_D", position := ⟨1, 1⟩ }]
    squareBoard.check = .ok squareBoard ∧ layer.make = .ok layer ∧
      (layer.editKeys edits).keys.map (fun entry => entry.2.keycode) =
        ["KC_A", "KC_B", "KC_C", "KC_D"] ∧
      ∀ entry ∈ (layer.editKeys edits).keys, ∃ n,
        (Coordinates.ofGeometry squareBoard).slotOf? entry.2.position = some n ∧
          entry.2.slot = n := by
  intro layer edits
  have hmake : layer.make = .ok layer := by cbv
  have hkeys : (layer.editKeys edits).keys = [
      (⟨0, 0⟩, { keycode := "KC_A", position := ⟨0, 0⟩, slot := 0 }),
      (⟨0, 1⟩, { keycode := "KC_B", position := ⟨0, 1⟩, slot := 1 }),
      (⟨1, 0⟩, { keycode := "KC_C", position := ⟨1, 0⟩, slot := 2 }),
      (⟨1, 1⟩, { keycode := "KC_D", position := ⟨1, 1⟩, slot := 3 })] := by cbv
  have hagree := slots_agree_with_board (g := squareBoard) rfl rfl (by decide) hmake edits
  rw [hkeys] at hagree
  rw [hkeys]
  exact ⟨rfl, hmake, rfl, (hagree (by decide)).2 (by decide)⟩

end Layer

end Keyforge
