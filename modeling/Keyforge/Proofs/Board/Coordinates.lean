import Keyforge.Proofs.Board.Geometry
import Mathlib.Data.List.Nodup
import Mathlib.Data.List.Pairwise

/-!
# Coordinates are numberings

Visual slots, macro arguments and lights each number the keys of a board. `Numbering` says what that
means for a pair of lookups. Slots and arguments are places in lists without repetition
(`numbering_of_nodup`), and no two keys of a valid board have one light (`eq_of_light_eq`).
-/

namespace Keyforge

/-- Two lookups, of numbers by positions and of positions by numbers, that undo each other. -/
structure Numbering (number? : Position → Option Int) (position? : Int → Option Position)
    (dom : Position → Prop) (ran : Int → Prop) : Prop where
  inverse : ∀ p n, number? p = some n ↔ position? n = some p
  defined : ∀ p, (number? p).isSome ↔ dom p
  reached : ∀ n, (position? n).isSome ↔ ran n

namespace Coordinates

/-! ### Places in lists -/

theorem itemAt?_natCast (items : List α) (i : Nat) : itemAt? items (i : Int) = items[i]? := by
  have hpos : ¬((i : Int) < 0) := by omega
  rw [itemAt?, if_neg hpos, Int.toNat_natCast]

theorem itemAt?_of_neg (items : List α) {n : Int} (h : n < 0) : itemAt? items n = none := if_pos h

theorem isSome_itemAt?_iff {items : List α} {n : Int} :
    (itemAt? items n).isSome ↔ 0 ≤ n ∧ n < items.length := by
  by_cases hneg : n < 0
  · rw [itemAt?_of_neg items hneg]
    simp only [Option.isSome_none, Bool.false_eq_true, false_iff]
    omega
  · obtain ⟨i, rfl⟩ := Int.eq_ofNat_of_zero_le (Int.not_lt.mp hneg)
    rw [itemAt?_natCast]
    simp

theorem idxOf?_eq_some_iff_of_nodup {items : List Position} (hnd : items.Nodup) {p : Position}
    {i : Nat} : items.idxOf? p = some i ↔ items[i]? = some p := by
  rw [List.idxOf?_eq_some_iff]
  constructor
  · rintro ⟨hi, hp, -⟩
    rw [List.getElem?_eq_getElem hi, hp]
  · intro h
    obtain ⟨hi, hp⟩ := List.getElem?_eq_some_iff.mp h
    refine ⟨hi, hp, fun j hj hpj => ?_⟩
    have hij : j = i := (List.Nodup.getElem_inj_iff hnd).mp (hpj.trans hp.symm)
    omega

/-- The places in a list without repetitions number its items. -/
theorem numbering_of_nodup {items : List Position} (hnd : items.Nodup) :
    Numbering (fun p => (items.idxOf? p).map Int.ofNat) (itemAt? items) (· ∈ items)
      (fun n => 0 ≤ n ∧ n < items.length) := by
  refine { inverse := fun p n => ?_, defined := fun p => ?_, reached := fun n => isSome_itemAt?_iff }
  · rw [Option.map_eq_some_iff]
    constructor
    · rintro ⟨i, hi, rfl⟩
      exact (itemAt?_natCast items i).trans ((idxOf?_eq_some_iff_of_nodup hnd).mp hi)
    · intro h
      have hbounds := isSome_itemAt?_iff.mp (Option.isSome_of_eq_some h)
      obtain ⟨i, rfl⟩ := Int.eq_ofNat_of_zero_le hbounds.1
      rw [itemAt?_natCast] at h
      exact ⟨i, (idxOf?_eq_some_iff_of_nodup hnd).mpr h, rfl⟩
  · rw [Option.isSome_map, List.isSome_idxOf?]

/-! ### Lights -/

theorem exists_find?_iff_of_unique {keys : List KeyShape} {q : KeyShape → Bool}
    {P : KeyShape → Prop} (hunique : ∀ a ∈ keys, ∀ b ∈ keys, q a = true → q b = true → a = b) :
    (∃ k, keys.find? q = some k ∧ P k) ↔ ∃ k ∈ keys, q k = true ∧ P k := by
  constructor
  · rintro ⟨k, h, hP⟩
    exact ⟨k, List.mem_of_find?_eq_some h, List.find?_some h, hP⟩
  · rintro ⟨k, hk, hq, hP⟩
    have hsome : (keys.find? q).isSome := List.find?_isSome.mpr ⟨k, hk, hq⟩
    obtain ⟨k', hk'⟩ := Option.isSome_iff_exists.mp hsome
    rw [hunique k hk k' (List.mem_of_find?_eq_some hk') hq (List.find?_some hk')] at hP
    exact ⟨k', hk', hP⟩

theorem eq_of_position_eq {g : Geometry} (hv : g.Valid) {a b : KeyShape} (ha : a ∈ g.keys)
    (hb : b ∈ g.keys) (h : a.position = b.position) : a = b :=
  List.inj_on_of_nodup_map hv.positions_nodup ha hb h

theorem eq_of_light_eq {keys : List KeyShape} (hnd : (keys.filterMap KeyShape.light?).Nodup)
    {a b : KeyShape} {light : Int} (ha : a ∈ keys) (hb : b ∈ keys)
    (hla : a.light? = some light) (hlb : b.light? = some light) : a = b := by
  have hpair := List.pairwise_filterMap.mp hnd
  have hsymm : Std.Symm fun k l : KeyShape =>
      ∀ m, k.light? = some m → ∀ n, l.light? = some n → m ≠ n :=
    ⟨fun _ _ h m hm n hn => (h n hn m hm).symm⟩
  by_contra hne
  exact hpair.forall ha hb hne light hla light hlb rfl

theorem lightOf?_eq_some_iff {g : Geometry} (hv : g.Valid) {p : Position} {light : Int} :
    (ofGeometry g).lightOf? p = some light ↔
      ∃ k ∈ g.keys, k.position = p ∧ k.light? = some light := by
  have hunique : ∀ a ∈ g.keys, ∀ b ∈ g.keys, (a.position == p) = true → (b.position == p) = true →
      a = b := by
    intro a ha b hb hap hbp
    exact eq_of_position_eq hv ha hb ((beq_iff_eq.mp hap).trans (beq_iff_eq.mp hbp).symm)
  show (g.keys.find? fun k => k.position == p).bind KeyShape.light? = some light ↔ _
  rw [Option.bind_eq_some_iff, exists_find?_iff_of_unique hunique]
  simp only [beq_iff_eq]

theorem overLight?_eq_some_iff {g : Geometry} (hv : g.Valid) {p : Position} {light : Int} :
    (ofGeometry g).overLight? light = some p ↔
      ∃ k ∈ g.keys, k.position = p ∧ k.light? = some light := by
  have hunique : ∀ a ∈ g.keys, ∀ b ∈ g.keys, (a.light? == some light) = true →
      (b.light? == some light) = true → a = b := by
    intro a ha b hb hla hlb
    exact eq_of_light_eq hv.lights_nodup ha hb (beq_iff_eq.mp hla) (beq_iff_eq.mp hlb)
  show (g.keys.find? fun k => k.light? == some light).map KeyShape.position = some p ↔ _
  rw [Option.map_eq_some_iff, exists_find?_iff_of_unique hunique]
  simp only [beq_iff_eq, and_comm]

theorem numbering_lights {g : Geometry} (hv : g.Valid) :
    Numbering (ofGeometry g).lightOf? (ofGeometry g).overLight?
      (fun p => ∃ k ∈ g.keys, k.position = p ∧ k.light?.isSome)
      (fun light => ∃ k ∈ g.keys, k.light? = some light) := by
  refine { inverse := fun p light => ?_, defined := fun p => ?_, reached := fun light => ?_ }
  · rw [lightOf?_eq_some_iff hv, overLight?_eq_some_iff hv]
  · rw [Option.isSome_iff_exists]
    constructor
    · rintro ⟨light, hl⟩
      obtain ⟨k, hk, hp, hlight⟩ := (lightOf?_eq_some_iff hv).mp hl
      exact ⟨k, hk, hp, Option.isSome_of_eq_some hlight⟩
    · rintro ⟨k, hk, hp, hlight⟩
      obtain ⟨light, hl⟩ := Option.isSome_iff_exists.mp hlight
      exact ⟨light, (lightOf?_eq_some_iff hv).mpr ⟨k, hk, hp, hl⟩⟩
  · rw [Option.isSome_iff_exists]
    constructor
    · rintro ⟨p, hp⟩
      obtain ⟨k, hk, -, hl⟩ := (overLight?_eq_some_iff hv).mp hp
      exact ⟨k, hk, hl⟩
    · rintro ⟨k, hk, hl⟩
      exact ⟨k.position, (overLight?_eq_some_iff hv).mpr ⟨k, hk, rfl, hl⟩⟩

theorem has_ofGeometry_iff {g : Geometry} {p : Position} :
    (ofGeometry g).has p = true ↔ p ∈ g.positions := by
  show g.slots.contains p = true ↔ _
  rw [List.contains_iff_mem, g.slots_perm_positions.mem_iff]

end Coordinates

/-! ### All coordinates of a board -/

/-- **The coordinates of an accepted board are numberings of its keys**, however it is split. The
light at a slot is that of the position there, which always is a macro argument. -/
theorem coordinates_numbering {g : Geometry} (h : g.check = .ok g) :
    Numbering (fun p => ((Coordinates.ofGeometry g).slotOf? p).map Int.ofNat)
        (Coordinates.ofGeometry g).atSlot? (· ∈ g.positions)
        (fun slot => 0 ≤ slot ∧ slot < g.keys.length) ∧
      Numbering (fun p => ((Coordinates.ofGeometry g).argumentOf? p).map Int.ofNat)
        (Coordinates.itemAt? (Coordinates.ofGeometry g).arguments) (· ∈ g.positions)
        (fun place => 0 ≤ place ∧ place < g.keys.length) ∧
      Numbering (Coordinates.ofGeometry g).lightOf? (Coordinates.ofGeometry g).overLight?
        (fun p => ∃ k ∈ g.keys, k.position = p ∧ k.light?.isSome)
        (fun light => ∃ k ∈ g.keys, k.light? = some light) ∧
      (∀ k ∈ g.keys, (Coordinates.ofGeometry g).lightOf? k.position = k.light?) ∧
      (∀ split?, (Coordinates.ofGeometry { g with split? }).lightOf? =
          (Coordinates.ofGeometry g).lightOf? ∧
        (Coordinates.ofGeometry { g with split? }).overLight? =
          (Coordinates.ofGeometry g).overLight?) ∧
      (∀ slot, (Coordinates.ofGeometry g).lightAtSlot? slot =
          ((Coordinates.ofGeometry g).atSlot? slot).bind (Coordinates.ofGeometry g).lightOf? ∧
        ∀ p, (Coordinates.ofGeometry g).atSlot? slot = some p →
          p ∈ (Coordinates.ofGeometry g).arguments) := by
  obtain ⟨-, hv⟩ := Geometry.valid_of_check h
  have hperm := g.slots_perm_positions
  have hslots : g.slots.Nodup := hperm.nodup_iff.mpr hv.positions_nodup
  have hlength : g.slots.length = g.keys.length := by rw [hperm.length_eq, g.length_positions]
  refine ⟨?_, ?_, Coordinates.numbering_lights hv, fun k hk => ?_, fun split? => ⟨rfl, rfl⟩,
    fun slot => ⟨rfl, fun p hp => ?_⟩⟩
  · have hnum := Coordinates.numbering_of_nodup hslots
    rw [hlength] at hnum
    exact { hnum with defined := fun p => (hnum.defined p).trans hperm.mem_iff }
  · have hnum := Coordinates.numbering_of_nodup hv.positions_nodup
    rw [g.length_positions] at hnum
    exact hnum
  · have hkey : ∀ light, (Coordinates.ofGeometry g).lightOf? k.position = some light ↔
        k.light? = some light := by
      intro light
      rw [Coordinates.lightOf?_eq_some_iff hv]
      constructor
      · rintro ⟨k', hk', hp, hl⟩
        rw [← Coordinates.eq_of_position_eq hv hk' hk hp]
        exact hl
      · intro hl
        exact ⟨k, hk, rfl, hl⟩
    exact Option.ext hkey
  · -- a slot that holds a position holds one of the board
    have hmem : p ∈ g.slots := by
      have hbounds := Coordinates.isSome_itemAt?_iff.mp (Option.isSome_of_eq_some hp)
      obtain ⟨i, rfl⟩ := Int.eq_ofNat_of_zero_le hbounds.1
      exact List.mem_of_getElem? ((Coordinates.itemAt?_natCast g.slots i).symm.trans hp)
    exact hperm.mem_iff.mp hmem

/-- A board of two rows, split between them, whose right half counts its columns from the outer edge
and has a key without a light. -/
def mirroredBoard : Geometry where
  keys := [{ position := ⟨0, 0⟩, light? := some 0 }, { position := ⟨0, 1⟩, light? := some 1 },
    { position := ⟨1, 1⟩, light? := some 3 }, { position := ⟨1, 0⟩ }]
  rows := 2
  cols := 2
  split? := some { reverseColumns := true, boundary? := some 1 }

theorem coordinates_numbering_mirroredBoard :
    mirroredBoard.check = .ok mirroredBoard ∧
      (Coordinates.ofGeometry mirroredBoard).overLight? 3 = some ⟨1, 1⟩ ∧
      ∀ p (slot : Int), ((Coordinates.ofGeometry mirroredBoard).slotOf? p).map Int.ofNat = some slot ↔
        (Coordinates.ofGeometry mirroredBoard).atSlot? slot = some p := by
  obtain ⟨hslots, -, hlights, -⟩ := coordinates_numbering (g := mirroredBoard) rfl
  exact ⟨rfl, (hlights.inverse ⟨1, 1⟩ 3).mp rfl, hslots.inverse⟩

end Keyforge
