import Keyforge.Proofs.Board.Coordinates
import Keyforge.Proofs.Board.Position

/-!
# The reading order of split boards

Each half of a split board is shown in a frame of its own, and the two frames share no cell. Slots
are numbered by sorting the cells; as these differ (`nodup_cells`), slots follow the cells exactly
(`precedes_iff_cellBefore`).
-/

namespace Keyforge

variable {p : Position}

namespace Geometry

variable {g : Geometry} {split : Split} {halves : List Half}

/-! ### The corner and the span of some positions -/

theorem min?_eq_least {ns : List Int} (h : ns ≠ []) : ns.min? = some (least ns) := by
  cases ns with
  | nil => exact absurd rfl h
  | cons n rest => exact List.min?_cons'

theorem least_mem {ns : List Int} (h : ns ≠ []) : least ns ∈ ns :=
  (List.min?_eq_some_iff.mp (min?_eq_least h)).1

theorem least_le {ns : List Int} {n : Int} (h : n ∈ ns) : least ns ≤ n :=
  (List.min?_eq_some_iff.mp (min?_eq_least (List.ne_nil_of_mem h))).2 n h

theorem corner_le {ps : List Position} (h : p ∈ ps) :
    (corner ps).row ≤ p.row ∧ (corner ps).col ≤ p.col :=
  ⟨least_le (List.mem_map_of_mem h), least_le (List.mem_map_of_mem h)⟩

theorem exists_row_eq_corner {ps : List Position} (h : p ∈ ps) :
    ∃ q ∈ ps, q.row = (corner ps).row := by
  have hne : ps.map Position.row ≠ [] := List.ne_nil_of_mem (List.mem_map_of_mem h)
  exact List.mem_map.mp (least_mem hne)

theorem col_lt_span {ps : List Position} (h : p ∈ ps) : p.col - (corner ps).col < span ps := by
  have hstep : ∀ (c : Int) (qs : List Position) (start : Int),
      start ≤ qs.foldl (fun w q => max w (q.col - c + 1)) start ∧
        ∀ q ∈ qs, q.col - c < qs.foldl (fun w q => max w (q.col - c + 1)) start := by
    intro c qs
    induction qs with
    | nil => simp
    | cons r qs ih =>
      intro start
      obtain ⟨hstart, hqs⟩ := ih (max start (r.col - c + 1))
      rw [List.foldl_cons]
      refine ⟨by omega, fun q hq => ?_⟩
      rcases List.mem_cons.mp hq with rfl | hq
      · omega
      · exact hqs q hq
  exact (hstep (corner ps).col ps 0).2 p h

/-! ### Halves -/

def InHalf (g : Geometry) (halves : List Half) (h : Half) (p : Position) : Prop :=
  (p, h) ∈ g.positions.zip halves

theorem mem_members {h : Half} : p ∈ g.members h halves ↔ g.InHalf halves h p := by
  simp [members, InHalf]

theorem map_fst_zip_halves (hlength : halves.length = g.keys.length) :
    (g.positions.zip halves).map Prod.fst = g.positions :=
  List.map_fst_zip (by simp [hlength])

theorem exists_inHalf (hlength : halves.length = g.keys.length) (hp : p ∈ g.positions) :
    ∃ h, g.InHalf halves h p := by
  rw [← map_fst_zip_halves hlength] at hp
  obtain ⟨⟨_, h⟩, hmem, rfl⟩ := List.mem_map.mp hp
  exact ⟨h, hmem⟩

def top (g : Geometry) (halves : List Half) (h : Half) : Int := (corner (g.members h halves)).row

/-! ### Cells -/

def frame (g : Geometry) (split : Split) (halves : List Half) : Half → Frame
  | .left => g.leftFrame halves
  | .right => g.rightFrame split halves

def ShownIn (g : Geometry) (halves : List Half) (p : Position) (cell : Int × Int) : Prop :=
  (cell, p) ∈ (g.cells halves).zip g.positions

theorem cells_eq_map (hsplit : g.split? = some split) :
    g.cells halves =
      (g.positions.zip halves).map fun (p, h) => (g.frame split halves h).cell p := by
  unfold cells
  rw [hsplit]
  refine List.map_congr_left fun ⟨p, h⟩ _ => ?_
  cases h <;> rfl

theorem shownIn_iff (hsplit : g.split? = some split) (hlength : halves.length = g.keys.length)
    {cell : Int × Int} :
    g.ShownIn halves p cell ↔
      ∃ h, g.InHalf halves h p ∧ cell = (g.frame split halves h).cell p := by
  have hzip : (g.cells halves).zip g.positions =
      (g.positions.zip halves).map fun x => ((g.frame split halves x.2).cell x.1, x.1) := by
    rw [cells_eq_map hsplit]
    nth_rewrite 2 [← map_fst_zip_halves hlength]
    exact List.zip_map'
  rw [ShownIn, hzip, List.mem_map]
  constructor
  · rintro ⟨⟨q, h⟩, hmem, heq⟩
    cases heq
    exact ⟨h, hmem, rfl⟩
  · rintro ⟨h, hmem, rfl⟩
    exact ⟨(p, h), hmem, rfl⟩

theorem cell_row (split : Split) (h : Half) (p : Position) :
    ((g.frame split halves h).cell p).1 = p.row - g.top halves h := by
  cases h <;> rfl

theorem left_col (p : Position) :
    ((g.frame split halves .left).cell p).2 =
      p.col - (corner (g.members .left halves)).col :=
  Int.zero_add _

theorem right_col (p : Position) :
    ((g.frame split halves .right).cell p).2 = span (g.members .left halves) +
      if split.reverseColumns then
        span (g.members .right halves) - 1 - (p.col - (corner (g.members .right halves)).col)
      else p.col - (corner (g.members .right halves)).col :=
  rfl

theorem left_col_lt (split : Split) (hp : g.InHalf halves .left p) :
    ((g.frame split halves .left).cell p).2 < span (g.members .left halves) := by
  rw [left_col]
  exact col_lt_span (mem_members.mpr hp)

/-- The right half starts where the left half ends, whichever way its columns run. -/
theorem le_right_col (split : Split) (hp : g.InHalf halves .right p) :
    span (g.members .left halves) ≤ ((g.frame split halves .right).cell p).2 := by
  have hcorner := (corner_le (mem_members.mpr hp)).2
  have hspan := col_lt_span (mem_members.mpr hp)
  rw [right_col]
  split <;> omega

theorem Frame.cell_inj {f : Frame} {q : Position} (h : f.cell p = f.cell q) : p = q := by
  obtain ⟨hrow, hcol⟩ := Prod.mk.inj h
  cases p
  cases q
  rw [Position.mk.injEq]
  simp only at hrow hcol
  refine ⟨by omega, ?_⟩
  split at hcol <;> omega

theorem eq_of_cell_eq {h h' : Half} {q : Position} (hp : g.InHalf halves h p)
    (hq : g.InHalf halves h' q)
    (heq : (g.frame split halves h).cell p = (g.frame split halves h').cell q) :
    p = q ∧ h = h' := by
  -- a cell of the left half lies left of the right half's first column
  have hapart : ∀ {a b : Position}, g.InHalf halves .left a → g.InHalf halves .right b →
      (g.frame split halves .left).cell a ≠ (g.frame split halves .right).cell b := by
    intro a b ha hb hab
    have hlt := left_col_lt split ha
    have hle := le_right_col split hb
    rw [hab] at hlt
    omega
  cases h <;> cases h'
  · exact ⟨Frame.cell_inj heq, rfl⟩
  · exact absurd heq (hapart hp hq)
  · exact absurd heq.symm (hapart hq hp)
  · exact ⟨Frame.cell_inj heq, rfl⟩

theorem nodup_cells (hnd : g.positions.Nodup) (hsplit : g.split? = some split)
    (hlength : halves.length = g.keys.length) : (g.cells halves).Nodup := by
  have hzip : (g.positions.zip halves).Nodup := by
    refine List.Nodup.of_map Prod.fst ?_
    rw [map_fst_zip_halves hlength]
    exact hnd
  rw [cells_eq_map hsplit]
  refine List.Nodup.map_on (fun x hx y hy heq => ?_) hzip
  obtain ⟨hpos, hhalf⟩ := eq_of_cell_eq hx hy heq
  exact Prod.ext hpos hhalf

/-! ### Slots -/

/-- A cell is read before another one: it is in a higher row, or further to the left in the same. -/
def CellBefore (c d : Int × Int) : Prop := c.1 < d.1 ∨ (c.1 = d.1 ∧ c.2 < d.2)

theorem readsBefore_iff {a b : (Int × Int) × Position} :
    readsBefore a b = true ↔ CellBefore a.1 b.1 ∨ (a.1 = b.1 ∧ a.2.atMost b.2 = true) := by
  obtain ⟨⟨r, c⟩, p⟩ := a
  obtain ⟨⟨s, d⟩, q⟩ := b
  simp only [readsBefore, CellBefore, Prod.mk.injEq, beq_iff_eq]
  split
  next hrow =>
    split
    next hcol => simp [hrow, hcol]
    next hcol => simp [hrow, hcol]
  next hrow => simp [hrow]

theorem pairwise_readsBefore (items : List ((Int × Int) × Position)) :
    (items.mergeSort readsBefore).Pairwise fun a b => readsBefore a b = true := by
  refine List.pairwise_mergeSort (fun a b c hab hbc => ?_) (fun a b => ?_) items
  · simp only [readsBefore_iff, CellBefore, Position.atMost_iff, Prod.ext_iff] at *
    omega
  · simp only [Bool.or_eq_true, readsBefore_iff, CellBefore, Position.atMost_iff, Prod.ext_iff]
    omega

end Geometry

namespace Coordinates

open Keyforge.Geometry

variable {g : Geometry} {split : Split} {halves : List Half}

/-- Two positions have slots, the first one the smaller slot. -/
def Precedes (c : Coordinates) (p q : Position) : Prop :=
  ∃ m n, c.slotOf? p = some m ∧ c.slotOf? q = some n ∧ m < n

theorem exists_slotOf? (hnd : g.positions.Nodup) (hlength : halves.length = g.keys.length)
    {cell : Int × Int} (hp : g.ShownIn halves p cell) :
    ∃ n, (ofGeometry g halves).slotOf? p = some n ∧
      (((g.cells halves).zip g.positions).mergeSort readsBefore)[n]? = some (cell, p) := by
  have hmem := (List.mergeSort_perm _ readsBefore).mem_iff.mpr hp
  obtain ⟨n, hn⟩ := List.mem_iff_getElem?.mp hmem
  have hslot : (g.slots halves)[n]? = some p := by
    rw [Geometry.slots, List.getElem?_map, hn]
    rfl
  have hslots : (g.slots halves).Nodup := (g.slots_perm hlength).nodup_iff.mpr hnd
  exact ⟨n, (idxOf?_eq_some_iff_of_nodup hslots).mpr hslot, hn⟩

theorem precedes_iff_cellBefore (hnd : g.positions.Nodup) (hcells : (g.cells halves).Nodup)
    (hlength : halves.length = g.keys.length) {q : Position} {c d : Int × Int}
    (hp : g.ShownIn halves p c) (hq : g.ShownIn halves q d) :
    (ofGeometry g halves).Precedes p q ↔ CellBefore c d := by
  obtain ⟨m, hm, hmcell⟩ := exists_slotOf? hnd hlength hp
  obtain ⟨n, hn, hncell⟩ := exists_slotOf? hnd hlength hq
  have hsorted := pairwise_readsBefore ((g.cells halves).zip g.positions)
  have hread : ∀ {i j : Nat} {a b : (Int × Int) × Position}, i < j →
      (((g.cells halves).zip g.positions).mergeSort readsBefore)[i]? = some a →
      (((g.cells halves).zip g.positions).mergeSort readsBefore)[j]? = some b →
      CellBefore a.1 b.1 ∨ a.1 = b.1 := by
    intro i j a b hij ha hb
    obtain ⟨hi, rfl⟩ := List.getElem?_eq_some_iff.mp ha
    obtain ⟨hj, rfl⟩ := List.getElem?_eq_some_iff.mp hb
    exact (readsBefore_iff.mp (List.pairwise_iff_getElem.mp hsorted i j hi hj hij)).imp_right And.left
  constructor
  · rintro ⟨m', n', hm', hn', hlt⟩
    obtain rfl := Option.some.inj (hm'.symm.trans hm)
    obtain rfl := Option.some.inj (hn'.symm.trans hn)
    rcases hread hlt hmcell hncell with hbefore | hsame
    · exact hbefore
    · -- one cell holds one key, which has one slot
      have hfst : (((g.cells halves).zip g.positions).map Prod.fst).Nodup := by
        rw [List.map_fst_zip (by simp [g.length_cells hlength])]
        exact hcells
      have hpq : p = q := congrArg Prod.snd (List.inj_on_of_nodup_map hfst hp hq hsame)
      rw [hpq, hn] at hm
      obtain rfl := Option.some.inj hm
      exact absurd hlt (Nat.lt_irrefl _)
  · intro hbefore
    refine ⟨m, n, hm, hn, Nat.lt_of_not_le fun hle => ?_⟩
    rcases Nat.lt_or_eq_of_le hle with hlt | rfl
    · have hback := hread hlt hncell hmcell
      simp only [CellBefore, Prod.ext_iff] at hbefore hback
      omega
    · rw [hmcell] at hncell
      cases hncell
      simp only [CellBefore] at hbefore
      omega

end Coordinates

/-! ### Split boards -/

namespace Geometry

/-- The reading order of a split board whose keys are put into halves, as it shows in the rows and
columns of the matrix. -/
structure SplitOrder (g : Geometry) (split : Split) (halves : List Half) : Prop where
  inHalf : ∀ p ∈ g.positions, ∃ h, g.InHalf halves h p
  top_least : ∀ h p, g.InHalf halves h p →
    g.top halves h ≤ p.row ∧ ∃ q, g.InHalf halves h q ∧ q.row = g.top halves h
  shown : ∀ h p, g.InHalf halves h p → ∃ col, g.ShownIn halves p (p.row - g.top halves h, col)
  cells_nodup : (g.cells halves).Nodup
  precedes_iff : ∀ p q c d, g.ShownIn halves p c → g.ShownIn halves q d →
    ((Coordinates.ofGeometry g halves).Precedes p q ↔ CellBefore c d)
  left_right : ∀ p q, g.InHalf halves .left p → g.InHalf halves .right q →
    p.row - g.top halves .left = q.row - g.top halves .right →
    (Coordinates.ofGeometry g halves).Precedes p q
  left_left : ∀ p q, g.InHalf halves .left p → g.InHalf halves .left q → p.row = q.row →
    ((Coordinates.ofGeometry g halves).Precedes p q ↔ p.col < q.col)
  right_right : ∀ p q, g.InHalf halves .right p → g.InHalf halves .right q → p.row = q.row →
    ((Coordinates.ofGeometry g halves).Precedes p q ↔
      if split.reverseColumns then q.col < p.col else p.col < q.col)

/-- **Split boards are read row by row, the left half before the right one**, whatever keys the
halves are given: all cells differ, slots follow the cells, and in a row the columns ascend but for a
right half that counts them from the outer edge. -/
theorem splitOrder_of_check {g : Geometry} {split : Split} {halves : List Half}
    (hcheck : g.check = .ok g) (hsplit : g.split? = some split)
    (hlength : halves.length = g.keys.length) : g.SplitOrder split halves := by
  obtain ⟨-, hv⟩ := valid_of_check hcheck
  have hnd := hv.positions_nodup
  have hcells := nodup_cells hnd hsplit hlength
  have hshown : ∀ {h p}, g.InHalf halves h p →
      g.ShownIn halves p ((g.frame split halves h).cell p) :=
    fun hp => (shownIn_iff hsplit hlength).mpr ⟨_, hp, rfl⟩
  have hprecedes : ∀ {h h' p q}, g.InHalf halves h p → g.InHalf halves h' q →
      ((Coordinates.ofGeometry g halves).Precedes p q ↔
        CellBefore ((g.frame split halves h).cell p) ((g.frame split halves h').cell q)) :=
    fun hp hq => Coordinates.precedes_iff_cellBefore hnd hcells hlength (hshown hp) (hshown hq)
  refine {
    inHalf := fun p hp => exists_inHalf hlength hp
    top_least := fun h p hp => ?_
    shown := fun h p hp => ⟨((g.frame split halves h).cell p).2, ?_⟩
    cells_nodup := hcells
    precedes_iff := fun p q c d => Coordinates.precedes_iff_cellBefore hnd hcells hlength
    left_right := fun p q hp hq hrow => ?_
    left_left := fun p q hp hq hrow => ?_
    right_right := fun p q hp hq hrow => ?_ }
  · obtain ⟨q, hq, hrow⟩ := exists_row_eq_corner (mem_members.mpr hp)
    exact ⟨(corner_le (mem_members.mpr hp)).1, q, mem_members.mp hq, hrow⟩
  · rw [← cell_row split]
    exact hshown hp
  · have hlt := left_col_lt split hp
    have hle := le_right_col split hq
    rw [hprecedes hp hq, CellBefore, cell_row, cell_row]
    omega
  · rw [hprecedes hp hq, CellBefore, cell_row, cell_row, left_col, left_col]
    omega
  · rw [hprecedes hp hq, CellBefore, cell_row, cell_row, right_col, right_col]
    split <;> omega

/-- Halves that hold the corners of a square across each other: in the second row the left half has
the second column and still comes first. -/
theorem splitOrder_of_check_crossedHalves :
    mirroredBoard.check = .ok mirroredBoard ∧
      mirroredBoard.SplitOrder { reverseColumns := true, boundary? := some 1 }
        [.left, .right, .left, .right] ∧
      (Coordinates.ofGeometry mirroredBoard [.left, .right, .left, .right]).Precedes ⟨1, 1⟩ ⟨1, 0⟩ := by
  have horder : mirroredBoard.SplitOrder { reverseColumns := true, boundary? := some 1 }
      [.left, .right, .left, .right] := splitOrder_of_check rfl rfl rfl
  refine ⟨rfl, horder, horder.left_right ⟨1, 1⟩ ⟨1, 0⟩ ?_ ?_ rfl⟩ <;>
    simp [InHalf, mirroredBoard, positions]

end Geometry

end Keyforge
