import Keyforge.Document.Writer
import Keyforge.Proofs.Document.CellGrammar
import Keyforge.Proofs.Document.Legible
import Keyforge.Proofs.Document.Reader
import Keyforge.Proofs.Layout.Arranged
import Keyforge.Proofs.Layout.Check

/-!
# Reading tables back

A layer's table is read back cell by cell, row by row. The keys of a grid in reading order are the
keys of the layer (`gridKeys_eq`), since both are sorted and have the same members.
-/

namespace Keyforge

open Keyforge.Text Position Layer

variable {keys : List (Position × Key)} {key : Key}

/-! ### Closing a layer -/

theorem Tabular.arrange (h : Tabular keys) : arrange keys = numberFrom 0 keys := by
  rw [Layer.arrange, List.mergeSort_of_pairwise]
  exact h.sorted.imp fun hab => atMost_of_before hab

theorem Layer.make_eq_ok {layer : Layer} (hname : Phrase layer.name.toList)
    (hid : ∀ id, layer.id? = some id → Name.isLayerId id.toList = true)
    (hkeys : Tabular layer.keys) :
    layer.make = .ok { layer with keys := numberFrom 0 layer.keys } := by
  have hcheckId : checkSome checkId layer.id? = .ok layer.id? := by
    cases hcase : layer.id? with
    | none => rfl
    | some id =>
      have haccept : checkId id = .ok id :=
        Datum.Verdict.require_eq_ok_iff.mpr ⟨hid id hcase, rfl⟩
      rw [checkSome, haccept]
      rfl
  have hkeysCheck : checkKeys layer = .ok layer.arranged := by
    unfold checkKeys
    split
    next p key hfound =>
      have hmisplaced := List.find?_some hfound
      simp [(hkeys.placed p key (List.mem_of_find?_eq_some hfound)).1] at hmisplaced
    next => rfl
  rw [make, checkName, nonBlank_eq_ok hname, hcheckId]
  show checkKeys layer = _
  rw [hkeysCheck, arranged, hkeys.arrange]

namespace Document

structure Draft.Legible (draft : Draft) : Prop where
  name : Phrase draft.name.toList
  id : ∀ id, draft.id? = some id → Name.isLayerId id.toList = true
  category : ∀ id, draft.category? = some id → Name.isCategoryId id.toList = true

def Draft.layer (draft : Draft) (index : Nat) (keys : List (Position × Key)) : Layer :=
  { index := index, name := draft.name, id? := draft.id?, color? := draft.color?,
    category? := draft.category?, colorsEnabled := draft.colorsEnabled,
    keys := Layer.numberFrom 0 keys }

theorem closeLayer_eq_ok {c : Content} {draft : Draft} (hdraft : draft.Legible)
    (hkeys : Tabular keys) :
    closeLayer c draft keys =
      .ok { c with layers := c.layers ++ [draft.layer c.layers.length keys] } := by
  unfold closeLayer
  dsimp only
  rw [make_eq_ok hdraft.name hdraft.id hkeys]
  rfl

/-! ### Cells of a row -/

theorem map_fst_placeCells (offset : Nat) (pieces : List (List Char)) :
    (Line.placeCells offset pieces).map Prod.fst = pieces.map trim := by
  induction pieces generalizing offset with
  | nil => rfl
  | cons piece pieces ih => rw [Line.placeCells, List.map_cons, ih, List.map_cons]

/-- A row of a table as its pieces between bars. -/
def barred (pieces : List (List Char)) : List Char := '|' :: ['|'].intercalate pieces ++ ['|']

theorem trimmed_barred (pieces : List (List Char)) : Trimmed (barred pieces) := by
  have hbar : isBlank '|' = false := by decide
  have hends : barred pieces = ('|' :: ['|'].intercalate pieces) ++ ['|'] := rfl
  exact trimmed_of_ends hbar hbar hends

theorem cells?_barred (indent : Nat) {pieces : List (List Char)} (hne : pieces ≠ [])
    (h : ∀ piece ∈ pieces, '|' ∉ piece) :
    ∃ cells, Line.cells? indent (barred pieces) = some cells ∧
      cells.map Prod.fst = pieces.map trim := by
  refine ⟨Line.placeCells (indent + 1) pieces, ?_, map_fst_placeCells _ _⟩
  have hlast : (barred pieces).getLast? = some '|' := List.getLast?_concat
  have hinner : ((barred pieces).drop 1).dropLast = ['|'].intercalate pieces := by
    simp [barred]
  have hlen : ¬(barred pieces).length < 2 := by simp [barred]
  rw [Line.cells?, hlast, hinner, splitAt_intercalate hne h]
  simp [hlen]

/-- A row is cut into the pieces between its bars. -/
theorem exists_pieces_of_cells? {indent : Nat} {cs : List Char} {cells : List (List Char × Nat)}
    (hrow : Line.isRow cs = true) (h : Line.cells? indent cs = some cells) :
    ∃ pieces, pieces ≠ [] ∧ (∀ piece ∈ pieces, '|' ∉ piece) ∧ cs = barred pieces ∧
      cells = Line.placeCells (indent + 1) pieces := by
  rw [Line.cells?] at h
  split at h
  next => cases h
  next hends =>
    cases h
    obtain ⟨tail, rfl⟩ := List.head?_eq_some_iff.mp (beq_iff_eq.mp hrow)
    simp only [Bool.or_eq_true, decide_eq_true_eq, bne_iff_ne, not_or, not_lt, ne_eq,
      Decidable.not_not] at hends
    obtain ⟨hlength, hlast⟩ := hends
    have hne : tail ≠ [] := by
      rintro rfl
      simp at hlength
    rw [List.getLast?_cons_of_ne_nil hne] at hlast
    refine ⟨splitAt '|' tail.dropLast, splitAt_ne_nil _ _, ?_, ?_, rfl⟩
    · intro piece hpiece hbar
      exact (mem_of_mem_splitAt hpiece '|' hbar).2 rfl
    · rw [barred, intercalate_splitAt, List.cons_append, List.dropLast_append_getLast? '|' hlast]

def padded (cell : List Char) : List Char := ' ' :: cell ++ [' ']

theorem intercalate_padded {cells : List (List Char)} (hne : cells ≠ []) :
    ['|'].intercalate (cells.map padded) = ' ' :: ([' ', '|', ' '].intercalate cells ++ [' ']) := by
  induction cells with
  | nil => exact absurd rfl hne
  | cons cell cells ih =>
    cases cells with
    | nil => simp [padded]
    | cons next cells =>
      have ih := ih (by simp)
      rw [List.map_cons] at ih
      rw [List.map_cons, List.map_cons, List.intercalate_cons_cons, ih, List.intercalate_cons_cons,
        padded]
      simp

theorem toList_rowText {cells : List String} (hne : cells ≠ []) :
    (rowText cells).toList = barred ((cells.map String.toList).map padded) := by
  rw [rowText, barred, intercalate_padded (by simpa using hne)]
  simp [String.toList_intercalate]

theorem trim_padded {cell : List Char} (h : Trimmed cell) : trim (padded cell) = cell := by
  rw [padded, trim_append_blank (by decide), trim_blank_cons (by decide), trim_eq_self h]

theorem text_ofKey (h : key.Legible) :
    '|' ∉ (Cell.ofKey key).text.toList ∧ OneLine (Cell.ofKey key).text.toList := by
  obtain ⟨hvisible, hbar⟩ := Cell.visible_suffixes (Cell.ofKey key).color? h.cell.category
  rw [Cell.toList_text]
  refine ⟨fun hmem => ?_, h.oneLine.append hvisible.oneLine⟩
  rcases List.mem_append.mp hmem with hmem | hmem
  · exact h.noBar hmem
  · exact hbar hmem

/-! ### The keys of a grid -/

/-- The keys of some columns of a row, without their descriptions. -/
def rowKeys (layer : Layer) (row : Int) (cols : List Int) : List (Position × Key) :=
  cols.filterMap fun col => (layer.keyAt? ⟨row, col⟩).map fun key => (⟨row, col⟩, key.bare)

def gridKeys (layer : Layer) (rows cols : List Int) : List (Position × Key) :=
  rows.flatMap fun row => rowKeys layer row cols

theorem keyAt?_eq_some_iff {layer : Layer} (h : Tabular layer.keys) {p : Position} :
    layer.keyAt? p = some key ↔ (p, key) ∈ layer.keys :=
  Pairs.lookup_eq_some_iff (nodup_of_increasing h.sorted)

theorem mem_rowKeys {layer : Layer} {row : Int} {cols : List Int} {p : Position} :
    (p, key) ∈ rowKeys layer row cols ↔
      p.row = row ∧ p.col ∈ cols ∧ ∃ original, layer.keyAt? p = some original ∧ key = original.bare := by
  simp only [rowKeys, List.mem_filterMap, Option.map_eq_some_iff, Prod.mk.injEq]
  constructor
  · rintro ⟨col, hcol, original, hkey, rfl, rfl⟩
    exact ⟨rfl, hcol, original, hkey, rfl⟩
  · rintro ⟨rfl, hcol, original, hkey, rfl⟩
    exact ⟨p.col, hcol, original, hkey, rfl, rfl⟩

theorem rowKeys_cons (layer : Layer) (row col : Int) (cols : List Int) :
    rowKeys layer row (col :: cols) =
      ((layer.keyAt? ⟨row, col⟩).map fun key => (⟨row, col⟩, key.bare)).toList ++
        rowKeys layer row cols := by
  rw [rowKeys, rowKeys, List.filterMap_cons]
  cases layer.keyAt? ⟨row, col⟩ <;> rfl

theorem pairwise_gridKeys (layer : Layer) {rows cols : List Int} (hrows : rows.Pairwise (· < ·))
    (hcols : cols.Pairwise (· < ·)) :
    (gridKeys layer rows cols).Pairwise fun a b => a.1.before b.1 = true := by
  refine List.pairwise_flatMap.mpr ⟨fun row _ => ?_, hrows.imp fun {r s} hlt a ha b hb => ?_⟩
  · refine List.pairwise_filterMap.mpr (hcols.imp fun {x y} hlt a ha b hb => ?_)
    obtain ⟨_, -, rfl⟩ := Option.map_eq_some_iff.mp ha
    obtain ⟨_, -, rfl⟩ := Option.map_eq_some_iff.mp hb
    exact before_iff.mpr (.inr ⟨rfl, hlt⟩)
  · have hrow := (mem_rowKeys.mp ha).1
    have hrow' := (mem_rowKeys.mp hb).1
    exact before_iff.mpr (.inl (by omega))

theorem le_foldl_max (ns : List Int) (start : Int) :
    start ≤ ns.foldl max start ∧ ∀ n ∈ ns, n ≤ ns.foldl max start := by
  induction ns generalizing start with
  | nil => simp
  | cons m ns ih =>
    obtain ⟨hstart, hns⟩ := ih (max start m)
    rw [List.foldl_cons]
    refine ⟨by omega, fun n hn => ?_⟩
    rcases List.mem_cons.mp hn with rfl | hn
    · omega
    · exact hns n hn

theorem lt_beyond {ns : List Int} {n : Int} (h : n ∈ ns) : n < beyond ns := by
  cases ns with
  | nil => cases h
  | cons m ns =>
    obtain ⟨hstart, hns⟩ := le_foldl_max ns m
    have hle : n ≤ ns.foldl max m := by
      rcases List.mem_cons.mp h with rfl | h
      · exact hstart
      · exact hns n h
    show n < ns.foldl max m + 1
    omega

def tableSize (layer : Layer) (f : Position → Int) : Nat :=
  (beyond (layer.keys.map fun (p, _) => f p)).toNat

theorem lt_tableSize {layer : Layer} {p : Position} {key : Key} (h : (p, key) ∈ layer.keys)
    (f : Position → Int) : f p < tableSize layer f := by
  have hlt : f p < beyond (layer.keys.map fun (p, _) => f p) :=
    lt_beyond (List.mem_map.mpr ⟨(p, key), h, rfl⟩)
  rw [tableSize]
  omega

theorem gridKeys_eq {layer : Layer} (h : Tabular layer.keys) :
    gridKeys layer (indices (tableSize layer (·.row))) (indices (tableSize layer (·.col))) =
      layer.keys.map fun (p, key) => (p, key.bare) := by
  have hgrid := pairwise_gridKeys layer (pairwise_indices (tableSize layer (·.row)))
    (pairwise_indices (tableSize layer (·.col)))
  have hkeys : (layer.keys.map fun (p, key) => (p, key.bare)).Pairwise
      fun a b => a.1.before b.1 = true := List.pairwise_map.mpr h.sorted
  -- both lists are sorted, so it is enough that they have the same members
  refine Ascending.eq_of_mem_iff (f := Prod.fst) hgrid hkeys ?_
  rintro ⟨p, key⟩
  simp only [gridKeys, List.mem_flatMap, mem_rowKeys, List.mem_map, Prod.mk.injEq,
    keyAt?_eq_some_iff h]
  constructor
  · rintro ⟨row, -, -, -, original, hmem, rfl⟩
    exact ⟨(p, original), hmem, rfl, rfl⟩
  · rintro ⟨⟨q, original⟩, hmem, rfl, rfl⟩
    obtain ⟨-, hrow, hcol⟩ := h.placed q original hmem
    exact ⟨q.row, mem_indices.mpr ⟨hrow, lt_tableSize hmem (·.row)⟩, rfl,
      mem_indices.mpr ⟨hcol, lt_tableSize hmem (·.col)⟩, original, hmem, rfl⟩

/-! ### Reading a table -/

theorem make_eq_ok (hkeycode : Phrase key.keycode.toList) (hdescription : key.description? = none) :
    key.make = .ok key := by
  rw [Key.make, Key.checkKeycode, nonBlank_eq_ok hkeycode, hdescription]
  show Datum.Verdict.ok _ = _
  rw [Key.tidyDescription, Option.bind_none, ← hdescription]

theorem phrase_keycode (h : key.Legible) : Phrase key.keycode.toList :=
  have hkeycode := Cell.trimmed_of_isKeycode h.cell.keycode
  ⟨hkeycode.1, hkeycode.2, h.oneLine⟩

theorem forall_entry_concat {P : Position → Key → Prop} {p : Position}
    (hkeys : ∀ q k, (q, k) ∈ keys → P q k) (hnew : P p key) :
    ∀ q k, (q, k) ∈ keys ++ [(p, key)] → P q k := by
  intro q k hmem
  rcases List.mem_append.mp hmem with hmem | hmem
  · exact hkeys q k hmem
  · cases List.mem_singleton.mp hmem
    exact hnew

theorem ne_of_before {p : Position} (hkeys : ∀ q k, (q, k) ∈ keys → q.before p = true) :
    ∀ q k, (q, k) ∈ keys → q ≠ p := by
  rintro q k hmem rfl
  have hirrefl := hkeys q k hmem
  rw [before_irrefl] at hirrefl
  cases hirrefl

section NextCell

variable {row col : Nat} (hkeys : ∀ q k, (q, k) ∈ keys → q.before ⟨row, col⟩ = true)

include hkeys

theorem before_next : ∀ q k, (q, k) ∈ keys → q.before ⟨row, (col + 1 : Nat)⟩ = true := by
  intro q k hmem
  have hbefore := before_iff.mp (hkeys q k hmem)
  dsimp only at hbefore
  exact before_iff.mpr (by push_cast; omega)

theorem before_next_concat : ∀ q k, (q, k) ∈ keys ++ [((⟨row, col⟩ : Position), key)] →
    q.before ⟨row, (col + 1 : Nat)⟩ = true :=
  forall_entry_concat (before_next hkeys) (before_iff.mpr (.inr ⟨rfl, by push_cast; omega⟩))

end NextCell

theorem put_numberFrom {p : Position} (h : ∀ q k, (q, k) ∈ keys → q ≠ p) :
    Pairs.put p { key with slot := (keys.length : Nat) } (numberFrom 0 keys) =
      numberFrom 0 (keys ++ [(p, key)]) := by
  rw [numberFrom_append, Nat.zero_add, Pairs.put_eq_append]
  · rfl
  · rintro ⟨q, k⟩ hmem
    obtain ⟨original, slot, hq, -⟩ := mem_numberFrom hmem
    exact h q original hq

theorem readCells_key (hlegible : key.Legible) {row col : Nat}
    (hposition : (⟨row, col⟩ : Position) = key.position) {cs : List Char}
    (hcs : cs = (Cell.ofKey key).text.toList) (hnew : ∀ q k, (q, k) ∈ keys → q ≠ ⟨row, col⟩)
    (line column : Nat) (rest : List (List Char × Nat)) (uses : List CategoryNote) :
    readCells line row col ((cs, column) :: rest) (numberFrom 0 keys) uses =
      readCells line row (col + 1) rest (numberFrom 0 (keys ++ [(⟨row, col⟩, key.bare)]))
        (uses ++ key.category?.toList.map fun id => ⟨id, line, column⟩) := by
  have hread : Cell.read cs = .ok (Cell.ofKey key) := by
    rw [hcs]
    exact Cell.read_text hlegible.cell
  have hne : ¬cs.isEmpty = true := by
    rw [hcs]
    simpa using (Cell.trimmed_text hlegible.cell).1
  have hmade : Key.make
      { keycode := (Cell.ofKey key).keycode
        position := ⟨row, col⟩
        slot := ((numberFrom 0 keys).length : Nat)
        color? := (Cell.ofKey key).color?
        category? := (Cell.ofKey key).category? } =
      .ok { key.bare with slot := (keys.length : Nat) } := by
    have hkeycode : Phrase (Cell.ofKey key).keycode.toList := phrase_keycode hlegible
    refine (make_eq_ok ?_ rfl).trans ?_
    · exact hkeycode
    · rw [length_numberFrom, hposition, Key.bare, hlegible.noLight]
      rfl
  rw [readCells, if_neg hne, hread]
  dsimp only
  rw [hmade]
  dsimp only
  rw [put_numberFrom hnew]
  rfl

theorem readCells_row {layer : Layer} (h : Tabular layer.keys) (line row : Nat) {count col : Nat}
    {cells : List (List Char × Nat)}
    (hcells : cells.map Prod.fst = (List.range' col count).map fun i =>
      (cellText layer ⟨row, (i : Nat)⟩).toList)
    (hkeys : ∀ q k, (q, k) ∈ keys → q.before ⟨row, col⟩ = true) (uses : List CategoryNote) :
    ∃ notes, readCells line row col cells (numberFrom 0 keys) uses =
        .ok (numberFrom 0 (keys ++ rowKeys layer row ((List.range' col count).map Int.ofNat)),
          uses ++ notes) ∧
      notes.map (·.id) = (rowKeys layer row ((List.range' col count).map Int.ofNat)).filterMap
        (·.2.category?) := by
  induction count generalizing col cells keys uses with
  | zero =>
    rw [List.range'_zero, List.map_nil, List.map_eq_nil_iff] at hcells
    rw [hcells]
    exact ⟨[], by simp [readCells, rowKeys], by simp [rowKeys]⟩
  | succ count ih =>
    rw [List.range'_succ, List.map_cons] at hcells
    obtain ⟨⟨cs, column⟩, rest, rfl, hcs, hrest⟩ := List.map_eq_cons_iff.mp hcells
    rw [List.range'_succ, List.map_cons]
    dsimp only at hcs
    rw [rowKeys_cons, Int.ofNat_eq_natCast]
    -- an empty cell holds no key
    cases hkey : layer.keyAt? ⟨row, col⟩ with
    | none =>
      have hblank : cs.isEmpty = true := by
        rw [hcs, cellText, hkey]
        rfl
      rw [readCells, if_pos hblank]
      exact ih hrest (before_next hkeys) uses
    | some key =>
      have hmem := (keyAt?_eq_some_iff h).mp hkey
      have htext : cs = (Cell.ofKey key).text.toList := by
        rw [hcs, cellText, hkey]
      obtain ⟨notes, hrun, hids⟩ := ih hrest (before_next_concat hkeys)
        (uses ++ key.category?.toList.map fun id => ⟨id, line, column⟩)
      refine ⟨(key.category?.toList.map fun id => ⟨id, line, column⟩) ++ notes, ?_, ?_⟩
      · rw [readCells_key (h.legible _ key hmem) (h.placed _ key hmem).1 htext
          (ne_of_before hkeys), hrun, List.append_assoc, List.append_assoc]
        rfl
      · rw [List.map_append, hids, List.filterMap_append]
        cases hcategory : key.category? <;> simp [Key.bare, hcategory]

variable {limits : Limits} {now : Time.Stamp}

theorem row_of_barred {full : List Char} {pieces : List (List Char)} (hfull : full = barred pieces)
    (hne : pieces ≠ []) (hbars : ∀ piece ∈ pieces, '|' ∉ piece) :
    Line.isRow (trim full) = true ∧ ∃ cells,
      Line.cells? (full.length - (trimLeft full).length) (trim full) = some cells ∧
        cells.map Prod.fst = pieces.map trim := by
  rw [hfull, trim_eq_self (trimmed_barred pieces)]
  exact ⟨rfl, cells?_barred _ hne hbars⟩

theorem cellText_spec {layer : Layer} (h : Tabular layer.keys) (p : Position) :
    Trimmed (cellText layer p).toList ∧ '|' ∉ (cellText layer p).toList ∧
      OneLine (cellText layer p).toList := by
  rw [cellText]
  cases hkey : layer.keyAt? p with
  | none => exact ⟨trimmed_nil, by simp, oneLine_nil⟩
  | some key =>
    have hlegible := h.legible p key ((keyAt?_eq_some_iff h).mp hkey)
    obtain ⟨hbar, hline⟩ := text_ofKey hlegible
    exact ⟨(Cell.trimmed_text hlegible.cell).2, hbar, hline⟩

theorem notMem_padded {cell : List Char} (h : '|' ∉ cell) : '|' ∉ padded cell := by
  simp [padded, h]

theorem indices_natCast (count : Nat) : indices count = (List.range' 0 count).map Int.ofNat := by
  rw [indices, Int.toNat_natCast, List.range_eq_range']

theorem indices_ne_nil {count : Nat} (h : 0 < count) : indices count ≠ [] := by
  rw [indices_natCast]
  simp only [ne_eq, List.map_eq_nil_iff, List.range'_eq_nil_iff]
  omega

def rowLine (layer : Layer) (columns : Nat) (row : Int) : String :=
  rowText ((indices columns).map fun col => cellText layer ⟨row, col⟩)

theorem readLine_rowLine {layer : Layer} (h : Tabular layer.keys) {columns : Nat}
    (hcolumns : 0 < columns) (draft : Draft) {row : Nat}
    (hkeys : ∀ q k, (q, k) ∈ keys → q.row < row) (c : Content) (line : Nat) :
    ∃ t, readLine limits now line (rowLine layer columns row).toList
        (.inside c (.table draft columns row (numberFrom 0 keys))) = .ok t ∧
      ∃ notes, t = .inside { c with uses := c.uses ++ notes } (.table draft columns (row + 1)
          (numberFrom 0 (keys ++ rowKeys layer row (indices columns)))) ∧
        notes.map (·.id) =
          (rowKeys layer row (indices columns)).filterMap (·.2.category?) := by
  have hne : ((indices columns).map fun col => cellText layer ⟨row, col⟩) ≠ [] := by
    simpa using indices_ne_nil hcolumns
  have hbars : ∀ piece ∈ (((indices columns).map fun col =>
      cellText layer ⟨row, col⟩).map String.toList).map padded, '|' ∉ piece := by
    intro piece hpiece
    simp only [List.mem_map] at hpiece
    obtain ⟨_, ⟨_, ⟨col, -, rfl⟩, rfl⟩, rfl⟩ := hpiece
    exact notMem_padded (cellText_spec h _).2.1
  obtain ⟨hrow, cells, hcells, htexts⟩ :=
    row_of_barred (toList_rowText hne) (by simpa using hne) hbars
  have htexts' : cells.map Prod.fst = (List.range' 0 columns).map fun i =>
      (cellText layer ⟨row, (i : Nat)⟩).toList := by
    rw [htexts, indices_natCast]
    simp only [List.map_map]
    refine List.map_congr_left fun i _ => ?_
    exact trim_padded (cellText_spec h _).1
  have hbefore : ∀ q k, (q, k) ∈ keys → q.before ⟨row, (0 : Nat)⟩ = true := fun q k hq =>
    before_iff.mpr (.inl (hkeys q k hq))
  obtain ⟨notes, hread, hids⟩ := readCells_row h line row htexts' hbefore c.uses
  have hcount : checkCount line cells columns = .ok () := by
    have hlen : cells.length = columns := by
      rw [← List.length_map (f := Prod.fst), htexts', List.length_map, List.length_range']
    rw [checkCount, if_pos hlen]
  rw [← indices_natCast] at hread hids
  refine ⟨_, ?_, notes, rfl, hids⟩
  rw [rowLine, readLine_keys hrow hcells, readKeys, hcount]
  show (readCells line row 0 cells (numberFrom 0 keys) c.uses >>= _) = _
  rw [hread]
  rfl

theorem reads_rows {layer : Layer} (h : Tabular layer.keys) {columns : Nat} (hcolumns : 0 < columns)
    (draft : Draft) {count row : Nat} (hkeys : ∀ q k, (q, k) ∈ keys → q.row < row) (c : Content) :
    Reads limits now
      ((List.range' row count).map fun r => (rowLine layer columns (r : Nat)).toList)
      (.inside c (.table draft columns row (numberFrom 0 keys)))
      fun t => ∃ notes, t = .inside { c with uses := c.uses ++ notes }
          (.table draft columns (row + count) (numberFrom 0 (keys ++
            gridKeys layer ((List.range' row count).map Int.ofNat) (indices columns)))) ∧
        notes.map (·.id) = (gridKeys layer ((List.range' row count).map Int.ofNat)
          (indices columns)).filterMap (·.2.category?) := by
  induction count generalizing row keys c with
  | zero => exact Reads.nil ⟨[], by simp [gridKeys], by simp [gridKeys]⟩
  | succ count ih =>
    rw [List.range'_succ, List.map_cons, List.map_cons]
    refine Reads.cons (readLine_rowLine h hcolumns draft hkeys c) ?_
    rintro t ⟨notes, rfl, hids⟩
    have hkeys' : ∀ q k, (q, k) ∈ keys ++ rowKeys layer row (indices columns) →
        q.row < (row + 1 : Nat) := by
      intro q k hq
      rcases List.mem_append.mp hq with hq | hq
      · have := hkeys q k hq
        omega
      · have := (mem_rowKeys.mp hq).1
        omega
    refine (ih hkeys' _).mono ?_
    rintro u ⟨more, rfl, hmore⟩
    refine ⟨notes ++ more, ?_, ?_⟩
    · simp [gridKeys, Nat.add_assoc, Nat.add_comm 1]
    · rw [List.map_append, hids, hmore]
      simp [gridKeys]

/-! ### Header and separator -/

theorem columnName_spec {col : Int} (h : 0 ≤ col) :
    Visible (columnName col).toList ∧ '|' ∉ (columnName col).toList := by
  have hname : (columnName col).toList = 'C' :: Nat.toDigits 10 col.toNat := by
    rw [columnName, String.toList_append, toList_intText h]
    rfl
  have hchar : ∀ c ∈ (columnName col).toList, (33 ≤ c.toNat ∧ c.toNat ≤ 126) ∧ c ≠ '|' := by
    rw [hname]
    intro c hc
    rcases List.mem_cons.mp hc with rfl | hc
    · decide
    · have hbounds := Name.bounds_of_isDigit (Nat.isDigit_of_mem_toDigits (by decide) (by decide) hc)
      refine ⟨by omega, ?_⟩
      rintro rfl
      exact absurd hbounds (by decide)
  exact ⟨fun c hc => (hchar c hc).1, fun hbar => (hchar _ hbar).2 rfl⟩

def dashesUnder (col : Int) : List Char := List.replicate ((columnName col).length + 2) '-'

theorem visible_dashesUnder (col : Int) : Visible (dashesUnder col) ∧ '|' ∉ dashesUnder col := by
  refine ⟨fun c hc => ?_, fun hbar => ?_⟩
  · rw [List.eq_of_mem_replicate hc]
    decide
  · exact absurd (List.eq_of_mem_replicate hbar) (by decide)

theorem isSeparator_dashesUnder (col : Int) : Line.isSeparator (dashesUnder col) = true := by
  have hdrop : (dashesUnder col).dropWhile (· == '-') = [] :=
    List.dropWhile_eq_nil_iff.mpr fun c hc => by rw [List.eq_of_mem_replicate hc]; rfl
  have hhead : (dashesUnder col).head? = some '-' := rfl
  rw [Line.isSeparator, hhead]
  simp [hdrop, hhead]

def separatorLine (cols : List Int) : String :=
  "|" ++ String.intercalate "|" (cols.map fun col => String.ofList (dashesUnder col)) ++ "|"

theorem toList_separatorLine (cols : List Int) :
    (separatorLine cols).toList = barred (cols.map dashesUnder) := by
  simp [separatorLine, barred, String.toList_intercalate, Function.comp_def]

theorem readLine_separatorLine {cols : List Int} (hne : cols ≠ []) (c : Content) (draft : Draft)
    (line : Nat) :
    readLine limits now line (separatorLine cols).toList
        (.inside c (.tableSeparator draft cols.length)) =
      .ok (.inside c (.table draft cols.length 0 [])) := by
  have hbars : ∀ piece ∈ cols.map dashesUnder, '|' ∉ piece := by
    intro piece hpiece
    obtain ⟨col, -, rfl⟩ := List.mem_map.mp hpiece
    exact (visible_dashesUnder col).2
  obtain ⟨hrow, cells, hcells, htexts⟩ :=
    row_of_barred (toList_separatorLine cols) (by simpa using hne) hbars
  have hseparator : ∀ cs column, (cs, column) ∈ cells → Line.isSeparator cs = true := by
    intro cs column hmem
    have hcs : cs ∈ (cols.map dashesUnder).map trim :=
      htexts ▸ List.mem_map.mpr ⟨(cs, column), hmem, rfl⟩
    simp only [List.mem_map] at hcs
    obtain ⟨_, ⟨col, -, rfl⟩, rfl⟩ := hcs
    rw [trim_eq_self (visible_dashesUnder col).1.trimmed, isSeparator_dashesUnder]
  have hlen : cells.length = cols.length := by
    rw [← List.length_map (f := Prod.fst), htexts, List.length_map, List.length_map]
  rw [readLine_separator hrow hcells, readSeparator, List.find?_eq_none.mpr]
  · simp only [checkCount, hlen, if_true]
    rfl
  · rintro ⟨cs, column⟩ hmem
    simp [hseparator cs column hmem]

theorem readLine_headerLine {cols : List Int} (hne : cols ≠ []) (hcols : ∀ col ∈ cols, 0 ≤ col)
    (c : Content) (draft : Draft) (line : Nat) :
    readLine limits now line (rowText (cols.map columnName)).toList (.inside c (.layer draft)) =
      .ok (.inside c (.tableSeparator draft cols.length)) := by
  have hbars : ∀ piece ∈ ((cols.map columnName).map String.toList).map padded, '|' ∉ piece := by
    intro piece hpiece
    simp only [List.mem_map] at hpiece
    obtain ⟨_, ⟨_, ⟨col, hcol, rfl⟩, rfl⟩, rfl⟩ := hpiece
    exact notMem_padded (columnName_spec (hcols col hcol)).2
  obtain ⟨hrow, cells, hcells, htexts⟩ :=
    row_of_barred (toList_rowText (by simpa using hne)) (by simpa using hne) hbars
  have hlen : cells.length = cols.length := by
    rw [← List.length_map (f := Prod.fst), htexts]
    simp
  rw [readLine_header hrow hcells, hlen]

theorem indices_toNat (count : Int) : indices count = indices (count.toNat : Nat) := by
  rw [indices, indices, Int.toNat_natCast]

theorem tableLines_eq (layer : Layer) :
    tableLines layer = rowText ((indices (tableSize layer (·.col))).map columnName) ::
      separatorLine (indices (tableSize layer (·.col))) ::
        (List.range' 0 (tableSize layer (·.row))).map fun row =>
          rowLine layer (tableSize layer (·.col)) (row : Nat) := by
  have hindices : ∀ f : Position → Int,
      indices (beyond (layer.keys.map fun (p, _) => f p)) = indices (tableSize layer f) :=
    fun f => indices_toNat _
  rw [tableLines]
  dsimp only
  rw [hindices (·.row), hindices (·.col), indices_natCast (tableSize layer (·.row)), List.map_map]
  rfl

theorem reads_tableLines {layer : Layer} (h : Tabular layer.keys) (hne : layer.keys ≠ [])
    (c : Content) (draft : Draft) :
    Reads limits now ((tableLines layer).map String.toList) (.inside c (.layer draft)) fun t =>
      ∃ notes columns rows, t = .inside { c with uses := c.uses ++ notes }
          (.table draft columns rows
            (numberFrom 0 (layer.keys.map fun (p, key) => (p, key.bare)))) ∧
        notes.map (·.id) = layer.keys.filterMap (·.2.category?) := by
  have hgrid := gridKeys_eq h
  rw [tableLines_eq layer]
  have hpos : 0 < tableSize layer (·.col) := by
    obtain ⟨⟨p, key⟩, hmem⟩ := List.exists_mem_of_ne_nil _ hne
    have := lt_tableSize hmem (·.col)
    have := (h.placed p key hmem).2.2
    omega
  generalize tableSize layer (·.row) = rows, tableSize layer (·.col) = columns at *
  have hcolsNe := indices_ne_nil hpos
  have hlen : (indices columns).length = columns := by
    rw [indices_natCast, List.length_map, List.length_range']
  rw [indices_natCast rows] at hgrid
  rw [List.map_cons, List.map_cons, List.map_map]
  refine Reads.cons (Q := (· = .inside c (.tableSeparator draft columns))) (fun line => ?_) ?_
  · exact ⟨_, readLine_headerLine hcolsNe (fun col hcol => (mem_indices.mp hcol).1) c draft line,
      by rw [hlen]⟩
  rintro _ rfl
  refine Reads.cons (Q := (· = .inside c (.table draft columns 0 []))) (fun line => ?_) ?_
  · exact ⟨_, by simpa only [hlen] using readLine_separatorLine hcolsNe c draft line, rfl⟩
  rintro _ rfl
  have hnone : ∀ q k, (q, k) ∈ ([] : List (Position × Key)) → q.row < (0 : Nat) := by simp
  refine (reads_rows h hpos draft hnone c).mono ?_
  rintro t ⟨notes, rfl, hids⟩
  rw [List.nil_append, hgrid]
  refine ⟨notes, columns, 0 + rows, rfl, ?_⟩
  rw [hids, hgrid, List.filterMap_map]
  rfl

end Document

end Keyforge
