import Keyforge.Proofs.Document.Rearranged

/-!
# Tables and the keys they give

A layer has the keys of the table in its block, which is told from the lines of the document alone
(`HasCells`, `Table.StandsIn`). What the reader has counted is the invariant of each run of lines
(`exists_rows_of_result`), and the blocks follow each other as the layers do
(`exists_layers_of_blocks`).
-/

namespace Keyforge.Document

open Keyforge.Text

variable {limits : Limits} {now : Time.Stamp} {keys : List (Position × Key)}
  {cells : List (List Char × Nat)} {line columns : Nat} {c : Content} {draft : Draft}

/-! ### Tables as they stand in lines -/

/-- A line is a row with the given cells: whatever is around it and around the cells, the cells
stand between bars. -/
def HasCells (full : List Char) (cells : List (List Char)) : Prop :=
  ∃ pieces : List (List Char), pieces ≠ [] ∧ (∀ piece ∈ pieces, '|' ∉ piece) ∧
    trim full = barred pieces ∧ cells = pieces.map trim

structure Table where
  header : List (List Char)
  separator : List (List Char)
  rows : List (List (List Char))

namespace Table

/-- The lines of the table stand together among the lines, and no others are rows. -/
def StandsIn (table : Table) (lines : List (List Char)) : Prop :=
  ∃ before top rule body after, lines = before ++ top :: rule :: (body ++ after) ∧
    (∀ full ∈ before ++ after, Line.isRow (trim full) = false) ∧ HasCells top table.header ∧
    HasCells rule table.separator ∧ List.Forall₂ HasCells body table.rows

/-- All rows have as many cells as the header, and the separator is one. -/
structure Regular (table : Table) : Prop where
  dashes : ∀ cs ∈ table.separator, Line.isSeparator cs = true
  separator : table.separator.length = table.header.length
  rows : ∀ row ∈ table.rows, row.length = table.header.length

end Table

/-- The cells of a row that are not blank, with their places; the first cell is in column `col`. -/
def filledRow (row col : Nat) (cells : List (List Char)) : List (Position × List Char) :=
  (cells.zipIdx col).filterMap fun cell =>
    if cell.1 = [] then none else some (⟨row, cell.2⟩, cell.1)

/-- The cells of some rows that are not blank, with their places, row by row; the first row is the
one with number `row`. -/
def filledFrom (row : Nat) (rows : List (List (List Char))) : List (Position × List Char) :=
  (rows.zipIdx row).flatMap fun cells => filledRow cells.2 0 cells.1

/-- An entry is the key of a cell: it stands at the place of the cell, says what the cell says, and
has the given slot. -/
def IsKeyOf (place : Position × List Char) (slot : Nat) (entry : Position × Key) : Prop :=
  ∃ cell description?, Cell.read place.2 = .ok cell ∧
    entry = (place.1, { cell.key place.1 slot with description? })

/-- The entries are the keys of the cells, one for each in their order, with slots that count on from
`slot`. -/
def KeysFrom (slot : Nat) (places : List (Position × List Char)) (keys : List (Position × Key)) :
    Prop :=
  List.Forall₂ (fun place entry => IsKeyOf place.1 place.2 entry) (places.zipIdx slot) keys

/-- The layer has the keys of the table in the block, or there is no table and it has none. -/
def Block.Tabulates (b : Block) (layer : Layer) : Prop :=
  ((∀ full ∈ b.rest, Line.isRow (trim full) = false) ∧ layer.keys = []) ∨
    ∃ table : Table, table.StandsIn b.rest ∧ table.Regular ∧
      KeysFrom 0 (filledFrom 0 table.rows) layer.keys

/-! ### Small facts -/

theorem filledRow_cons (row col : Nat) (cs : List Char) (cells : List (List Char)) :
    filledRow row col (cs :: cells) =
      (if cs = [] then [] else [(⟨row, col⟩, cs)]) ++ filledRow row (col + 1) cells := by
  unfold filledRow
  rw [List.zipIdx_cons, List.filterMap_cons]
  by_cases hblank : cs = []
  · simp [hblank]
  · simp [hblank]

theorem filledFrom_cons (row : Nat) (cells : List (List Char)) (rows : List (List (List Char))) :
    filledFrom row (cells :: rows) = filledRow row 0 cells ++ filledFrom (row + 1) rows := by
  unfold filledFrom
  rw [List.zipIdx_cons, List.flatMap_cons]

theorem KeysFrom.append {slot : Nat} {places more : List (Position × List Char)}
    {added : List (Position × Key)} (h : KeysFrom slot places keys)
    (hmore : KeysFrom (slot + keys.length) more added) :
    KeysFrom slot (places ++ more) (keys ++ added) := by
  have hlength : keys.length = places.length := by
    rw [← h.length_eq, List.length_zipIdx]
  rw [hlength] at hmore
  unfold KeysFrom
  rw [List.zipIdx_append]
  exact List.rel_append h hmore

/-! ### Rows -/

theorem hasCells_of_cells? {indent : Nat} {full : List Char} (hrow : Line.isRow (trim full) = true)
    (h : Line.cells? indent (trim full) = some cells) : HasCells full (cells.map Prod.fst) := by
  obtain ⟨pieces, hne, hbars, hfull, rfl⟩ := exists_pieces_of_cells? hrow h
  exact ⟨pieces, hne, hbars, hfull, map_fst_placeCells _ _⟩

/-- The cells of a row that are not blank become keys, one after the other. -/
theorem keysFrom_readCells {row col : Nat} (hcells : ∀ cell ∈ cells, OneLine cell.1)
    (hbefore : ∀ p key, (p, key) ∈ keys → p.before ⟨row, col⟩ = true)
    {uses uses' : List CategoryNote} {keys' : List (Position × Key)}
    (h : readCells line row col cells keys uses = .ok (keys', uses')) :
    ∃ added, keys' = keys ++ added ∧
      KeysFrom keys.length (filledRow row col (cells.map Prod.fst)) added := by
  induction cells generalizing col keys uses with
  | nil =>
    cases h
    exact ⟨[], (List.append_nil _).symm, .nil⟩
  | cons cell cells ih =>
    obtain ⟨cs, column⟩ := cell
    obtain ⟨hone, hrest⟩ := List.forall_mem_cons.mp hcells
    rw [List.map_cons, filledRow_cons]
    by_cases hblank : cs = []
    · subst hblank
      exact ih hrest (before_next hbefore) h
    · obtain ⟨cell, uses, hread, h⟩ := exists_readCells_of_cons hone hblank hbefore h
      obtain ⟨added, rfl, hadded⟩ := ih hrest (before_next_concat hbefore) h
      rw [List.length_append, List.length_singleton] at hadded
      refine ⟨(⟨row, col⟩, cell.key ⟨row, col⟩ keys.length) :: added, by simp, ?_⟩
      rw [if_neg hblank]
      have hkey : KeysFrom keys.length [(⟨row, col⟩, cs)]
          [(⟨row, col⟩, cell.key ⟨row, col⟩ keys.length)] :=
        .cons ⟨cell, none, hread, rfl⟩ .nil
      exact hkey.append hadded

theorem length_of_checkCount (h : checkCount line cells columns = .ok ()) :
    cells.length = columns := by
  unfold checkCount at h
  split at h
  next hlength => exact hlength
  next => cases h

theorem exists_of_readKeys {rows : Nat} (hkeys : SoundKeys rows keys)
    (hcells : ∀ cell ∈ cells, OneLine cell.1) {s : State}
    (h : readKeys c draft columns rows line keys cells = .ok s) :
    cells.length = columns ∧ ∃ uses added,
      s = .inside { c with uses } (.table draft columns (rows + 1) (keys ++ added)) ∧
      KeysFrom keys.length (filledRow rows 0 (cells.map Prod.fst)) added := by
  simp only [readKeys, bind_eq_ok_iff] at h
  obtain ⟨⟨⟩, hcount, ⟨keys', uses⟩, hread, h⟩ := h
  cases h
  obtain ⟨added, rfl, hadded⟩ := keysFrom_readCells hcells hkeys.before hread
  exact ⟨length_of_checkCount hcount, uses, added, rfl, hadded⟩

theorem exists_of_readSeparator {s : State} (h : readSeparator c draft columns line cells = .ok s) :
    cells.length = columns ∧ (∀ cs ∈ cells.map Prod.fst, Line.isSeparator cs = true) ∧
      s = .inside c (.table draft columns 0 []) := by
  rw [readSeparator] at h
  split at h
  next => cases h
  next hfind =>
    rw [bind_eq_ok_iff] at h
    obtain ⟨⟨⟩, hcount, h⟩ := h
    cases h
    refine ⟨length_of_checkCount hcount, fun cs hcs => ?_, rfl⟩
    obtain ⟨cell, hcell, rfl⟩ := List.mem_map.mp hcs
    simpa using List.find?_eq_none.mp hfind cell hcell

theorem exists_cells_of_readLine {full : List Char} (hrow : Line.isRow (trim full) = true)
    {region : Region} (hregion : region.rank ≠ 0) {t : State}
    (h : readLine limits now line full (.inside c region) = .ok t) :
    ∃ cells, Line.cells? (full.length - (trimLeft full).length) (trim full) = some cells := by
  cases hcells : Line.cells? (full.length - (trimLeft full).length) (trim full) with
  | some cells => exact ⟨cells, rfl⟩
  | none =>
    have hrefused : ∀ region : Region, region.rank = 1 →
        readLine limits now line full (.inside c region) =
          .error (problemAt .unbalancedRow line (some (size full))) := by
      intro region hrank
      refine readLine_of_error ?_
      cases region with
      | tableHeader | tableSeparator | table =>
        simp only [consume, readContent, hrow, if_true, readRow, hcells]
        rfl
      | body | skipped | categories | descriptions | settings | tapDances | layer => cases hrank
    cases region with
    | tableHeader | tableSeparator | table =>
      rw [hrefused _ rfl] at h
      cases h
    | layer draft =>
      rw [readLine_layer_row hrow, hrefused _ rfl] at h
      cases h
    | body | skipped | categories | descriptions | settings | tapDances =>
      exact absurd rfl hregion

/-! ### Lines of a layer's block -/

theorem layers_of_closeLayer {c' : Content} (hdraft : draft.Legible) {rows : Nat}
    (hkeys : SoundKeys rows keys) (h : closeLayer c draft keys = .ok c') :
    ∃ layer, c'.layers = c.layers ++ [layer] ∧ layer.keys = keys := by
  rw [closeLayer_eq_ok hdraft hkeys.tabular] at h
  cases h
  exact ⟨_, rfl, hkeys.numbered⟩

theorem layers_of_readProperty (c : Content) (draft : Draft) (line : Nat) (cs : List Char) :
    Ensures (fun _ => True) (fun s => ∃ c' draft', s = .inside c' (.layer draft') ∧
      c'.layers = c.layers) (readProperty c draft line cs) := by
  unfold readProperty
  split
  · exact .of_error trivial
  · dsimp only
    split
    · split
      · exact .of_ok ⟨_, _, rfl, rfl⟩
      · exact .of_error trivial
    · split
      · exact .of_ok ⟨_, _, rfl, rfl⟩
      · exact .of_error trivial
    · split
      · exact .of_ok ⟨_, _, rfl, rfl⟩
      · exact .of_error trivial
    · exact .of_ok ⟨_, _, rfl, rfl⟩
    · exact .of_ok ⟨_, _, rfl, rfl⟩

theorem readLine_layer_eq_ok {full : List Char} (hplain : Line.isHeading (trim full) = false)
    (hrow : Line.isRow (trim full) = false) {t : State}
    (h : readLine limits now line full (.inside c (.layer draft)) = .ok t) :
    (∃ c' draft', t = .inside c' (.layer draft') ∧ c'.layers = c.layers) ∨
      ∃ c', closeLayer c draft [] = .ok c' ∧ t = .inside c' .body := by
  by_cases hrule : trim full = ['-', '-', '-']
  · rw [readLine_rule_layer hrule] at h
    obtain ⟨c', hclose, rfl⟩ := map_eq_ok_iff.mp h
    exact .inr ⟨c', hclose, rfl⟩
  by_cases hblank : trim full = []
  · rw [readLine_blank hblank] at h
    cases h
    exact .inl ⟨c, draft, rfl, rfl⟩
  have hproperty : readLine limits now line full (.inside c (.layer draft)) =
      readProperty c draft line (trim full) := by
    refine readLine_of_map_done ?_
    simp [consume, readContent, readPlain, hplain, hrow, hrule, hblank]
  rw [hproperty] at h
  exact .inl ((layers_of_readProperty c draft line (trim full)).ok t h)

section Run

variable {lines : List (List Char)} (hone : ∀ full ∈ lines, OneLine full)
  (hplain : ∀ full ∈ lines, Line.isHeading (trim full) = false) {n : Nat} {c' : Content} {t : State}

include hplain

theorem idle_of_result (h : (readLines limits now n lines (.inside c .body)).result = .ok t)
    (ht : Settles t c') : (∀ full ∈ lines, Line.isRow (trim full) = false) ∧ c' = c := by
  obtain ⟨hrows, rfl⟩ := (readLines_eq_ok_iff_idle (.inl rfl) hplain).mp h
  exact ⟨hrows, (Except.ok.inj (ht n)).symm⟩

include hone

/-- The lines after the separator: rows up to the end of the table, and lines that are none. -/
theorem exists_rows_of_result {rows : Nat}
    (hs : State.Sound limits (.inside c (.table draft columns rows keys)))
    (h : (readLines limits now n lines (.inside c (.table draft columns rows keys))).result = .ok t)
    (ht : Settles t c') :
    ∃ body after cells layer added, lines = body ++ after ∧
      (∀ full ∈ after, Line.isRow (trim full) = false) ∧ List.Forall₂ HasCells body cells ∧
      (∀ row ∈ cells, row.length = columns) ∧ c'.layers = c.layers ++ [layer] ∧
      layer.keys = keys ++ added ∧ KeysFrom keys.length (filledFrom rows cells) added := by
  -- the reader has counted the rows and the keys so far, so both are general
  induction lines generalizing n c rows keys with
  | nil =>
    cases h
    obtain ⟨_, _, ⟨⟩, -, hdraft, -, hkeys⟩ := hs
    have hclose : closeRegion c (.table draft columns rows keys) = .ok c' := ht n
    rw [closeRegion] at hclose
    obtain ⟨layer, hlayers, hlayer⟩ := layers_of_closeLayer hdraft hkeys hclose
    exact ⟨[], [], [], layer, [], rfl, List.forall_mem_nil _, .nil, List.forall_mem_nil _, hlayers,
      by rw [hlayer, List.append_nil], .nil⟩
  | cons full rest ih =>
    obtain ⟨hfull, hone⟩ := List.forall_mem_cons.mp hone
    obtain ⟨hheading, hplain⟩ := List.forall_mem_cons.mp hplain
    obtain ⟨u, hu, h⟩ := readLines_cons_eq_ok_iff.mp h
    have hsound := sound_readLine hfull hs hu
    obtain ⟨_, _, ⟨⟩, -, hdraft, -, hkeys⟩ := hs
    cases hrow : Line.isRow (trim full) with
    | false =>
      rw [readLine_table_end hrow, bind_eq_ok_iff] at hu
      obtain ⟨c₁, hclose, hu⟩ := hu
      obtain ⟨-, rfl⟩ := (readLine_eq_ok_iff_idle (.inl rfl) hheading).mp hu
      obtain ⟨hrows, rfl⟩ := idle_of_result hplain h ht
      obtain ⟨layer, hlayers, hlayer⟩ := layers_of_closeLayer hdraft hkeys hclose
      exact ⟨[], full :: rest, [], layer, [], rfl, List.forall_mem_cons.mpr ⟨hrow, hrows⟩, .nil,
        List.forall_mem_nil _, hlayers, by rw [hlayer, List.append_nil], .nil⟩
    | true =>
      obtain ⟨cells, hcells⟩ := exists_cells_of_readLine hrow (by simp [Region.rank]) hu
      rw [readLine_keys hrow hcells] at hu
      obtain ⟨hlength, uses, new, rfl, hnew⟩ := exists_of_readKeys hkeys
        (fun cell hcell => (cells_spec hfull.trim hcells cell hcell).1) hu
      obtain ⟨body, after, more, layer, added, rfl, hafter, hbody, hlengths, hlayers, hlayer, hadded⟩ :=
        ih hone hplain hsound h
      refine ⟨full :: body, after, cells.map Prod.fst :: more, layer, new ++ added, rfl, hafter,
        .cons (hasCells_of_cells? hrow hcells) hbody, ?_, hlayers, ?_, ?_⟩
      · exact List.forall_mem_cons.mpr ⟨by rw [List.length_map, hlength], hlengths⟩
      · rw [hlayer, List.append_assoc]
      · rw [filledFrom_cons]
        rw [List.length_append] at hadded
        exact hnew.append hadded

theorem exists_table_of_result {top : List Char} {header : List (List Char)}
    (htop : HasCells top header) (hcolumns : header.length = columns)
    (hs : State.Sound limits (.inside c (.tableSeparator draft columns)))
    (h : (readLines limits now n lines (.inside c (.tableSeparator draft columns))).result = .ok t)
    (ht : Settles t c') :
    ∃ table : Table, table.StandsIn (top :: lines) ∧ table.Regular ∧ ∃ layer,
      c'.layers = c.layers ++ [layer] ∧ KeysFrom 0 (filledFrom 0 table.rows) layer.keys := by
  subst hcolumns
  cases lines with
  | nil =>
    cases h
    cases ht n
  | cons rule rest =>
    obtain ⟨hrule, hone⟩ := List.forall_mem_cons.mp hone
    obtain ⟨hheading, hplain⟩ := List.forall_mem_cons.mp hplain
    obtain ⟨u, hu, h⟩ := readLines_cons_eq_ok_iff.mp h
    have hsound := sound_readLine hrule hs hu
    cases hrow : Line.isRow (trim rule) with
    | false =>
      have hended : consume limits now n rule (.inside c (.tableSeparator draft header.length)) =
          .error (problemAt .tableEnded n) := by
        simp only [consume, readContent, hrow, Bool.false_eq_true, if_false, endTable]
      rw [readLine_of_error hended] at hu
      cases hu
    | true =>
      obtain ⟨cells, hcells⟩ := exists_cells_of_readLine hrow (by simp [Region.rank]) hu
      rw [readLine_separator hrow hcells] at hu
      obtain ⟨hlength, hdashes, rfl⟩ := exists_of_readSeparator hu
      obtain ⟨body, after, rows, layer, added, rfl, hafter, hbody, hlengths, hlayers, hlayer, hadded⟩ :=
        exists_rows_of_result hone hplain hsound h ht
      refine ⟨⟨header, cells.map Prod.fst, rows⟩, ⟨[], top, rule, body, after, rfl, hafter, htop,
        hasCells_of_cells? hrow hcells, hbody⟩, ⟨hdashes, by rw [List.length_map, hlength], hlengths⟩,
        layer, hlayers, ?_⟩
      rw [hlayer]
      exact hadded

theorem exists_layer_of_result (hs : State.Sound limits (.inside c (.layer draft)))
    (h : (readLines limits now n lines (.inside c (.layer draft))).result = .ok t)
    (ht : Settles t c') :
    ∃ layer, c'.layers = c.layers ++ [layer] ∧
      (((∀ full ∈ lines, Line.isRow (trim full) = false) ∧ layer.keys = []) ∨
        ∃ table : Table, table.StandsIn lines ∧ table.Regular ∧
          KeysFrom 0 (filledFrom 0 table.rows) layer.keys) := by
  induction lines generalizing n c draft with
  | nil =>
    cases h
    obtain ⟨_, _, ⟨⟩, -, hdraft, -⟩ := hs
    have hclose : closeRegion c (.layer draft) = .ok c' := ht n
    rw [closeRegion] at hclose
    obtain ⟨layer, hlayers, hlayer⟩ := layers_of_closeLayer hdraft (soundKeys_nil 0) hclose
    exact ⟨layer, hlayers, .inl ⟨List.forall_mem_nil _, hlayer⟩⟩
  | cons full rest ih =>
    obtain ⟨hfull, hone⟩ := List.forall_mem_cons.mp hone
    obtain ⟨hheading, hplain⟩ := List.forall_mem_cons.mp hplain
    obtain ⟨u, hu, h⟩ := readLines_cons_eq_ok_iff.mp h
    have hsound := sound_readLine hfull hs hu
    cases hrow : Line.isRow (trim full) with
    | false =>
      rcases readLine_layer_eq_ok hheading hrow hu with ⟨c₁, draft₁, rfl, hsame⟩ | ⟨c₁, hclose, rfl⟩
      · obtain ⟨layer, hlayers, htable⟩ := ih hone hplain hsound h
        refine ⟨layer, by rw [hlayers, hsame], ?_⟩
        rcases htable with ⟨hrows, hlayer⟩ | ⟨table, hstands, htable⟩
        · exact .inl ⟨List.forall_mem_cons.mpr ⟨hrow, hrows⟩, hlayer⟩
        · obtain ⟨before, top, rule, body, after, rfl, hrows, hcells⟩ := hstands
          exact .inr ⟨table, ⟨full :: before, top, rule, body, after, rfl,
            List.forall_mem_cons.mpr ⟨hrow, hrows⟩, hcells⟩, htable⟩
      · obtain ⟨_, _, ⟨⟩, -, hdraft, -⟩ := hs
        obtain ⟨layer, hlayers, hlayer⟩ := layers_of_closeLayer hdraft (soundKeys_nil 0) hclose
        obtain ⟨hrows, rfl⟩ := idle_of_result hplain h ht
        exact ⟨layer, hlayers, .inl ⟨List.forall_mem_cons.mpr ⟨hrow, hrows⟩, hlayer⟩⟩
    | true =>
      obtain ⟨header, hheader⟩ := exists_cells_of_readLine hrow (by simp [Region.rank]) hu
      rw [readLine_header hrow hheader] at hu
      cases hu
      obtain ⟨table, hstands, hregular, layer, hlayers, hkeys⟩ :=
        exists_table_of_result hone hplain (hasCells_of_cells? hrow hheader) (List.length_map _) hsound h
          ht
      exact ⟨layer, hlayers, .inr ⟨table, hstands, hregular, hkeys⟩⟩

end Run

/-! ### Blocks -/

theorem openRegion_layer {n : Nat} {cs : List Char} {region : Region}
    (hkind : BlockKind.of cs = .layer) (h : openRegion c n cs = .ok region) :
    ∃ draft, region = .layer draft := by
  unfold BlockKind.of at hkind
  unfold openRegion at h
  cases hheading : Line.layerHeading? cs with
  | some heading =>
    rw [hheading] at h
    obtain ⟨number, -, h⟩ := bind_eq_ok_iff.mp h
    split at h
    next =>
      cases h
      exact ⟨_, rfl⟩
    next => cases h
  | none =>
    rw [hheading] at hkind
    cases hsection : Line.section? cs with
    | none =>
      rw [hsection] at hkind
      cases hkind
    | some sec =>
      rw [hsection] at hkind
      cases hkind

theorem Content.layers_graft {kind : BlockKind} (hkind : kind ≠ .layer) (c d : Content) :
    (c.graft kind d).layers = d.layers := by
  cases kind with
  | layer => exact absurd rfl hkind
  | unknown => rfl
  | entries sec => cases sec <;> rfl

namespace Block

variable {n : Nat} {s t : State} {c' : Content}

theorem exists_layer (b : Block) (hkind : b.kind = .layer) (hone : ∀ full ∈ b.lines, OneLine full)
    (hsound : s.Sound limits) (hs : Settles s c)
    (h : (readLines limits now n b.lines s).result = .ok t) (ht : Settles t c') :
    ∃ layer, c'.layers = c.layers ++ [layer] ∧ b.Tabulates layer := by
  obtain ⟨hheading, hrest⟩ := List.forall_mem_cons.mp hone
  obtain ⟨u, hu, h⟩ := readLines_cons_eq_ok_iff.mp h
  have hopened := sound_readLine hheading hsound hu
  rw [hs.heading b.isHeading] at hu
  obtain ⟨region, hopen, rfl⟩ := map_eq_ok_iff.mp hu
  obtain ⟨draft, rfl⟩ := openRegion_layer hkind hopen
  exact exists_layer_of_result hrest b.plain hopened h ht

theorem layers_eq (b : Block) (hkind : b.kind ≠ .layer) (hs : Settles s c)
    (h : (readLines limits now n b.lines s).result = .ok t) (ht : Settles t c') :
    c'.layers = c.layers := by
  have hgist := (Content.gist_eq_iff.mp (b.carries_of_result hs h ht)).2.1
  rw [hgist, Content.layers_graft hkind]

end Block

theorem exists_layers_of_blocks {bs : List Block} (hone : ∀ b ∈ bs, ∀ full ∈ b.lines, OneLine full)
    {n : Nat} {s u : State} {c' : Content} (hsound : s.Sound limits) (hs : Settles s c)
    (h : (readLines limits now n (bs.flatMap Block.lines) s).result = .ok u) (hu : Settles u c') :
    ∃ layers, c'.layers = c.layers ++ layers ∧
      List.Forall₂ Block.Tabulates (bs.filter (·.kind == .layer)) layers := by
  induction bs generalizing n s c with
  | nil =>
    cases h
    obtain rfl : c = c' := Except.ok.inj ((hs 1).symm.trans (hu 1))
    exact ⟨[], (List.append_nil _).symm, .nil⟩
  | cons b bs ih =>
    obtain ⟨hb, hbs⟩ := List.forall_mem_cons.mp hone
    obtain ⟨t, hread, h⟩ := readLines_append_eq_ok_iff.mp h
    obtain ⟨inner, region, rfl, hnext⟩ := sound_readLines hb hsound hread
    obtain ⟨c₁, ht⟩ := exists_settles_of_blocks h hu
    obtain ⟨layers, hlayers, htables⟩ := ih hbs ⟨inner, region, rfl, hnext⟩ ht h
    by_cases hkind : b.kind = .layer
    · obtain ⟨layer, hlayer, htable⟩ := b.exists_layer hkind hb hsound hs hread ht
      refine ⟨layer :: layers, ?_, ?_⟩
      · rw [hlayers, hlayer, List.append_assoc, List.singleton_append]
      · rw [List.filter_cons_of_pos (by simp [hkind])]
        exact .cons htable htables
    · refine ⟨layers, by rw [hlayers, b.layers_eq hkind hs hread ht], ?_⟩
      rw [List.filter_cons_of_neg (by simpa using hkind)]
      exact htables

/-! ### Descriptions -/

theorem KeysFrom.noted {slot : Nat} {places : List (Position × List Char)}
    (h : KeysFrom slot places keys) (notes : List DescriptionNote) (place : Nat) :
    KeysFrom slot places (keys.map fun (p, key) => (p, notes.foldl (Key.noted place p) key)) := by
  refine List.forall₂_map_right_iff.mpr (h.imp ?_)
  rintro cell _ ⟨read, description?, hread, rfl⟩
  obtain ⟨other?, hfold, -⟩ := Key.exists_foldl_noted notes place cell.1.1
    { read.key cell.1.1 cell.2 with description? }
  exact ⟨read, other?, hread, congrArg (Prod.mk cell.1.1) hfold⟩

theorem Block.Tabulates.noted {b : Block} {layer : Layer} (h : b.Tabulates layer)
    (notes : List DescriptionNote) (place : Nat) : b.Tabulates (Layer.noted notes place layer) := by
  rcases h with ⟨hrows, hlayer⟩ | ⟨table, hstands, hregular, hkeys⟩
  · refine .inl ⟨hrows, ?_⟩
    show layer.keys.map _ = []
    rw [hlayer, List.map_nil]
  · exact .inr ⟨table, hstands, hregular, hkeys.noted notes place⟩

theorem forall₂_tabulates_mapIdx {bs : List Block} {layers : List Layer}
    (h : List.Forall₂ Block.Tabulates bs layers) {f : Nat → Layer → Layer}
    (hf : ∀ place (b : Block) layer, b.Tabulates layer → b.Tabulates (f place layer)) :
    List.Forall₂ Block.Tabulates bs (layers.mapIdx f) := by
  induction h generalizing f with
  | nil => exact .nil
  | cons hfirst _ ih =>
    rw [List.mapIdx_cons]
    exact .cons (hf 0 _ _ hfirst) (ih fun place => hf (place + 1))

/-! ### Documents -/

def layerBlocks (document : String) : List Block :=
  let lines := splitLinesFrom [] document.toList
  (outline (lines.drop (headLength lines))).blocks.filter (·.kind == .layer)

/-- The layers of a document are those of its blocks, and each has the keys of the cells of its
table that are not blank: in reading order, at the places of their cells, with what the cells say,
and numbered in that order. -/
theorem tables_of_parse {document : String} {layout : Layout}
    (h : (parse limits now document).result = .ok layout) :
    List.Forall₂ Block.Tabulates (layerBlocks document) layout.layers := by
  unfold layerBlocks
  dsimp only
  generalize hlines : splitLinesFrom [] document.toList = lines
  have hone : ∀ full ∈ lines, OneLine full := fun full hfull => by
    rw [← hlines] at hfull
    exact oneLine_of_mem_splitLinesFrom oneLine_nil hfull
  generalize ho : outline (lines.drop (headLength lines)) = o
  obtain ⟨metadata, n, u, c, hhead, -, hread, hu, hgives⟩ := exists_read_blocks hlines ho h
  have hsound : State.Sound limits (.inside { metadata } .body) := by
    rcases begun_readLines_start (fun full hfull => hone full (List.mem_of_mem_take hfull)) hhead with
      hstart | ⟨_, _, hopen⟩ | hsound
    · cases hstart
    · cases hopen
    · exact hsound
  have hblocks : ∀ b ∈ o.blocks, ∀ full ∈ b.lines, OneLine full := by
    intro b hb full hfull
    refine hone full (List.mem_of_mem_drop (i := headLength lines) ?_)
    rw [← lines_outline (lines.drop _), ho, Outline.lines]
    exact List.mem_append_right _ (List.mem_flatMap.mpr ⟨b, hb, hfull⟩)
  obtain ⟨layers, hlayers, htables⟩ := exists_layers_of_blocks hblocks hsound (fun _ => rfl) hread hu
  rw [hgives.layers, describe_eq, hlayers, List.nil_append]
  exact forall₂_tabulates_mapIdx htables fun place _ _ hlayer => hlayer.noted c.descriptions place

/-- A table of two rows with one key, written unevenly, and a layer without a table. -/
def gridDocument : String :=
  "---\nname: Demo\n---\n## Layer 0: Base\n\n  |C0| C1 |\n|:--|--:|\n| | |\n" ++
  "\t||LT(1, KC_B) \x7b#FF0000\x7d@mods |  \n\n## Layer 1: Empty\n" ++
  "## Categories\n- mods: Modifiers (#00FF00)\n"

def keyPlaces (layout : Layout) : List (List Position) :=
  layout.layers.map fun layer => layer.keys.map Prod.fst

theorem tables_of_parse_gridDocument :
    ∃ layout, (parse {} { date := ⟨2024, 1, 2⟩ } gridDocument).result = .ok layout ∧
      keyPlaces layout = [[⟨1, 1⟩], []] ∧
      List.Forall₂ Block.Tabulates (layerBlocks gridDocument) layout.layers := by
  have hread : (parse {} { date := ⟨2024, 1, 2⟩ } gridDocument).result.toOption.map keyPlaces =
      some [[⟨1, 1⟩], []] := by
    decide +kernel
  obtain ⟨layout, hparse, hplaces⟩ := Option.map_eq_some_iff.mp hread
  rw [toOption_eq_some_iff] at hparse
  exact ⟨layout, hparse, hplaces, tables_of_parse hparse⟩

end Keyforge.Document
