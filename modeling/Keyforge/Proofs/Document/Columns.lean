import Keyforge.Proofs.Document.Sound

/-!
# Columns

The cells of a row stand in its line at the columns they are noted with (`placed_of_cells?`), whatever
is around them. The values of properties do so if their lines are not indented, and else seldom
(`PropertyAt.startsAt_iff`). `Located.Shows` says what a problem with a cell or a value tells about the
lines of a document.
-/

namespace Keyforge.Document

open Keyforge.Text

variable {lines : List (List Char)} {line : Nat} {full : List Char}

/-! ### Places -/

/-- A line stands among others under its number, which counts from one. -/
def StandsAt (lines : List (List Char)) (line : Nat) (full : List Char) : Prop :=
  ∃ before rest, lines = before ++ full :: rest ∧ line = before.length + 1

theorem StandsAt.bounds (h : StandsAt lines line full) : 1 ≤ line ∧ line ≤ lines.length := by
  obtain ⟨before, rest, rfl, rfl⟩ := h
  rw [List.length_append, List.length_cons]
  omega

/-- A row up to the bar that some cells of it end with. -/
def rowStart (indent : List Char) (raws : List (List Char)) : List Char :=
  indent ++ '|' :: raws.flatMap (· ++ ['|'])

/-- A cell stands in a line at a column: behind other cells, with white space around it and between
bars. Columns count code points from one. -/
def CellAt (full : List Char) (raws : List (List Char)) (cs : List Char) (column : Nat) : Prop :=
  ∃ indent lead tail rest,
    full = rowStart indent raws ++ lead ++ cs ++ tail ++ '|' :: rest ∧
    (∀ c ∈ indent ++ lead ++ tail, isBlank c = true) ∧ Trimmed cs ∧
    (∀ raw ∈ cs :: raws, '|' ∉ raw) ∧ column = size (rowStart indent raws ++ lead) + 1

/-- All cells stand in a line at their columns, one behind the other. -/
def Placed (full : List Char) (cells : List (List Char × Nat)) : Prop :=
  ∀ front cell rest, cells = front ++ cell :: rest →
    ∃ raws, raws.map trim = front.map Prod.fst ∧ CellAt full raws cell.1 cell.2

theorem rowStart_append (indent : List Char) (raws more : List (List Char)) :
    rowStart indent (raws ++ more) = rowStart indent raws ++ more.flatMap (· ++ ['|']) := by
  simp [rowStart]

theorem barred_eq_rowStart {pieces : List (List Char)} (h : pieces ≠ []) :
    barred pieces = rowStart [] pieces := by
  have hcells : ['|'].intercalate pieces ++ ['|'] = pieces.flatMap (· ++ ['|']) := by
    induction pieces with
    | nil => exact absurd rfl h
    | cons piece pieces ih =>
      cases pieces with
      | nil => simp
      | cons next pieces =>
        rw [List.intercalate_cons_cons, List.append_assoc, List.append_assoc, ih (by simp)]
        simp
  exact congrArg ('|' :: ·) hcells

theorem placed_placeCells {indent : List Char} (hindent : ∀ c ∈ indent, isBlank c = true)
    {before pieces : List (List Char)} (hbars : ∀ raw ∈ before ++ pieces, '|' ∉ raw)
    (rest : List Char) {front more : List (List Char × Nat)} {cell : List Char × Nat}
    (h : Line.placeCells (size (rowStart indent before)) pieces = front ++ cell :: more) :
    ∃ raws, raws.map trim = front.map Prod.fst ∧
      CellAt (rowStart indent (before ++ pieces) ++ rest) (before ++ raws) cell.1 cell.2 := by
  -- the cells before the one in question move from the pieces to those before them
  induction pieces generalizing before front with
  | nil => cases front <;> cases h
  | cons raw pieces ih =>
    rw [Line.placeCells] at h
    cases front with
    | nil =>
      cases h
      obtain ⟨lead, tail, hlead, htail, hraw, hlength⟩ := exists_append_trim_append raw
      have hbar : '|' ∉ trim raw := fun hmem =>
        hbars raw (by simp) ((trim_sublist raw).subset hmem)
      refine ⟨[], rfl, indent, lead, tail, pieces.flatMap (· ++ ['|']) ++ rest, ?_, ?_,
        trimmed_trim raw, ?_, ?_⟩
      · rw [List.append_nil, rowStart_append, List.flatMap_cons]
        nth_rewrite 1 [hraw]
        simp only [List.append_assoc, List.cons_append, List.nil_append]
      · intro c hc
        simp only [List.mem_append] at hc
        rcases hc with (hc | hc) | hc
        · exact hindent c hc
        · exact hlead c hc
        · exact htail c hc
      · rw [List.append_nil]
        exact List.forall_mem_cons.mpr ⟨hbar, fun other hother =>
          hbars other (List.mem_append_left _ hother)⟩
      · rw [List.append_nil, size_append, size_of_blanks hlead, hlength]
    | cons first front =>
      obtain ⟨rfl, hmore⟩ := List.cons.inj h
      have hsize : size (rowStart indent before) + size raw + 1 =
          size (rowStart indent (before ++ [raw])) := by
        rw [rowStart_append, size_append, List.flatMap_singleton, size_append]
        rfl
      rw [hsize] at hmore
      obtain ⟨raws, hraws, hat⟩ := ih (by simpa using hbars) hmore
      refine ⟨raw :: raws, by rw [List.map_cons, hraws, List.map_cons], ?_⟩
      simpa using hat

/-- The cells that a row is cut into stand where their columns say. -/
theorem placed_of_cells? (hrow : Line.isRow (trim full) = true) {cells : List (List Char × Nat)}
    (h : Line.cells? (full.length - (trimLeft full).length) (trim full) = some cells) :
    Placed full cells := by
  obtain ⟨pieces, hne, hbars, hbarred, rfl⟩ := exists_pieces_of_cells? hrow h
  obtain ⟨indent, tail, hindent, -, hfull, hlength⟩ := exists_append_trim_append full
  have hstart : full = rowStart indent ([] ++ pieces) ++ tail := by
    rw [hbarred, barred_eq_rowStart hne] at hfull
    rw [hfull, rowStart, List.nil_append, List.nil_append]
    rfl
  have hoffset : full.length - (trimLeft full).length + 1 = size (rowStart indent []) := by
    rw [← hlength, ← size_of_blanks hindent, rowStart, size_append]
    rfl
  rw [hoffset]
  intro front cell rest hcells
  rw [hstart]
  exact placed_placeCells hindent hbars tail hcells

/-! ### Values of properties -/

def StartsAt (full : List Char) (column : Nat) (cs : List Char) : Prop :=
  ∃ front, front ++ cs <+: full ∧ column = size front + 1

/-- A line says the value of a property: behind its indentation and a front with the name. -/
def PropertyAt (full indent front value : List Char) (property : PropertyName) : Prop :=
  ∃ name gap tail, full = indent ++ front ++ value ++ tail ∧
    front = ['*', '*'] ++ name ++ '*' :: '*' :: ':' :: gap ∧
    (∀ c ∈ indent ++ gap ++ tail, isBlank c = true) ∧ Trimmed value ∧ Line.BoldFree name ∧
    PropertyName.of name = property

theorem exists_propertyAt {name value : List Char}
    (h : Line.property? (trim full) = some (name, value)) :
    ∃ indent front, PropertyAt full indent front value (PropertyName.of name) ∧
      size (trim full) - size value = size front := by
  obtain ⟨rest, htrim, rfl, -, hfree⟩ := Line.eq_append_of_property? h
  obtain ⟨indent, tail, hindent, htail, hfull, -⟩ := exists_append_trim_append full
  obtain ⟨gap, last, hgap, hlast, hrest, -⟩ := exists_append_trim_append rest
  -- the line ends with the value, as it is trimmed
  obtain rfl : last = [] := by
    rcases List.eq_nil_or_concat last with hnil | ⟨front, c, rfl⟩
    · exact hnil
    · have hblank := (trimmed_trim full).last c (by rw [htrim, hrest]; simp [List.getLast?_cons])
      rw [hlast c (by simp)] at hblank
      cases hblank
  have hcut : trim full = (['*', '*'] ++ name ++ '*' :: '*' :: ':' :: gap) ++ trim rest := by
    rw [htrim]
    nth_rewrite 1 [hrest]
    simp
  refine ⟨indent, _, ⟨name, gap, tail, ?_, rfl, ?_, trimmed_trim rest, hfree, rfl⟩, ?_⟩
  · rw [hcut] at hfull
    rw [hfull, ← List.append_assoc indent]
  · simp only [List.forall_mem_append]
    exact ⟨⟨hindent, hgap⟩, htail⟩
  · rw [hcut, size_append, Nat.add_sub_cancel]

theorem exists_prefix_size {cs : List Char} {n : Nat} (h : n ≤ size cs) :
    ∃ front, front <+: cs ∧ size front = n := by
  induction cs using List.reverseRecOn with
  | nil => exact ⟨[], List.prefix_rfl, (Nat.le_zero.mp h).symm⟩
  | append_singleton cs c ih =>
    by_cases hn : n ≤ size cs
    · obtain ⟨front, hfront, hsize⟩ := ih hn
      exact ⟨front, hfront.trans (List.prefix_append cs [c]), hsize⟩
    · refine ⟨_, List.prefix_rfl, ?_⟩
      have hone : size [c] ≤ 1 := List.countP_le_length
      rw [size_append] at h ⊢
      omega

/-- The column counts from behind the indentation. So the line starts there with the value if it is
not indented; else the value has to be empty or to overlap itself, as far back as the indentation. -/
theorem PropertyAt.startsAt_iff {indent front value : List Char} {property : PropertyName}
    (h : PropertyAt full indent front value property) :
    StartsAt full (size front + 1) value ↔ indent = [] ∨ value = [] ∨
      ∃ first last, front = first ++ last ∧ size last = indent.length ∧ value <+: last ++ value := by
  obtain ⟨name, gap, tail, rfl, -, hblank, hvalue, -⟩ := h
  simp only [List.forall_mem_append] at hblank
  have hindent := size_of_blanks hblank.1.1
  constructor
  · rintro ⟨start, hstart, hsize⟩
    by_cases hempty : indent = [] ∨ value = []
    · exact hempty.imp_right .inl
    obtain ⟨hne, hnil⟩ := not_or.mp hempty
    have hlength : 0 < indent.length := List.length_pos_iff.mpr hne
    have hcut : indent ++ front <+: indent ++ front ++ value ++ tail := ⟨value ++ tail, by simp⟩
    rcases List.prefix_or_prefix_of_prefix ((List.prefix_append _ _).trans hstart) hcut with
      ⟨last, hlast⟩ | ⟨more, rfl⟩
    · have hsizes := congrArg size hlast
      rw [size_append, size_append, hindent] at hsizes
      rw [← hlast, List.append_assoc, List.append_assoc, List.prefix_append_right_inj] at hstart
      have hsame : size last = indent.length := by omega
      have hoverlap : value <+: last ++ value := by
        refine List.prefix_of_prefix_length_le hstart ⟨tail, by simp⟩ ?_
        rw [List.length_append]
        omega
      rcases List.append_eq_append_iff.mp hlast with ⟨blanks, rfl, rfl⟩ | ⟨first, -, rfl⟩
      · -- the value would start in the indentation
        obtain ⟨c, value, rfl⟩ := List.exists_cons_of_ne_nil hnil
        cases blanks with
        | nil => exact .inr (.inr ⟨[], front, rfl, hsame, hoverlap⟩)
        | cons d blanks =>
          obtain ⟨rfl, -⟩ := List.cons_prefix_cons.mp hoverlap
          have hhead := hvalue.head c rfl
          rw [hblank.1.1 c (by simp)] at hhead
          cases hhead
      · exact .inr (.inr ⟨first, last, rfl, hsame, hoverlap⟩)
    · rw [size_append, size_append] at hsize
      omega
  · rintro (rfl | rfl | ⟨first, last, rfl, hsize, hoverlap⟩)
    · exact ⟨front, List.prefix_append _ tail, rfl⟩
    · have hle : size front ≤ size (indent ++ front ++ [] ++ tail) := by
        simp only [size_append]
        omega
      obtain ⟨start, hstart, hsize⟩ := exists_prefix_size hle
      exact ⟨start, by rwa [List.append_nil], by rw [hsize]⟩
    · obtain ⟨rest, hrest⟩ := hoverlap
      refine ⟨indent ++ first, ⟨rest ++ tail, by simp [← hrest]⟩, ?_⟩
      rw [size_append, size_append]
      omega

/-! ### Problems -/

/-- What is wrong with the value of a property. -/
def Problem.Concerns (property : PropertyName) (value : List Char) : Problem → Prop
  | .layerId text =>
    property = .id ∧ text = String.ofList value ∧ ¬Name.isLayerId value = true
  | .layerColor error => property = .color ∧ Color.ofHex (String.ofList value) = .error error
  | .layerCategory text =>
    property = .category ∧ text = String.ofList value ∧ ¬Name.isCategoryId value = true
  | .undefinedCategory id =>
    property = .category ∧ id = String.ofList value ∧ Name.isCategoryId value = true
  | _ => False

/-- A problem shows in the line of a property, at the column of the value behind the indentation. -/
def Located.ShowsValue (full : List Char) (e : Located) : Prop :=
  ∃ indent front value property, PropertyAt full indent front value property ∧
    e.problem.Concerns property value ∧ e.column? = some (size front + 1)

/-- Where a problem shows: at the first cell of its row that cannot be read, at the cell of a key whose
category is not defined, or at the value of a property. -/
def Located.Shows (lines : List (List Char)) : Located → Prop
  | ⟨.cell cause, line, column?⟩ => ∃ full, StandsAt lines line full ∧
      ∃ raws cs column malformed, CellAt full raws cs column ∧ cs ≠ [] ∧
        Cell.read cs = .error malformed ∧ malformed.cause = cause ∧
        column? = some (column + malformed.offset) ∧
        ∀ raw ∈ raws, trim raw = [] ∨ ∃ cell, Cell.read (trim raw) = .ok cell
  | ⟨.undefinedCategory id, line, column?⟩ => ∃ full, StandsAt lines line full ∧
      (Line.isRow (trim full) = true → ∃ raws cs column cell, CellAt full raws cs column ∧
        Cell.read cs = .ok cell ∧ cell.category? = some id ∧ column? = some column) ∧
      (¬Line.isRow (trim full) = true →
        Located.ShowsValue full ⟨.undefinedCategory id, line, column?⟩)
  | e@⟨.layerId _, _, _⟩ | e@⟨.layerColor _, _, _⟩ | e@⟨.layerCategory _, _, _⟩ =>
    ∃ full, StandsAt lines e.line full ∧ e.ShowsValue full
  | _ => True

/-- The problem there is if the category of a note is not defined. -/
def CategoryNote.undefined (use : CategoryNote) : Located :=
  ⟨.undefinedCategory use.id, use.line, some use.column⟩

end Keyforge.Document
