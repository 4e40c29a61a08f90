import Keyforge.Proofs.Document.Written

/-!
# The lines of a written document

The text of a document is cut into the lines it was made of, but for its title, which may be
several, and for blank lines at its end (`splitLinesFrom_write`).
-/

namespace Keyforge.Document

open Keyforge.Text

variable {limits : Limits} {now : Time.Stamp} {line : String}

/-! ### Written lines are one line each -/

theorem oneLine_propertyLine {name value : String} (hname : OneLine name.toList)
    (hvalue : OneLine value.toList) : OneLine (propertyLine name value).toList := by
  simp only [propertyLine, String.toList_append, oneLine_append_iff]
  exact ⟨⟨⟨by decide, hname⟩, by decide⟩, hvalue⟩

theorem oneLine_propertyLines {layer : Layer} (h : layer.Legible)
    (hline : line ∈ propertyLines layer) : OneLine line.toList := by
  have hwritten : ∀ {name value : String}, name ∈ writtenProperties → OneLine value.toList →
      OneLine (propertyLine name value).toList := by
    have hnames : ∀ name ∈ writtenProperties, OneLine name.toList := by decide +kernel
    exact fun {name value} hname hvalue => oneLine_propertyLine (hnames name hname) hvalue
  rw [propertyLines_eq] at hline
  simp only [List.mem_cons, List.mem_append, List.mem_map, Option.mem_toList] at hline
  rcases hline with rfl | ⟨id, hid, rfl⟩ | ⟨hex, hhex, rfl⟩ | ⟨id, hid, rfl⟩ | ⟨value, hvalue, rfl⟩
  · rw [toList_layerHeading h.index.1]
    simp only [oneLine_append_iff]
    exact ⟨⟨⟨by decide, (Line.visible_toDigits _).oneLine⟩, by decide⟩, h.name.oneLine⟩
  · exact hwritten (by decide) (Name.visible_of_isLayerId (h.id id hid)).oneLine
  · obtain ⟨color, -, rfl⟩ := Option.map_eq_some_iff.mp hhex
    refine hwritten (by decide) ?_
    rw [Color.hex, String.toList_ofList]
    exact (Color.visible_hexChars color).oneLine
  · exact hwritten (by decide) (Name.visible_of_isCategoryId (h.category id hid)).oneLine
  · split at hvalue
    · cases hvalue
    · cases hvalue
      exact hwritten (by decide) (by decide)

theorem oneLine_rowText {cells : List String} (h : ∀ cell ∈ cells, OneLine cell.toList) :
    OneLine (rowText cells).toList := by
  simp only [rowText, String.toList_append, String.toList_intercalate, oneLine_append_iff]
  exact ⟨⟨by decide, OneLine.intercalate (by decide) (List.forall_mem_map.mpr h)⟩, by decide⟩

theorem oneLine_tableLines {layer : Layer} (h : Tabular layer.keys)
    (hline : line ∈ tableLines layer) : OneLine line.toList := by
  rw [tableLines_eq layer] at hline
  simp only [List.mem_cons, List.mem_map] at hline
  rcases hline with rfl | rfl | ⟨row, -, rfl⟩
  · refine oneLine_rowText fun cell hcell => ?_
    obtain ⟨col, hcol, rfl⟩ := List.mem_map.mp hcell
    exact (columnName_spec (Position.mem_indices.mp hcol).1).1.oneLine
  · rw [toList_separatorLine, barred]
    refine OneLine.append (OneLine.cons (by decide) (OneLine.intercalate (by decide) ?_)) (by decide)
    exact List.forall_mem_map.mpr fun col _ => (visible_dashesUnder col).1.oneLine
  · refine oneLine_rowText fun cell hcell => ?_
    obtain ⟨col, -, rfl⟩ := List.mem_map.mp hcell
    exact (cellText_spec h _).2.2

theorem oneLine_layerLines {layer : Layer} (h : layer.Legible) (hline : line ∈ layerLines layer) :
    OneLine line.toList := by
  rw [layerLines] at hline
  rcases List.mem_append.mp hline with hline | hline
  · rcases List.mem_append.mp hline with hline | hline
    · exact oneLine_propertyLines h hline
    · rw [List.mem_singleton.mp hline]
      exact oneLine_nil
  · split at hline
    · cases hline
    · rcases List.mem_append.mp hline with hline | hline
      · exact oneLine_tableLines h.tabular hline
      · rw [List.mem_singleton.mp hline]
        exact oneLine_nil

theorem oneLine_noteLine {note : DescriptionNote} (h : note.Legible) :
    OneLine (noteLine note).toList := by
  rw [toList_noteLine h]
  simp only [oneLine_append_iff]
  refine ⟨⟨⟨⟨⟨⟨by decide, ?_⟩, by decide⟩, ?_⟩, by decide⟩, ?_⟩, ?_⟩
  · exact (Line.visible_toDigits _).oneLine
  · exact (Line.visible_toDigits _).oneLine
  · exact (Line.visible_toDigits _).oneLine
  · exact OneLine.cons (by decide) (OneLine.cons (by decide) h.text.oneLine)

theorem oneLine_categoryLine {category : Category} (h : category.Legible) :
    OneLine (categoryLine category).toList := by
  have hdashed : OneLine (Line.dashed category.description?) := by
    cases hd : category.description? with
    | none => exact oneLine_nil
    | some text =>
      have htext := (h.description text hd).oneLine
      exact OneLine.cons (by decide) (OneLine.cons (by decide) (OneLine.cons (by decide) htext))
  have hend : OneLine (Line.categoryEnd category.color category.description?) :=
    OneLine.cons (by decide) (OneLine.cons (by decide)
      ((Color.visible_hexChars _).oneLine.append (OneLine.cons (by decide) hdashed)))
  rw [toList_categoryLine h]
  simp only [oneLine_append_iff]
  exact ⟨⟨⟨⟨by decide, (Name.visible_of_isCategoryId h.id).oneLine⟩, by decide⟩, h.name.oneLine⟩, hend⟩

theorem oneLine_tapDanceLines {t : TapDance} (h : t.Legible) (hline : line ∈ tapDanceLines t) :
    OneLine line.toList := by
  rw [tapDanceLines_eq] at hline
  rcases List.mem_cons.mp hline with rfl | hline
  · simp only [String.toList_append, oneLine_append_iff]
    exact ⟨⟨by decide, (Name.visible_of_isTapDanceName h.name).1.oneLine⟩, by decide⟩
  · obtain ⟨⟨word, code⟩, hmem, rfl⟩ := List.mem_map.mp hline
    obtain ⟨hword, hcode⟩ := mem_writtenActions h hmem
    have hwords : ∀ word ∈ Line.writtenWords, OneLine word.toList := by decide +kernel
    simp only [actionLine, String.toList_append, oneLine_append_iff]
    exact ⟨⟨⟨by decide, hwords word hword⟩, by decide⟩, hcode.oneLine⟩

theorem oneLine_sectionLines (sec : Line.Section) {entries : List String}
    (h : ∀ entry ∈ entries, OneLine entry.toList)
    (hline : line ∈ sectionLines (titleOf sec) entries) : OneLine line.toList := by
  rw [sectionLines] at hline
  split at hline
  · cases hline
  · simp only [List.mem_append, List.mem_cons, List.not_mem_nil, or_false] at hline
    rcases hline with ((rfl | rfl) | hline) | rfl
    · cases sec <;> decide
    · exact oneLine_nil
    · exact h line hline
    · exact oneLine_nil

theorem oneLine_sections {l : Layout} (h : l.Legible) (hline : line ∈ sections l) :
    OneLine line.toList := by
  simp only [sections, List.mem_append] at hline
  rcases hline with ((hline | hline) | hline) | hline
  · refine oneLine_sectionLines .descriptions ?_ hline
    rw [descriptionLines_eq h]
    exact List.forall_mem_map.mpr fun note hnote => oneLine_noteLine (legible_of_mem_notes h hnote)
  · refine oneLine_sectionLines .categories ?_ hline
    exact List.forall_mem_map.mpr fun category hcategory =>
      oneLine_categoryLine (h.categories category hcategory)
  · refine oneLine_sectionLines .tapDances ?_ hline
    intro entry hentry
    obtain ⟨t, ht, hentry⟩ := List.mem_flatMap.mp hentry
    exact oneLine_tapDanceLines (h.tapDances t ht) hentry
  · refine oneLine_sectionLines .settings ?_ hline
    intro entry hentry
    obtain ⟨setting, hsetting, rfl⟩ := List.mem_map.mp hentry
    have hone := (h.settings setting hsetting).oneLine
    exact oneLine_propertyLine hone.1 hone.2

theorem oneLine_bodyLines {l : Layout} (h : l.Legible) (hline : line ∈ bodyLines l) :
    OneLine line.toList := by
  rcases List.mem_append.mp hline with hline | hline
  · obtain ⟨layer, hlayer, hline⟩ := List.mem_flatMap.mp hline
    exact oneLine_layerLines (h.layers layer hlayer) hline
  · rw [sectionsWithRule] at hline
    split at hline
    · cases hline
    · simp only [List.cons_append, List.nil_append, List.mem_cons] at hline
      rcases hline with rfl | rfl | hline
      · decide
      · exact oneLine_nil
      · exact oneLine_sections h hline

/-! ### The text of a document -/

/-- The lines of a document up to its title. -/
def headLines (l : Layout) : List (List Char) :=
  "---".toList :: ((Frontmatter.lines l.metadata).map String.toList ++ ["---".toList, []] ++
    splitLinesFrom [] ("# ".toList ++ l.metadata.name.toList) ++ [[]])

theorem oneLine_frontmatter {m : Metadata} (h : line ∈ Frontmatter.lines m) :
    OneLine line.toList := by
  obtain ⟨cs, hcs, rfl⟩ := List.mem_map.mp h
  rw [String.toList_ofList]
  exact oneLine_of_mem_splitLinesFrom oneLine_nil hcs

theorem oneLine_headLines {l : Layout} {line : List Char} (h : line ∈ headLines l) :
    OneLine line := by
  simp only [headLines, List.mem_cons, List.mem_append, List.mem_map, List.not_mem_nil, or_false] at h
  rcases h with rfl | ((⟨text, htext, rfl⟩ | rfl | rfl) | h) | rfl
  · decide
  · exact oneLine_frontmatter htext
  · decide
  · exact oneLine_nil
  · exact oneLine_of_mem_splitLinesFrom oneLine_nil h
  · exact oneLine_nil

theorem last_title {name : List Char} (h : Trimmed name) {c : Char}
    (hc : ("# ".toList ++ name).getLast? = some c) : isLineBreak c = false := by
  cases name with
  | nil =>
    cases hc
    decide
  | cons d name =>
    rw [List.getLast?_append_of_ne_nil _ (by simp)] at hc
    exact isLineBreak_eq_false_of_isBlank (h.last c hc)

theorem exists_bodyLines_ne_nil {l : Layout} (h : l.Fits) :
    ∃ line ∈ (bodyLines l).map String.toList, line.isEmpty = false := by
  obtain ⟨layer, hlayer⟩ := List.exists_mem_of_ne_nil _ h.layers_ne
  refine ⟨(headingOf layer).toList, List.mem_map_of_mem (List.mem_append_left _
    (List.mem_flatMap.mpr ⟨layer, hlayer, ?_⟩)), ?_⟩
  · simp [layerLines, propertyLines_eq]
  · simp [headingOf]

/-- A document is cut into its lines, but for blank lines at its end. -/
theorem splitLinesFrom_write {l : Layout} (h : l.Legible) (hname : Trimmed l.metadata.name.toList) :
    ∃ body blanks, splitLinesFrom [] (write l).toList = headLines l ++ body ∧
      (bodyLines l).map String.toList = body ++ blanks ∧ ∀ line ∈ blanks, line = [] := by
  have hfits := Layout.problem?_eq_none_iff.mp h.fits
  obtain ⟨head, hhead⟩ : ∃ head, head = "---".toList ::
    ((Frontmatter.lines l.metadata).map String.toList ++ ["---".toList, []]) := ⟨_, rfl⟩
  obtain ⟨title, htitle⟩ : ∃ title, title = "# ".toList ++ l.metadata.name.toList := ⟨_, rfl⟩
  obtain ⟨body, hbody⟩ : ∃ body, body = (bodyLines l).map String.toList := ⟨_, rfl⟩
  have hlines : (lines l).map String.toList = (head ++ [title, []]) ++ body := by
    simp [lines, hhead, htitle, hbody, bodyLines]
  have hcut : headLines l = head ++ (splitLinesFrom [] title ++ [[]]) := by
    simp [headLines, hhead, htitle]
  have hheadOne : ∀ line ∈ head, OneLine line := fun line hline =>
    oneLine_headLines (hcut ▸ List.mem_append_left _ hline)
  have hbodyOne : ∀ line ∈ body, OneLine line := by
    rw [hbody]
    exact List.forall_mem_map.mpr fun line => oneLine_bodyLines h
  have hlast : ∀ line ∈ (lines l).map String.toList, line.getLast? ≠ some '\n' := by
    have hone : ∀ line, OneLine line → line.getLast? ≠ some '\n' := fun line hline hnewline =>
      hline.newline_notMem (List.mem_of_getLast? hnewline)
    intro line hline
    rw [hlines] at hline
    simp only [List.mem_append, List.mem_cons, List.not_mem_nil, or_false] at hline
    rcases hline with (hline | rfl | rfl) | hline
    · exact hone line (hheadOne line hline)
    · intro hnewline
      rw [htitle] at hnewline
      exact absurd (last_title hname hnewline) (by decide)
    · simp
    · exact hone line (hbodyOne line hline)
  have hdrop : ((lines l).map String.toList).rdropWhile List.isEmpty =
      (head ++ [title, []]) ++ body.rdropWhile List.isEmpty := by
    rw [hlines, rdropWhile_append _ (hbody ▸ exists_bodyLines_ne_nil hfits)]
  have hwrite : (write l).toList =
      terminated head ++ (title ++ '\n' :: terminated ([] :: body.rdropWhile List.isEmpty)) := by
    rw [write, textOfLines, String.toList_ofList, dropWhileEnd_eq_rdropWhile, toList_joinLines,
      rdropWhile_intercalate hlast, hdrop, intercalate_append_newline (by simp)]
    simp [terminated_append, terminated_cons]
  refine ⟨body.rdropWhile List.isEmpty, body.rtakeWhile List.isEmpty, ?_, ?_, ?_⟩
  · have hrest : ∀ line ∈ [] :: body.rdropWhile List.isEmpty, OneLine line := by
      intro line hline
      rcases List.mem_cons.mp hline with rfl | hline
      · exact oneLine_nil
      · exact hbodyOne line ((List.rdropWhile_prefix _ body).subset hline)
    rw [hwrite, splitLinesFrom_terminated hheadOne, splitLinesFrom_append_newline [] title _
      (.inr (by simp [htitle])) fun c hc => last_title hname (htitle ▸ hc),
      splitLinesFrom_terminated_self hrest, hcut]
    simp
  · rw [← hbody, List.rdropWhile_append_rtakeWhile]
  · intro line hline
    exact List.isEmpty_iff.mp (List.mem_rtakeWhile_imp hline)

/-! ### Blank lines at the end -/

theorem settles_of_readLine_nil {line : Nat} {s t : State} {c : Content}
    (h : readLine limits now line [] s = .ok t) (ht : Settles t c) : Settles s c := by
  cases s with
  | start =>
    rw [readLine_of_done (t := .start) rfl] at h
    cases h
    exact ht
  | frontmatter opened lines =>
    rw [readLine_of_done (t := .frontmatter opened (lines ++ [[]])) rfl] at h
    cases h
    exact absurd (ht 0) nofun
  | inside inner region => exact (readLine_blank_eq_ok rfl h c).mp ht

theorem exists_settles_blanks {blanks : List (List Char)} (hblanks : ∀ l ∈ blanks, l = []) {line : Nat}
    {s : State} {c : Content} :
    (∃ t, (readLines limits now line blanks s).result = .ok t ∧ Settles t c) ↔ Settles s c := by
  induction blanks generalizing line s with
  | nil =>
    constructor
    · rintro ⟨t, ht, hs⟩
      cases ht
      exact hs
    · intro hs
      exact ⟨s, rfl, hs⟩
  | cons first blanks ih =>
    have hrest : ∀ l ∈ blanks, l = [] := (List.forall_mem_cons.mp hblanks).2
    rw [hblanks first List.mem_cons_self]
    constructor
    · rintro ⟨t, ht, hs⟩
      obtain ⟨u, hu, ht⟩ := readLines_cons_eq_ok_iff.mp ht
      exact settles_of_readLine_nil hu ((ih hrest).mp ⟨t, ht, hs⟩)
    · intro hs
      obtain ⟨u, hu, hs⟩ : ∃ u, readLine limits now line [] s = .ok u ∧ Settles u c :=
        hs.blank line rfl
      obtain ⟨t, ht, hs⟩ := (ih hrest).mpr hs
      exact ⟨t, readLines_cons_eq_ok_iff.mpr ⟨u, hu, ht⟩, hs⟩

theorem exists_settles_append_blanks {ls blanks : List (List Char)} (hblanks : ∀ l ∈ blanks, l = [])
    {line : Nat} {s : State} {c : Content} :
    (∃ t, (readLines limits now line (ls ++ blanks) s).result = .ok t ∧ Settles t c) ↔
      ∃ t, (readLines limits now line ls s).result = .ok t ∧ Settles t c := by
  simp only [readLines_append_eq_ok_iff]
  constructor
  · rintro ⟨u, ⟨t, ht, hu⟩, hs⟩
    exact ⟨t, ht, (exists_settles_blanks hblanks).mp ⟨u, hu, hs⟩⟩
  · rintro ⟨t, ht, hs⟩
    obtain ⟨u, hu, hsu⟩ := (exists_settles_blanks hblanks).mpr hs
    exact ⟨u, ⟨t, ht, hu⟩, hsu⟩

/-- A written document is read by its head and then by the lines of its layers and sections. -/
theorem parse_write_iff {l l' : Layout} (h : l.Legible) (hname : Trimmed l.metadata.name.toList) :
    (parse limits now (write l)).result = .ok l' ↔
      ∃ s₀ s c, (readLines limits now 1 (headLines l) .start).result = .ok s₀ ∧
        (readLines limits now (1 + (headLines l).length) ((bodyLines l).map String.toList)
          s₀).result = .ok s ∧ Settles s c ∧ c.Gives l' := by
  obtain ⟨body, blanks, hwrite, hbody, hblanks⟩ := splitLinesFrom_write h hname
  have hdrop : ∀ c, (∃ s, (readLines limits now 1 (headLines l ++ body) .start).result = .ok s ∧
      Settles s c) ↔ ∃ s₀ s, (readLines limits now 1 (headLines l) .start).result = .ok s₀ ∧
        (readLines limits now (1 + (headLines l).length) ((bodyLines l).map String.toList)
          s₀).result = .ok s ∧ Settles s c := by
    intro c
    rw [← exists_settles_append_blanks hblanks, List.append_assoc, ← hbody]
    simp only [readLines_append_eq_ok_iff]
    constructor
    · rintro ⟨s, ⟨s₀, hs₀, hs⟩, hc⟩
      exact ⟨s₀, s, hs₀, hs, hc⟩
    · rintro ⟨s₀, s, hs₀, hs, hc⟩
      exact ⟨s, ⟨s₀, hs₀, hs⟩, hc⟩
  rw [parse_eq_ok_iff, hwrite]
  constructor
  · rintro ⟨s, c, hs, hc, hgives⟩
    obtain ⟨s₀, t, hs₀, ht, hct⟩ := (hdrop c).mp ⟨s, hs, hc⟩
    exact ⟨s₀, t, c, hs₀, ht, hct, hgives⟩
  · rintro ⟨s₀, t, c, hs₀, ht, hct, hgives⟩
    obtain ⟨s, hs, hc⟩ := (hdrop c).mpr ⟨s₀, t, hs₀, ht, hct⟩
    exact ⟨s, c, hs, hc, hgives⟩

end Keyforge.Document
