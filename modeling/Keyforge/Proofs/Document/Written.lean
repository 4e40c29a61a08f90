import Keyforge.Proofs.Document.Sections

/-!
# Reading written documents

What is read of a legible layout's document after its head: the layers and sections of the layout,
added to what the head has left (`reads_bodyLines`).
-/

namespace Keyforge.Document

open Keyforge.Text

variable {limits : Limits} {now : Time.Stamp}

/-! ### Sections -/

def Content.addSections (c : Content) (l : Layout) (settings : List (String × String)) : Content :=
  { c with
    descriptions := c.descriptions ++ l.layers.flatMap Layer.notes
    categories := c.categories ++ l.categories
    tapDances := c.tapDances ++ l.tapDances.map TapDance.draft
    settings }

section Sections

variable {l : Layout} (h : l.Legible) {s : State} {c : Content} (hs : Settles s c)

include h hs

theorem reads_descriptionSection :
    Reads limits now
      ((sectionLines "Key Descriptions" (descriptionLines l)).map String.toList) s fun t =>
        ∃ c', Settles t c' ∧ c'.gist =
          { c.gist with descriptions := c.gist.descriptions ++ l.layers.flatMap Layer.notes } := by
  rw [descriptionLines_eq h]
  refine reads_sectionLines .descriptions hs ?_ ?_
  · intro hnil
    rw [List.map_eq_nil_iff.mp hnil, List.append_nil]
  · refine (reads_notes (fun note => legible_of_mem_notes h) c).mono ?_
    rintro _ ⟨c', rfl, hgist⟩
    rw [map_notes_gist] at hgist
    exact ⟨c', rfl, hgist⟩

theorem reads_categorySection (hfree : Apart c.categories l.categories) :
    Reads limits now
      ((sectionLines "Categories" (l.categories.map categoryLine)).map String.toList) s fun t =>
        ∃ c', Settles t c' ∧ c'.gist =
          { c.gist with categories := c.gist.categories ++ l.categories } := by
  refine reads_sectionLines .categories hs ?_ ?_
  · intro hnil
    rw [List.map_eq_nil_iff.mp hnil, List.append_nil]
  · have hnodup := (Layout.problem?_eq_none_iff.mp h.fits).categories
    refine (reads_categories h.categories hnodup hfree).mono ?_
    rintro _ rfl
    exact ⟨_, rfl, rfl⟩

theorem reads_tapDanceSection :
    Reads limits now
      ((sectionLines "Tap Dances" (l.tapDances.flatMap tapDanceLines)).map String.toList) s fun t =>
        ∃ c', Settles t c' ∧ c'.gist =
          { c.gist with tapDances := c.gist.tapDances ++ l.tapDances.map TapDance.draft } := by
  refine reads_sectionLines .tapDances hs ?_ (reads_tapDances h.tapDances c)
  intro hnil
  cases hl : l.tapDances with
  | nil => rw [List.map_nil, List.append_nil]
  | cons t ts => simp [hl, tapDanceLines] at hnil

theorem reads_settingSection (hreadable : ∀ setting ∈ l.settings, Readable setting) :
    Reads limits now
      ((sectionLines "Settings" (l.settings.map settingLine)).map String.toList) s fun t =>
        ∃ c', Settles t c' ∧ ∃ found, c'.gist = { c.gist with settings := found } ∧
          ((∀ setting ∈ l.settings, setting.1 ≠ "") →
            found = Pairs.putAll c.settings l.settings) := by
  refine reads_sectionLines .settings hs ?_ ?_
  · intro hnil
    exact ⟨c.settings, rfl, fun _ => by rw [List.map_eq_nil_iff.mp hnil]; rfl⟩
  · refine (reads_settings h.settings hreadable c).mono ?_
    rintro _ ⟨found, rfl, hfound⟩
    exact ⟨_, rfl, found, rfl, hfound⟩

theorem reads_sections (hfree : Apart c.categories l.categories)
    (hreadable : ∀ setting ∈ l.settings, Readable setting) :
    Reads limits now ((sections l).map String.toList) s fun t =>
      ∃ c', Settles t c' ∧ ∃ found, c'.gist = c.gist.addSections l found ∧
        ((∀ setting ∈ l.settings, setting.1 ≠ "") →
          found = Pairs.putAll c.settings l.settings) := by
  rw [sections]
  simp only [List.map_append, List.append_assoc]
  refine (reads_descriptionSection h hs).append ?_
  rintro s₁ ⟨c₁, hs₁, hgist₁⟩
  have hcategories₁ : c₁.categories = c.categories := (congrArg Content.categories hgist₁ :)
  refine (reads_categorySection h hs₁ (hcategories₁ ▸ hfree)).append ?_
  rintro s₂ ⟨c₂, hs₂, hgist₂⟩
  refine (reads_tapDanceSection h hs₂).append ?_
  rintro s₃ ⟨c₃, hs₃, hgist₃⟩
  refine (reads_settingSection h hs₃ hreadable).mono ?_
  rintro t ⟨c', ht, found, hgist, hfound⟩
  rw [hgist₃, hgist₂, hgist₁] at hgist
  have hsettings : c₃.settings = c.settings := by
    have h₃ : c₃.settings = c₂.settings := (congrArg Content.settings hgist₃ :)
    have h₂ : c₂.settings = c₁.settings := (congrArg Content.settings hgist₂ :)
    have h₁ : c₁.settings = c.settings := (congrArg Content.settings hgist₁ :)
    rw [h₃, h₂, h₁]
  rw [hsettings] at hfound
  exact ⟨c', ht, found, hgist, hfound⟩

theorem free_of_sections {t : State} {line : Nat}
    (hread : (readLines limits now line ((sections l).map String.toList) s).result = .ok t) :
    Apart c.categories l.categories ∧
      ∀ setting ∈ l.settings, Readable setting := by
  rw [sections] at hread
  simp only [List.map_append, List.append_assoc] at hread
  obtain ⟨s₁, line₁, ⟨c₁, hs₁, hgist₁⟩, hread⟩ := (reads_descriptionSection h hs).of_append hread
  have hcategories₁ : c₁.categories = c.categories := (congrArg Content.categories hgist₁ :)
  have hfree : Apart c.categories l.categories := by
    rw [← hcategories₁]
    obtain ⟨u, hu, -⟩ := readLines_append_eq_ok_iff.mp hread
    obtain ⟨_, _, hentries⟩ := exists_readLines_entries .categories hs₁ hu
    exact notMem_of_categories h.categories hentries
  obtain ⟨s₂, line₂, ⟨c₂, hs₂, -⟩, hread⟩ :=
    (reads_categorySection h hs₁ (hcategories₁ ▸ hfree)).of_append hread
  obtain ⟨s₃, line₃, ⟨c₃, hs₃, -⟩, hread⟩ := (reads_tapDanceSection h hs₂).of_append hread
  obtain ⟨_, _, hentries⟩ := exists_readLines_entries .settings hs₃ hread
  exact ⟨hfree, readable_of_settings h.settings hentries⟩

end Sections

/-! ### Everything after the title -/

def bodyLines (l : Layout) : List String := l.layers.flatMap layerLines ++ sectionsWithRule l

theorem reads_rule {s : State} {c : Content} (h : Rests limits now s c) :
    Reads limits now (["---", ""].map String.toList) s (· = .inside c .body) := by
  refine Reads.cons (Q := (· = .inside c .body)) (fun line => ⟨_, h.rule line, rfl⟩) ?_
  rintro _ rfl
  exact Reads.single fun line => ⟨_, readLine_blank rfl c .body, rfl⟩

theorem addSections_foldl_addLayer (c : Content) (l : Layout) (settings : List (String × String)) :
    (l.layers.foldl Content.addLayer c).addSections l settings =
      { c.extend l with settings } := by
  rw [foldl_addLayer]
  rfl

section Body

variable {l : Layout} (h : l.Legible) {s : State} {c : Content} (hs : Settles s c)

include h hs

theorem reads_layersOf (hlayers : c.layers = []) :
    Reads limits now ((l.layers.flatMap layerLines).map String.toList) s fun t =>
      ∃ c', Rests limits now t c' ∧ c'.gist = l.layers.foldl Content.addLayer c.gist := by
  have hfits := Layout.problem?_eq_none_iff.mp h.fits
  cases hl : l.layers with
  | nil => exact absurd hl hfits.layers_ne
  | cons layer layers =>
    refine reads_layers (hl ▸ h.layers) hs ?_
    intro i other hother
    rw [hfits.numbered i other (hl ▸ hother), hlayers, List.length_nil, Nat.zero_add]

/-- A document is read back after its title if nothing before clashes with it and its settings are
readable. -/
theorem reads_bodyLines (hlayers : c.layers = []) (hfree : Apart c.categories l.categories)
    (hreadable : ∀ setting ∈ l.settings, Readable setting) :
    Reads limits now ((bodyLines l).map String.toList) s fun t =>
      ∃ c', Settles t c' ∧ ∃ found, c'.gist = { c.gist.extend l with settings := found } ∧
        ((∀ setting ∈ l.settings, setting.1 ≠ "") →
          found = Pairs.putAll c.settings l.settings) := by
  rw [bodyLines, List.map_append]
  refine (reads_layersOf h hs hlayers).append ?_
  rintro s₁ ⟨c₁, hrests, hgist₁⟩
  rw [foldl_addLayer] at hgist₁
  have hcategories₁ : c₁.categories = c.categories := (congrArg Content.categories hgist₁ :)
  have hsettings₁ : c₁.settings = c.settings := (congrArg Content.settings hgist₁ :)
  rw [← foldl_addLayer] at hgist₁
  simp only [← addSections_foldl_addLayer, ← hgist₁, ← hsettings₁]
  rw [← hcategories₁] at hfree
  rw [sectionsWithRule]
  split
  next hempty =>
    rw [← List.isEmpty_iff.mp hempty]
    exact reads_sections h hrests.settles hfree hreadable
  next =>
    rw [List.map_append]
    refine (reads_rule hrests).append ?_
    rintro _ rfl
    exact reads_sections h (fun _ => rfl) hfree hreadable

/-- What is read after the title clashes with nothing before, and its settings are readable. -/
theorem free_of_bodyLines {t : State} {line : Nat}
    (hread : (readLines limits now line ((bodyLines l).map String.toList) s).result = .ok t) :
    c.layers = [] ∧ Apart c.categories l.categories ∧
      ∀ setting ∈ l.settings, Readable setting := by
  have hlayers : c.layers = [] := by
    have hfits := Layout.problem?_eq_none_iff.mp h.fits
    cases hl : l.layers with
    | nil => exact absurd hl hfits.layers_ne
    | cons layer layers =>
      rw [bodyLines, hl, List.flatMap_cons, List.append_assoc, List.map_append] at hread
      have hmem : layer ∈ l.layers := hl ▸ List.mem_cons_self
      exact layers_eq_nil_of_layerLines (h.layers layer hmem)
        (hfits.numbered 0 layer (by rw [hl]; rfl)) hs hread
  rw [bodyLines, List.map_append] at hread
  obtain ⟨s₁, line₁, ⟨c₁, hrests, hgist₁⟩, hread⟩ := (reads_layersOf h hs hlayers).of_append hread
  rw [foldl_addLayer] at hgist₁
  have hcategories₁ : c₁.categories = c.categories := (congrArg Content.categories hgist₁ :)
  rw [← hcategories₁]
  refine ⟨hlayers, ?_⟩
  rw [sectionsWithRule] at hread
  split at hread
  next hempty =>
    rw [← List.isEmpty_iff.mp hempty] at hread
    exact free_of_sections h hrests.settles hread
  next =>
    rw [List.map_append] at hread
    obtain ⟨_, line₂, rfl, hread⟩ := (reads_rule hrests).of_append hread
    exact free_of_sections h (fun _ => rfl) hread

end Body

end Keyforge.Document
