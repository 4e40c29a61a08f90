import Keyforge.Proofs.Document.Lines
import Keyforge.Proofs.Document.Parsed

/-!
# Writing and reading back

What comes of a layout that was read from a document when it is written and read again. Such a layout
is legible, and a legible one is read back (`parse_write_of_legible`) unless a setting has no name: its
line is not read as a setting. Then what is read depends on what the rest still gives
(`exists_gives_iff_admits`).
-/

namespace Keyforge.Document

open Keyforge.Text

variable {limits : Limits} {now : Time.Stamp} {l : Layout}

/-! ### The head of a document -/

theorem reads_frontmatterLines {ls : List (List Char)} (h : ∀ l ∈ ls, trimRight l ≠ "---".toList)
    (opened : Nat) (lines : List (List Char)) :
    Reads limits now ls (.frontmatter opened lines) (· = .frontmatter opened (lines ++ ls)) := by
  induction ls generalizing lines with
  | nil => exact Reads.nil (by rw [List.append_nil])
  | cons l ls ih =>
    refine Reads.cons (Q := (· = .frontmatter opened (lines ++ [l]))) (fun line => ?_) ?_
    · have hopen : ¬(trimRight l == ['-', '-', '-']) = true := by
        simpa using h l List.mem_cons_self
      exact ⟨_, readLine_not_closing lines hopen, rfl⟩
    rintro _ rfl
    refine (ih (List.forall_mem_cons.mp h).2 _).mono ?_
    rintro _ rfl
    rw [List.append_assoc, List.singleton_append]

theorem readLine_title (name : List Char) (c : Content) (line : Nat) :
    readLine limits now line ("# ".toList ++ name) (.inside c .body) = .ok (.inside c .body) := by
  have hprefix : trim ("# ".toList ++ name) <+: '#' :: ' ' :: name := by
    rw [trim, trimLeft_eq_self (by intro c hc; cases hc; decide)]
    exact trimRight_isPrefix _
  refine readLine_body ?_ ?_ c
  · rw [Bool.eq_false_iff]
    intro hheading
    have := (List.isPrefixOf_iff_prefix.mp hheading).trans hprefix
    simp [List.cons_prefix_cons] at this
  · rw [Bool.eq_false_iff]
    intro hrow
    rw [Line.isRow, beq_iff_eq] at hrow
    obtain ⟨rest, hrest⟩ := List.head?_eq_some_iff.mp hrow
    rw [hrest, List.cons_prefix_cons] at hprefix
    exact absurd hprefix.1 (by decide)

/-- The head of a layout's document is read and leaves room for the layout: its title, which may be
several lines, holds no layer, no category of the layout and no tap dance of the layout, and none
that is incomplete. -/
def HeadAdmits (limits : Limits) (now : Time.Stamp) (l : Layout) : Prop :=
  ∃ s c, (readLines limits now 1 (headLines l) .start).result = .ok s ∧ Settles s c ∧ c.Admits l

section Head

variable (hadmits : limits.Admits l.metadata)
  (hrule : ∀ line ∈ Frontmatter.lines l.metadata, trimRight line.toList ≠ "---".toList)
  (hload : Frontmatter.load now ((Frontmatter.lines l.metadata).map String.toList) =
    .ok l.metadata)
  (hname : OneLine l.metadata.name.toList)

include hadmits hrule hload hname

theorem reads_headLines :
    Reads limits now (headLines l) .start (· = .inside { metadata := l.metadata } .body) := by
  have htitle : splitLinesFrom [] ("# ".toList ++ l.metadata.name.toList) =
      ["# ".toList ++ l.metadata.name.toList] := by
    have hone : OneLine ("# ".toList ++ l.metadata.name.toList) :=
      OneLine.append (by decide) hname
    have hsplit := splitLinesFrom_oneLine_append hone [] []
    rw [List.append_nil, List.append_nil] at hsplit
    rw [hsplit, splitLinesFrom_nil]
    simp
  have hrule' : ∀ line ∈ (Frontmatter.lines l.metadata).map String.toList,
      trimRight line ≠ "---".toList := List.forall_mem_map.mpr hrule
  rw [headLines, htitle, List.append_assoc, List.append_assoc]
  refine Reads.cons (Q := fun s => ∃ opened, s = .frontmatter opened []) (fun line => ?_) ?_
  · exact ⟨_, readLine_of_done rfl, line, rfl⟩
  rintro _ ⟨opened, rfl⟩
  refine (reads_frontmatterLines hrule' opened []).append ?_
  rintro _ rfl
  refine Reads.cons (Q := (· = .inside { metadata := l.metadata } .body)) (fun line => ?_) ?_
  · rw [readLine_closing _ (by decide), List.nil_append,
      readMetadata_eq_ok_iff.mpr ⟨hload, hadmits⟩]
    exact ⟨_, rfl, rfl⟩
  rintro _ rfl
  refine Reads.cons (Q := (· = .inside { metadata := l.metadata } .body))
    (fun line => ⟨_, readLine_blank rfl _ _, rfl⟩) ?_
  rintro _ rfl
  refine Reads.cons (Q := (· = .inside { metadata := l.metadata } .body))
    (fun line => ⟨_, readLine_title _ _ line, rfl⟩) ?_
  rintro _ rfl
  exact Reads.single fun line => ⟨_, readLine_blank rfl _ _, rfl⟩

theorem headAdmits_of_oneLine : HeadAdmits limits now l := by
  obtain ⟨s, hs, rfl⟩ := reads_headLines hadmits hrule hload hname 1
  exact ⟨_, { metadata := l.metadata }, hs, fun _ => rfl, rfl, by simp, [], rfl, by simp⟩

end Head

/-! ### The same layout -/

/-- A legible layout whose frontmatter loads back is read from its document. -/
theorem parse_write_of_legible (h : l.Legible) (hmetadata : SoundMetadata limits l.metadata)
    (hrule : ∀ line ∈ Frontmatter.lines l.metadata, trimRight line.toList ≠ "---".toList)
    (hload : Frontmatter.load now ((Frontmatter.lines l.metadata).map String.toList) =
      .ok l.metadata)
    (hname : OneLine l.metadata.name.toList) (hsettings : ∀ setting ∈ l.settings, setting.1 ≠ "") :
    (parse limits now (write l)).result = .ok l := by
  obtain ⟨s₀, hs₀, rfl⟩ := reads_headLines hmetadata.admitted hrule hload hname 1
  have hreadable : ∀ setting ∈ l.settings, Readable setting := fun setting hmem hnil =>
    absurd hnil (hsettings setting hmem)
  have hs : Settles (.inside { metadata := l.metadata } .body) { metadata := l.metadata } :=
    fun _ => rfl
  obtain ⟨s, hs, c, hsettles, found, hgist, hfound⟩ :=
    reads_bodyLines h hs rfl nofun hreadable (1 + (headLines l).length)
  rw [hfound hsettings] at hgist
  refine (parse_write_iff h hmetadata.name.2).mpr ⟨_, s, c, hs₀, hs, hsettles, ?_⟩
  rw [← Content.gives_gist, hgist]
  exact Content.gives_extend h

/-- A layout that was read from a document is read again from the document it is written as, and
written as the same text, provided that its frontmatter is cut off where it ends and loads back, that
its name is one line, and that no setting has an empty name. -/
theorem parse_write_of_parse {document : String} {l : Layout} {now' : Time.Stamp}
    (h : (parse limits now document).result = .ok l)
    (hrule : ∀ line ∈ Frontmatter.lines l.metadata, trimRight line.toList ≠ "---".toList)
    (hload : Frontmatter.load now' ((Frontmatter.lines l.metadata).map String.toList) =
      .ok l.metadata)
    (hname : OneLine l.metadata.name.toList) (hsettings : ∀ setting ∈ l.settings, setting.1 ≠ "") :
    (parse limits now' (write l)).result = .ok l ∧
      (parse limits now' (write l)).result.map write = .ok (write l) := by
  obtain ⟨hlegible, hmetadata⟩ := legible_of_parse h
  have hparse := parse_write_of_legible hlegible hmetadata hrule hload hname hsettings
  exact ⟨hparse, by rw [hparse]; rfl⟩

/-- Text in which the marks of every section also stand inside the names and values. -/
def markedDocument : String :=
  "---\nname: Demo\n---\n## Layer 0: Base\n**Category**: nav\n| C0 |\n|----|\n" ++
  "| LT(1, KC_A)\x7b#FFFFFF\x7d@nav |\n## Categories\n- nav: Nav (#112233) x (#FFFFFF) - y\n" ++
  "## Key Descriptions\n- 0:0:0: Space - not (really)\n## Tap Dances\n- **dance**:\n" ++
  "  - hold: KC_B\n  - SINGLE TAP: KC_A\n## Settings\n**a**b**: v**: w\n"

def readingTime : Time.Stamp := { date := ⟨2024, 1, 2⟩ }

def markedLayout : Layout where
  metadata := { name := "Demo", created := readingTime, modified := readingTime }
  layers := [{
    index := 0
    name := "Base"
    category? := some "nav"
    keys := [(⟨0, 0⟩, {
      keycode := "LT(1, KC_A)"
      position := ⟨0, 0⟩
      color? := some .white
      category? := some "nav"
      description? := some "Space - not (really)" })] }]
  categories := [⟨"nav", "Nav (#112233) x", .white, some "y"⟩]
  tapDances := [⟨"dance", "KC_A", none, some "KC_B"⟩]
  settings := [("a**b", "v**: w")]

/-- The frontmatter of a layout called Demo that was made at `readingTime`. -/
def demoLines : List String :=
  ["name: Demo", "description: ''", "author: ''", "created: '2024-01-02T00:00:00'",
    "modified: '2024-01-02T00:00:00'", "tags: []", "is_template: false", "version: '1.0'"]

theorem lines_markedLayout : Frontmatter.lines markedLayout.metadata = demoLines := by
  decide +kernel

theorem load_markedLayout :
    Frontmatter.load readingTime (demoLines.map String.toList) = .ok markedLayout.metadata :=
  toOption_eq_some_iff.mp (by decide +kernel)

theorem parse_write_of_parse_markedDocument :
    (parse {} readingTime markedDocument).result = .ok markedLayout ∧
      (parse {} readingTime (write markedLayout)).result = .ok markedLayout ∧
      (parse {} readingTime (write markedLayout)).result.map write = .ok (write markedLayout) := by
  have h : (parse {} readingTime markedDocument).result = .ok markedLayout :=
    toOption_eq_some_iff.mp (by decide +kernel)
  refine ⟨h, parse_write_of_parse h ?_ ?_ (by decide) (by decide)⟩
  · rw [lines_markedLayout]
    decide
  · rw [lines_markedLayout]
    exact load_markedLayout

/-! ### Some layout -/

theorem sound_of_headLines {s : State}
    (h : (readLines limits now 1 (headLines l) .start).result = .ok s) : s.Sound limits := by
  have hlines : ∀ line ∈ headLines l, OneLine line := fun line => oneLine_headLines
  have hfirst : readLine limits now 1 "---".toList .start = .ok (.frontmatter 1 []) :=
    readLine_of_done rfl
  rw [headLines, List.append_assoc, List.append_assoc, List.cons_append] at h hlines
  obtain ⟨u, hu, h⟩ := readLines_cons_eq_ok_iff.mp h
  rw [hfirst] at hu
  cases hu
  exact sound_of_closing (List.forall_mem_cons.mp hlines).2 (by decide)
    (.inl ⟨1, [], rfl⟩) h

theorem exists_settles_of_bodyLines (h : l.Legible) {s t : State} (hs : s.Sound limits) {line : Nat}
    (hread : (readLines limits now line ((bodyLines l).map String.toList) s).result = .ok t) :
    ∃ c, Settles s c := by
  obtain ⟨inner, region, rfl, -, -⟩ := hs
  have hne := (Layout.problem?_eq_none_iff.mp h.fits).layers_ne
  cases hl : l.layers with
  | nil => exact absurd hl hne
  | cons layer layers =>
    have hlayer := h.layers layer (hl ▸ List.mem_cons_self)
    rw [bodyLines, hl, List.flatMap_cons, layerLines, propertyLines_eq] at hread
    simp only [List.cons_append, List.map_cons] at hread
    obtain ⟨u, hu, -⟩ := readLines_cons_eq_ok_iff.mp hread
    rw [readLine_heading (isHeading_layerHeading hlayer), bind_eq_ok_iff] at hu
    obtain ⟨c, hc, -⟩ := hu
    exact ⟨c, settles_of_finishContent hc⟩

theorem exists_gives_settings_iff {c : Content} {settings : List (String × String)} :
    (∃ l, Content.Gives { c with settings } l) ↔ ∃ l, c.Gives l := by
  constructor
  · rintro ⟨l, hl⟩
    exact ⟨{ l with settings := c.settings }, hl.layers_ne, hl.uses, hl.ids, hl.metadata, hl.layers,
      hl.categories, hl.tapDances, rfl, hl.fits⟩
  · rintro ⟨l, hl⟩
    exact ⟨{ l with settings }, hl.layers_ne, hl.uses, hl.ids, hl.metadata, hl.layers, hl.categories,
      hl.tapDances, rfl, hl.fits⟩

theorem Content.admits_gist {c : Content} : c.gist.Admits l ↔ c.Admits l := by
  constructor
  · rintro ⟨hlayers, hcategories, made, hmade, hfree⟩
    exact ⟨hlayers, hcategories, made, makeTapDances_gist.mp hmade, hfree⟩
  · rintro ⟨hlayers, hcategories, made, hmade, hfree⟩
    exact ⟨hlayers, hcategories, made, makeTapDances_gist.mpr hmade, hfree⟩

theorem exists_gives_iff_admits {l : Layout} (h : l.Legible) {c c' : Content} (hc : c.Sound limits)
    (huses : c.layers = [] → c.uses = []) (hlayers : c.layers = [])
    (hfree : Apart c.categories l.categories) {found : List (String × String)}
    (hgist : c'.gist = { c.gist.extend l with settings := found }) :
    (∃ l', c'.Gives l') ↔ c.Admits l := by
  have hnone : c.gist.uses = [] := by
    rw [Content.gist, huses hlayers]
    rfl
  calc (∃ l', c'.Gives l') ↔ ∃ l', c'.gist.Gives l' :=
        exists_congr fun l' => Content.gives_gist.symm
    _ ↔ ∃ l', (c.gist.extend l).Gives l' := by rw [hgist]; exact exists_gives_settings_iff
    _ ↔ c.gist.Admits l := Content.exists_gives_extend_iff h hlayers hnone hc.categoryIds hfree
    _ ↔ c.Admits l := Content.admits_gist

/-- When the document of a layout that was read from one can be read: its head has to leave room for
the layout, and a setting with an empty name needs another mark for the end of a name in its value. -/
theorem exists_parse_write_iff {document : String} {l : Layout} {now' : Time.Stamp}
    (h : (parse limits now document).result = .ok l) :
    (∃ l', (parse limits now' (write l)).result = .ok l') ↔
      HeadAdmits limits now' l ∧ ∀ setting ∈ l.settings, Readable setting := by
  obtain ⟨hlegible, hmetadata⟩ := legible_of_parse h
  simp only [parse_write_iff hlegible hmetadata.name.2]
  constructor
  · rintro ⟨l', s₀, s, c', hs₀, hs, hsettles', hgives⟩
    have hsound₀ := sound_of_headLines hs₀
    obtain ⟨c, hsettles⟩ := exists_settles_of_bodyLines hlegible hsound₀ hs
    obtain ⟨hc, huses⟩ := sound_of_settles (.inr (.inr hsound₀)) hsettles
    obtain ⟨hlayers, hfree, hreadable⟩ := free_of_bodyLines hlegible hsettles hs
    obtain ⟨t, ht, c'', hsettles'', found, hgist, -⟩ :=
      reads_bodyLines hlegible hsettles hlayers hfree hreadable (1 + (headLines l).length)
    -- the body is read in one way only
    obtain rfl : t = s := Except.ok.inj (ht.symm.trans hs)
    obtain rfl : c'' = c' := Except.ok.inj ((hsettles'' 0).symm.trans (hsettles' 0))
    have hadmits := (exists_gives_iff_admits hlegible hc huses hlayers hfree hgist).mp ⟨l', hgives⟩
    exact ⟨⟨s₀, c, hs₀, hsettles, hadmits⟩, hreadable⟩
  · rintro ⟨⟨s₀, c, hs₀, hsettles, hadmits⟩, hreadable⟩
    obtain ⟨hc, huses⟩ := sound_of_settles (.inr (.inr (sound_of_headLines hs₀))) hsettles
    obtain ⟨s, hs, c', hsettles', found, hgist, -⟩ :=
      reads_bodyLines hlegible hsettles hadmits.layers hadmits.categories hreadable
        (1 + (headLines l).length)
    obtain ⟨l', hgives⟩ := (exists_gives_iff_admits hlegible hc huses hadmits.layers
      hadmits.categories hgist).mpr hadmits
    exact ⟨l', s₀, s, c', hs₀, hs, hsettles', hgives⟩

/-- Text with a setting that has a blank name. -/
def blankSettingDocument : String :=
  "---\nname: Demo\n---\n## Layer 0: Base\n## Settings\n** **: v\n"

def blankSettingLayout : Layout where
  metadata := markedLayout.metadata
  layers := [{ index := 0, name := "Base" }]
  settings := [("", "v")]

/-- A document is lost: the head of what is written for it can be read, its setting cannot. -/
theorem exists_parse_write_iff_blankSetting :
    (parse {} readingTime blankSettingDocument).result = .ok blankSettingLayout ∧
      HeadAdmits {} readingTime blankSettingLayout ∧
      ¬∃ l, (parse {} readingTime (write blankSettingLayout)).result = .ok l := by
  have h : (parse {} readingTime blankSettingDocument).result = .ok blankSettingLayout :=
    toOption_eq_some_iff.mp (by decide +kernel)
  refine ⟨h, headAdmits_of_oneLine ⟨by decide, by decide⟩ ?_ ?_ (by decide), fun hread => ?_⟩
  · rw [blankSettingLayout, lines_markedLayout]
    decide
  · rw [blankSettingLayout, lines_markedLayout]
    exact load_markedLayout
  · have hreadable := ((exists_parse_write_iff h).mp hread).2 ("", "v") List.mem_cons_self
    exact absurd (hreadable rfl) (by decide)

end Keyforge.Document
