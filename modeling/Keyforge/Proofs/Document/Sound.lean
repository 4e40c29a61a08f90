import Keyforge.Proofs.Document.Sections

/-!
# What is read is legible

Whatever the lines are, everything read of them so far can be written down again. `Content.Sound`
says so of what is settled, `Region.Sound` of what is open, and every line keeps both
(`keeps_sound`).
-/

namespace Keyforge.Document

open Keyforge.Text

variable {limits : Limits} {now : Time.Stamp} {keys : List (Position × Key)}
  {cells : List (List Char × Nat)} {draft : Draft} {line row col : Nat} {cs : List Char}

/-! ### The invariant -/

structure Limits.Admits (limits : Limits) (m : Metadata) : Prop where
  version : limits.versions.contains m.version = true
  short : ¬limits.maxNameLength < size m.name.toList

/-- Metadata as a frontmatter gives it. -/
structure SoundMetadata (limits : Limits) (m : Metadata) : Prop where
  admitted : limits.Admits m
  name : m.name.toList ≠ [] ∧ Trimmed m.name.toList

/-- Keys as the first rows of a table give them. -/
structure SoundKeys (rows : Nat) (keys : List (Position × Key)) : Prop where
  tabular : Tabular keys
  numbered : Layer.numberFrom 0 keys = keys
  above : ∀ p key, (p, key) ∈ keys → p.row < rows
  undescribed : ∀ p key, (p, key) ∈ keys → key.description? = none

/-- A layer as its block gives it, without descriptions. -/
structure SoundLayer (layer : Layer) : Prop where
  legible : layer.Legible
  undescribed : ∀ p key, (p, key) ∈ layer.keys → key.description? = none

/-- A description whose text may be empty. -/
structure SoundNote (note : DescriptionNote) : Prop where
  row : Number.Short note.position.row.toNat
  col : Number.Short note.position.col.toNat
  text : OneLine note.text.toList ∧ Trimmed note.text.toList

/-- What is settled can be written down again. -/
structure Content.Sound (limits : Limits) (c : Content) : Prop where
  metadata : SoundMetadata limits c.metadata
  layers : ∀ layer ∈ c.layers, SoundLayer layer
  categories : ∀ category ∈ c.categories, category.Legible
  categoryIds : (c.categories.map (·.id)).Nodup
  settings : ∀ setting ∈ c.settings, LegibleSetting setting
  settingNames : (c.settings.map Prod.fst).Nodup
  tapDances : ∀ draft ∈ c.tapDances, ∀ action ∈ draft.actions,
    OneLine action.2.toList ∧ Trimmed action.2.toList
  descriptions : ∀ note ∈ c.descriptions, SoundNote note

/-- What is open can be written down again. Only layers refer to categories. -/
def Region.Sound (c : Content) : Region → Prop
  | .layer draft | .tableHeader draft | .tableSeparator draft _ =>
    draft.Legible ∧ Number.Short c.layers.length
  | .table draft _ rows keys =>
    draft.Legible ∧ Number.Short c.layers.length ∧ SoundKeys rows keys
  | _ => c.layers = [] → c.uses = []

/-- A state after the frontmatter in which everything can be written down again. -/
def State.Sound (limits : Limits) (s : State) : Prop :=
  ∃ c region, s = .inside c region ∧ c.Sound limits ∧ region.Sound c

/-! ### Layers -/

theorem soundKeys_nil (rows : Nat) : SoundKeys rows [] :=
  ⟨⟨.nil, by simp, by simp⟩, rfl, by simp, by simp⟩

theorem sound_closeLayer {c c' : Content} (hc : c.Sound limits) (hdraft : draft.Legible)
    (hshort : Number.Short c.layers.length) {rows : Nat} (hkeys : SoundKeys rows keys)
    (h : closeLayer c draft keys = .ok c') : c'.Sound limits ∧ c'.layers ≠ [] := by
  rw [closeLayer_eq_ok hdraft hkeys.tabular] at h
  cases h
  refine ⟨{ hc with layers := forall_mem_concat.mpr ⟨hc.layers, ?_⟩ }, by simp⟩
  rw [Draft.layer, hkeys.numbered]
  exact ⟨⟨⟨by simp, by simpa using hshort⟩, hdraft.name, hdraft.id, hdraft.category, hkeys.tabular,
    hkeys.numbered⟩, hkeys.undescribed⟩

theorem sound_closeRegion {c c' : Content} {region : Region} (hc : c.Sound limits)
    (hregion : region.Sound c) (h : closeRegion c region = .ok c') :
    c'.Sound limits ∧ (c'.layers = [] → c'.uses = []) := by
  cases region with
  | layer draft | tableHeader draft | tableSeparator draft columns =>
    obtain ⟨hdraft, hshort⟩ := hregion
    obtain ⟨hsound, hne⟩ := sound_closeLayer hc hdraft hshort (soundKeys_nil 0) h
    exact ⟨hsound, fun hnil => absurd hnil hne⟩
  | table draft columns rows keys =>
    obtain ⟨hdraft, hshort, hkeys⟩ := hregion
    obtain ⟨hsound, hne⟩ := sound_closeLayer hc hdraft hshort hkeys h
    exact ⟨hsound, fun hnil => absurd hnil hne⟩
  | body | skipped | categories | descriptions | settings | tapDances =>
    cases h
    exact ⟨hc, hregion⟩

theorem sound_openRegion {c : Content} {region : Region} (hcs : OneLine cs)
    (huses : c.layers = [] → c.uses = []) (h : openRegion c line cs = .ok region) :
    region.Sound c := by
  rw [openRegion] at h
  split at h
  next digits name hheading =>
    rw [bind_eq_ok_iff] at h
    obtain ⟨number, hnumber, h⟩ := h
    rw [readDigits_eq_ok_iff] at hnumber
    split at h
    next hlength =>
      cases h
      have hdraft : Draft.Legible { name } :=
        ⟨(Line.of_layerHeading? hheading).2 hcs, by simp, by simp⟩
      exact ⟨hdraft, hlength ▸ Number.short_of_ofDigits hnumber⟩
    next => cases h
  next => split at h <;> cases h <;> exact huses

theorem sound_readProperty {c : Content} {s : State} (hc : c.Sound limits)
    (hregion : Region.Sound c (.layer draft)) (h : readProperty c draft line cs = .ok s) :
    s.Sound limits := by
  obtain ⟨hdraft, hshort⟩ := hregion
  rw [readProperty] at h
  split at h
  next => cases h
  next name chars hfound =>
    dsimp only at h
    split at h
    next =>
      split at h
      next hid =>
        cases h
        refine ⟨_, _, rfl, hc, ⟨hdraft.name, ?_, hdraft.category⟩, hshort⟩
        rintro _ ⟨⟩
        rwa [String.toList_ofList]
      next => cases h
    next =>
      split at h
      next =>
        cases h
        exact ⟨_, _, rfl, hc, ⟨hdraft.name, hdraft.id, hdraft.category⟩, hshort⟩
      next => cases h
    next =>
      split at h
      next hid =>
        cases h
        refine ⟨_, _, rfl, { hc with }, ⟨hdraft.name, hdraft.id, ?_⟩, hshort⟩
        rintro _ ⟨⟩
        rwa [String.toList_ofList]
      next => cases h
    next =>
      cases h
      exact ⟨_, _, rfl, hc, ⟨hdraft.name, hdraft.id, hdraft.category⟩, hshort⟩
    next =>
      cases h
      exact ⟨_, _, rfl, { hc with }, hdraft, hshort⟩

/-! ### Tables -/

theorem cells_spec {indent : Nat} (hcs : OneLine cs) (h : Line.cells? indent cs = some cells) :
    ∀ cell ∈ cells, OneLine cell.1 ∧ '|' ∉ cell.1 := by
  rw [Line.cells?] at h
  split at h
  next => cases h
  next =>
    cases h
    intro cell hcell
    have hmem := List.mem_map_of_mem (f := Prod.fst) hcell
    rw [map_fst_placeCells] at hmem
    obtain ⟨piece, hpiece, hcell⟩ := List.mem_map.mp hmem
    have hsub : (cs.drop 1).dropLast.Sublist cs :=
      ((cs.drop 1).dropLast_sublist).trans (cs.drop_sublist 1)
    rw [← hcell]
    refine ⟨fun c hc => ?_, fun hbar => ?_⟩
    · exact hcs c (hsub.subset (mem_of_mem_splitAt hpiece c ((trim_sublist piece).subset hc)).1)
    · exact (mem_of_mem_splitAt hpiece '|' ((trim_sublist piece).subset hbar)).2 rfl

theorem SoundKeys.concat (h : SoundKeys (row + 1) keys)
    (hbefore : ∀ p key, (p, key) ∈ keys → p.before ⟨row, col⟩ = true) {key : Key}
    (hkey : key.Legible) (hposition : key.position = ⟨row, col⟩)
    (hslot : key.slot = (keys.length : Nat)) (hdescription : key.description? = none) :
    SoundKeys (row + 1) (keys ++ [(⟨row, col⟩, key)]) := by
  refine ⟨⟨?_, forall_entry_concat h.tabular.placed ?_, forall_entry_concat h.tabular.legible hkey⟩,
    ?_, forall_entry_concat h.above ?_, forall_entry_concat h.undescribed hdescription⟩
  · rw [List.pairwise_append]
    refine ⟨h.tabular.sorted, List.pairwise_singleton _ _, ?_⟩
    rintro ⟨p, k⟩ hpk other hother
    rw [List.mem_singleton.mp hother]
    exact hbefore p k hpk
  · exact ⟨hposition.symm, by simp, by simp⟩
  · rw [Layer.numberFrom_append, h.numbered]
    simp [Layer.numberFrom, ← hslot]
  · show ((row : Nat) : Int) < ((row + 1 : Nat) : Int)
    omega

theorem phrase_of_read {cell : Cell} (hone : OneLine cs) (h : Cell.read cs = .ok cell) :
    Phrase cell.keycode.toList := by
  obtain ⟨hwell, hstart⟩ := Cell.wellFormed_of_read h
  obtain ⟨hne, htrimmed⟩ := Cell.trimmed_of_isKeycode hwell.keycode
  exact ⟨hne, htrimmed, hone.sublist hstart.sublist⟩

/-- The key that a cell says, without a description. -/
def Cell.key (cell : Cell) (p : Position) (slot : Nat) : Key :=
  { keycode := cell.keycode, position := p, slot := (slot : Nat), color? := cell.color?,
    category? := cell.category? }

theorem exists_readCells_of_cons {column : Nat} (hone : OneLine cs) (hne : cs ≠ [])
    (hbefore : ∀ p key, (p, key) ∈ keys → p.before ⟨row, col⟩ = true) {uses : List CategoryNote}
    {result : List (Position × Key) × List CategoryNote}
    (h : readCells line row col ((cs, column) :: cells) keys uses = .ok result) :
    ∃ cell uses', Cell.read cs = .ok cell ∧
      readCells line row (col + 1) cells
        (keys ++ [(⟨row, col⟩, cell.key ⟨row, col⟩ keys.length)]) uses' = .ok result := by
  rw [readCells, if_neg (by simpa using hne)] at h
  split at h
  next => cases h
  next cell hread =>
    dsimp only at h
    rw [make_eq_ok (phrase_of_read hone hread) rfl] at h
    dsimp only at h
    rw [Pairs.put_eq_append fun pair hmem => ne_of_before hbefore pair.1 pair.2 hmem] at h
    exact ⟨cell, _, hread, h⟩

theorem sound_readCells (hcells : ∀ cell ∈ cells, OneLine cell.1 ∧ '|' ∉ cell.1)
    (hkeys : SoundKeys (row + 1) keys)
    (hbefore : ∀ p key, (p, key) ∈ keys → p.before ⟨row, col⟩ = true)
    {uses uses' : List CategoryNote} {keys' : List (Position × Key)}
    (h : readCells line row col cells keys uses = .ok (keys', uses')) :
    SoundKeys (row + 1) keys' := by
  induction cells generalizing col keys uses with
  | nil =>
    cases h
    exact hkeys
  | cons cell cells ih =>
    obtain ⟨cs, column⟩ := cell
    have hrest := (List.forall_mem_cons.mp hcells).2
    obtain ⟨hone, hbar⟩ := hcells _ List.mem_cons_self
    by_cases hblank : cs = []
    · subst hblank
      exact ih hrest hkeys (before_next hbefore) h
    · obtain ⟨cell, uses, hread, h⟩ := exists_readCells_of_cons hone hblank hbefore h
      obtain ⟨hwell, hstart⟩ := Cell.wellFormed_of_read hread
      refine ih hrest (hkeys.concat hbefore ?_ rfl rfl rfl) (before_next_concat hbefore) h
      exact ⟨hwell, fun hmem => hbar (hstart.subset hmem), (phrase_of_read hone hread).oneLine, rfl⟩

theorem SoundKeys.before {rows : Nat} (h : SoundKeys rows keys) :
    ∀ p key, (p, key) ∈ keys → p.before ⟨rows, (0 : Nat)⟩ = true := by
  intro p key hmem
  rw [Position.before_iff]
  exact .inl (h.above p key hmem)

theorem sound_readKeys {c : Content} {columns rows : Nat} {s : State}
    (hcells : ∀ cell ∈ cells, OneLine cell.1 ∧ '|' ∉ cell.1) (hc : c.Sound limits)
    (hregion : Region.Sound c (.table draft columns rows keys))
    (h : readKeys c draft columns rows line keys cells = .ok s) : s.Sound limits := by
  obtain ⟨hdraft, hshort, hkeys⟩ := hregion
  simp only [readKeys, bind_eq_ok_iff] at h
  obtain ⟨-, -, ⟨keys', uses⟩, hread, h⟩ := h
  cases h
  have hmore : SoundKeys (rows + 1) keys :=
    ⟨hkeys.tabular, hkeys.numbered, fun p key hmem => by have := hkeys.above p key hmem; omega,
      hkeys.undescribed⟩
  exact ⟨_, _, rfl, { hc with }, hdraft, hshort, sound_readCells hcells hmore hkeys.before hread⟩

theorem sound_readSeparator {c : Content} {columns : Nat} {s : State} (hc : c.Sound limits)
    (hregion : Region.Sound c (.tableSeparator draft columns))
    (h : readSeparator c draft columns line cells = .ok s) : s.Sound limits := by
  rw [readSeparator] at h
  split at h
  next => cases h
  next =>
    rw [bind_eq_ok_iff] at h
    obtain ⟨-, -, h⟩ := h
    cases h
    exact ⟨_, _, rfl, hc, hregion.1, hregion.2, soundKeys_nil 0⟩

/-! ### Sections -/

section Entries

variable {c c' : Content} (hc : c.Sound limits) (hcs : OneLine cs)

include hc hcs

theorem sound_readCategory (htrimmed : Trimmed cs) (h : readCategory c line cs = .ok c') :
    c'.Sound limits ∧ c'.layers = c.layers ∧ c'.uses = c.uses := by
  rw [readCategory] at h
  split at h
  next => cases h
  next entry hentry =>
    split at h
    next => cases h
    next hfree =>
      split at h
      next category hmake =>
        cases h
        obtain ⟨-, hblank, hshort, rfl⟩ := Category.make_eq_ok_iff.mp hmake
        have hne : trim entry.name.toList ≠ [] := fun hnil => hblank (by rw [strip, hnil])
        obtain ⟨hid, hname, hunsplit, hdescription⟩ :=
          Line.unsplit_of_category? hcs htrimmed hentry hne
        rw [strip_eq_self hname.trimmed] at hshort ⊢
        refine ⟨{ hc with categories := ?_, categoryIds := ?_ }, rfl, rfl⟩
        · exact forall_mem_concat.mpr
            ⟨hc.categories, hid, hname, hshort, hunsplit, hdescription⟩
        · rw [List.map_append, List.map_singleton, ← List.concat_eq_append]
          refine List.Nodup.concat (fun hmem => hfree ?_) hc.categoryIds
          obtain ⟨other, hother, heq⟩ := List.mem_map.mp hmem
          exact List.any_eq_true.mpr ⟨other, hother, beq_iff_eq.mpr heq⟩
      next => cases h

theorem sound_readDescription (h : readDescription c line cs = .ok c') :
    c'.Sound limits ∧ c'.layers = c.layers ∧ c'.uses = c.uses := by
  rw [readDescription] at h
  split at h
  next => cases h
  next entry hentry =>
    simp only [bind_eq_ok_iff, readDigits_eq_ok_iff] at h
    obtain ⟨layer, hlayer, row, hrow, col, hcol, h⟩ := h
    cases h
    refine ⟨{ hc with descriptions := forall_mem_concat.mpr ⟨hc.descriptions, ?_⟩ }, rfl, rfl⟩
    exact ⟨Number.short_of_ofDigits hrow, Number.short_of_ofDigits hcol,
      (Line.of_description? hentry).2 hcs⟩

theorem sound_readSetting (h : readSetting c line cs = .ok c') :
    c'.Sound limits ∧ c'.layers = c.layers ∧ c'.uses = c.uses := by
  rw [readSetting] at h
  split at h
  next => cases h
  next name value hfound =>
    cases h
    obtain ⟨tail, rfl, rfl, hne, hfree⟩ := Line.eq_append_of_property? hfound
    have hname : OneLine name := fun c hmem => hcs c (by simp [hmem])
    have htail : OneLine tail := fun c hmem => hcs c (by simp [hmem])
    refine ⟨{ hc with settings := ?_, settingNames := Pairs.nodup_put hc.settingNames }, rfl, rfl⟩
    intro setting hsetting
    rcases Pairs.mem_put hsetting with heq | hsetting
    · have hname' : setting.1.toList = trim name := by rw [heq, String.toList_ofList]
      have hvalue' : setting.2.toList = trim tail := by rw [heq, String.toList_ofList]
      refine ⟨?_, ?_, ?_⟩ <;> rw [hname']
      · rw [hvalue']
        exact ⟨hname.trim, htail.trim⟩
      · rw [hvalue']
        exact ⟨trimmed_trim name, trimmed_trim tail⟩
      · exact hfree.trim
    · exact hc.settings setting hsetting

theorem sound_readTapDance (h : readTapDance c line cs = .ok c') :
    c'.Sound limits ∧ c'.layers = c.layers ∧ c'.uses = c.uses := by
  rw [readTapDance] at h
  split at h
  next word keycode haction =>
    rw [bind_eq_ok_iff] at h
    obtain ⟨tapDances, hread, h⟩ := h
    cases h
    refine ⟨{ hc with tapDances := ?_ }, rfl, rfl⟩
    rw [readAction] at hread
    split at hread
    next => cases hread
    next draft hlast =>
      split at hread
      next => cases hread
      next =>
        cases hread
        refine forall_mem_concat.mpr
          ⟨fun other hother => hc.tapDances other ((List.dropLast_sublist _).subset hother), ?_⟩
        exact forall_mem_concat.mpr ⟨hc.tapDances draft (List.mem_of_getLast? hlast),
          Line.oneLine_of_action? hcs haction⟩
  next =>
    split at h
    next name hname =>
      cases h
      refine ⟨{ hc with tapDances := forall_mem_concat.mpr ⟨hc.tapDances, ?_⟩ }, rfl, rfl⟩
      exact List.forall_mem_nil _
    next => cases h

theorem sound_read (htrimmed : Trimmed cs) (sec : Line.Section) (h : sec.read c line cs = .ok c') :
    c'.Sound limits ∧ c'.layers = c.layers ∧ c'.uses = c.uses := by
  cases sec with
  | categories => exact sound_readCategory hc hcs htrimmed h
  | descriptions => exact sound_readDescription hc hcs h
  | settings => exact sound_readSetting hc hcs h
  | tapDances => exact sound_readTapDance hc hcs h

end Entries

theorem sound_region_iff {sec : Line.Section} {c : Content} :
    sec.region.Sound c ↔ (c.layers = [] → c.uses = []) := by
  cases sec <;> rfl

/-! ### Lines -/

theorem keeps_sound (line : Nat) {full : List Char} (hfull : OneLine full) :
    Keeps (fun _ => True) (fun c region => c.Sound limits ∧ region.Sound c) line full where
  refused _ := ⟨trivial, trivial, trivial⟩
  close h := .of_forall_ok fun c' hc' => sound_closeRegion h.1 h.2 hc'
  opens h := .of_forall_ok fun region hopen => ⟨h.1, sound_openRegion hfull.trim h.2 hopen⟩
  table h := h
  header _ h := h
  separator _ h := .of_forall_ok fun s hs => sound_readSeparator h.1 h.2 hs
  keys h _ hcells := .of_forall_ok fun s hs =>
    sound_readKeys (cells_spec hfull.trim hcells) h.1 h.2 hs
  property h _ := .of_forall_ok fun s hs => sound_readProperty h.1 h.2 hs
  entry sec h := .of_forall_ok fun c' hc' => by
    obtain ⟨hsound, hlayers, hsame⟩ := sound_read h.1 hfull.trim (trimmed_trim full) sec hc'
    refine ⟨hsound, ?_⟩
    rw [sound_region_iff, hlayers, hsame]
    exact sound_region_iff.mp h.2

theorem sound_readLine {full : List Char} (hfull : OneLine full) {s t : State} (hs : s.Sound limits)
    (h : readLine limits now line full s = .ok t) : t.Sound limits :=
  ((keeps_sound line hfull).ensures_readLine hs).ok t h

theorem sound_readLines {lines : List (List Char)} (hlines : ∀ full ∈ lines, OneLine full)
    {s t : State} (hs : s.Sound limits) (h : (readLines limits now line lines s).result = .ok t) :
    t.Sound limits :=
  invariant_readLines (fun full hfull _ _ _ => sound_readLine (hlines full hfull)) hs h

end Keyforge.Document
