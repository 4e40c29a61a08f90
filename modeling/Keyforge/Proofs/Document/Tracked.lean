import Keyforge.Proofs.Document.Columns

/-!
# How lines fail

A line after the frontmatter is refused for a problem of its own or because a number in it has too
many digits (`ReadError.OfLine`). `Content.Tracked` is what the end of the document relies on.
-/

namespace Keyforge.Document

open Keyforge.Text ReadError

variable {limits : Limits} {now : Time.Stamp} {keys : List (Position × Key)}
  {lines : List (List Char)} {line : Nat} {full : List Char} {c : Content}

/-! ### The invariant -/

/-- What is settled agrees with what is noted for the end of the document. -/
structure Content.Tracked (lines : List (List Char)) (c : Content) : Prop where
  numbered : ∀ (i : Nat) (layer : Layer), c.layers[i]? = some layer → layer.index = i
  noted : ∀ layer ∈ c.layers, ∀ id ∈ layer.categoryIds, id ∈ c.uses.map (·.id)
  uses : ∀ use ∈ c.uses, use.undefined.Shows lines
  tapDances : ∀ draft ∈ c.tapDances, 1 ≤ draft.line ∧ draft.line ≤ lines.length

/-- The categories of a layer whose block is being read, with the keys it has so far. -/
def Draft.categoryIds (draft : Draft) (keys : List (Position × Key)) : List String :=
  draft.category?.toList ++ keys.filterMap fun entry => entry.2.category?

/-- The categories that are referred to in an open region. -/
def Region.categoryIds : Region → List String
  | .layer draft | .tableHeader draft | .tableSeparator draft _ => draft.categoryIds []
  | .table draft _ _ keys => draft.categoryIds keys
  | _ => []

/-- The categories that are referred to in an open region are noted, too. -/
def Region.Tracked (c : Content) (region : Region) : Prop :=
  ∀ id ∈ region.categoryIds, id ∈ c.uses.map (·.id)

/-- What is settled and what is open agree with the notes. -/
def Tracks (lines : List (List Char)) (c : Content) (region : Region) : Prop :=
  c.Tracked lines ∧ region.Tracked c

/-- A state after the frontmatter that can be written down again and agrees with its notes. -/
def State.Tracked (limits : Limits) (lines : List (List Char)) : State → Prop :=
  State.Inside fun c region => (c.Sound limits ∧ region.Sound c) ∧ Tracks lines c region

def ReadError.OfLine (lines : List (List Char)) (line : Nat) (cs : List Char) : ReadError → Prop
  | .located e => e.line = line ∧ e.Shows lines
  | .tooLong n => Number.digitLimit < n ∧ ∃ digits, IsRun digits cs ∧ digits.length = n
  | .frontmatter _ | .rejected _ _ => False

theorem Draft.mem_categoryIds {draft : Draft} {id : String} :
    id ∈ draft.categoryIds keys ↔
      draft.category? = some id ∨ ∃ entry ∈ keys, entry.2.category? = some id := by
  rw [categoryIds, List.mem_append, List.mem_filterMap, Option.mem_toList]

theorem Region.tracked_of_nil {region : Region} (h : region.categoryIds = []) (c : Content) :
    region.Tracked c := by
  intro id hid
  rw [h] at hid
  cases hid

theorem Content.Tracked.withUses (h : c.Tracked lines) {uses : List CategoryNote}
    (hsub : c.uses ⊆ uses) (huses : ∀ use ∈ uses, use.undefined.Shows lines) :
    { c with uses }.Tracked lines :=
  { h with
    noted := fun layer hlayer id hid => List.map_subset _ hsub (h.noted layer hlayer id hid)
    uses := huses }

/-! ### Layers -/

section Layers

variable {E : ReadError → Prop}

theorem tracked_closeLayer (hc : c.Tracked lines) {draft : Draft} (hdraft : draft.Legible)
    {rows : Nat} (hkeys : SoundKeys rows keys)
    (hids : ∀ id ∈ draft.categoryIds keys, id ∈ c.uses.map (·.id)) :
    Ensures E (Content.Tracked lines) (closeLayer c draft keys) := by
  rw [closeLayer_eq_ok hdraft hkeys.tabular, Draft.layer, hkeys.numbered]
  exact .of_ok { hc with
    numbered := Layout.index_of_getElem?_append hc.numbered rfl
    noted := forall_mem_concat.mpr ⟨hc.noted, fun id hid =>
      hids id (Draft.mem_categoryIds.mpr (Layer.mem_categoryIds.mp hid))⟩ }

theorem tracked_closeRegion {region : Region} (hc : c.Tracked lines) (hsound : region.Sound c)
    (hregion : region.Tracked c) : Ensures E (Content.Tracked lines) (closeRegion c region) := by
  cases region with
  | layer draft | tableHeader draft | tableSeparator draft columns =>
    rw [closeRegion]
    exact tracked_closeLayer hc hsound.1 (soundKeys_nil 0) hregion
  | table draft columns rows keys =>
    obtain ⟨hdraft, -, hkeys⟩ := hsound
    rw [closeRegion]
    exact tracked_closeLayer hc hdraft hkeys hregion
  | body | skipped | categories | descriptions | settings | tapDances => exact .of_ok hc

theorem ensures_readDigits {digits cs : List Char} (h : IsRun digits cs) :
    Ensures (OfLine lines line cs) (fun _ => True) (readDigits digits) := by
  unfold readDigits Number.ofDigits
  split
  next hlong => exact .of_error ⟨hlong, digits, h, rfl⟩
  next => exact .of_ok trivial

theorem tracked_openRegion (cs : List Char) :
    Ensures (OfLine lines line cs) (Region.Tracked c) (openRegion c line cs) := by
  unfold openRegion
  split
  next digits name hheading =>
    refine (ensures_readDigits (Line.of_layerHeading? hheading).1).bind fun number _ => ?_
    split
    · exact .of_ok (Region.tracked_of_nil rfl c)
    · exact .of_error ⟨rfl, trivial⟩
  next => split <;> exact .of_ok (Region.tracked_of_nil rfl c)

theorem tracked_readProperty (hline : StandsAt lines line full)
    (hplain : ¬Line.isRow (trim full) = true) (hc : c.Tracked lines) {draft : Draft}
    (hregion : Region.Tracked c (.layer draft)) :
    Ensures (OfLine lines line (trim full)) (State.Inside (Tracks lines))
      (readProperty c draft line (trim full)) := by
  unfold readProperty
  split
  · exact .of_error ⟨rfl, trivial⟩
  next name chars hfound =>
    obtain ⟨indent, front, hat, hsize⟩ := exists_propertyAt hfound
    have hshows : ∀ problem : Problem, problem.Concerns (PropertyName.of name) chars →
        Located.ShowsValue full ⟨problem, line, some (size front + 1)⟩ := fun problem hproblem =>
      ⟨indent, front, chars, _, hat, hproblem, rfl⟩
    dsimp only
    rw [hsize]
    split
    next hname =>
      split
      · exact .of_ok ⟨_, _, rfl, hc, hregion⟩
      next hid => exact .of_error ⟨rfl, full, hline, hshows _ ⟨hname, rfl, hid⟩⟩
    next hname =>
      split
      · exact .of_ok ⟨_, _, rfl, hc, hregion⟩
      next error herror => exact .of_error ⟨rfl, full, hline, hshows _ ⟨hname, herror⟩⟩
    next hname =>
      split
      next hid =>
        refine .of_ok ⟨_, _, rfl, hc.withUses (List.subset_append_left _ _) ?_, ?_⟩
        · exact forall_mem_concat.mpr ⟨hc.uses, full, hline, fun hrow => absurd hrow hplain,
            fun _ => hshows _ ⟨hname, rfl, hid⟩⟩
        · intro id hid
          rcases Draft.mem_categoryIds.mp hid with hid | ⟨_, hentry, -⟩
          · cases hid
            simp
          · cases hentry
      next hid => exact .of_error ⟨rfl, full, hline, hshows _ ⟨hname, rfl, hid⟩⟩
    · exact .of_ok ⟨_, _, rfl, hc, hregion⟩
    · exact .of_ok ⟨_, _, rfl, { hc with }, hregion⟩

end Layers

/-! ### Tables -/

section Tables

variable {cs : List Char}

theorem tracked_readCells (hline : StandsAt lines line full)
    (hrow : Line.isRow (trim full) = true) {row col : Nat}
    {cells : List (List Char × Nat)} (front : List (List Char × Nat))
    (hplaced : Placed full (front ++ cells))
    (hfront : ∀ cell ∈ front, cell.1 = [] ∨ ∃ read, Cell.read cell.1 = .ok read)
    (hcells : ∀ cell ∈ cells, OneLine cell.1) {uses : List CategoryNote}
    (hkeys : ∀ entry ∈ keys, ∀ id, entry.2.category? = some id → id ∈ uses.map (·.id))
    (huses : ∀ use ∈ uses, use.undefined.Shows lines) :
    Ensures (OfLine lines line cs) (fun read => uses ⊆ read.2 ∧
      (∀ entry ∈ read.1, ∀ id, entry.2.category? = some id → id ∈ read.2.map (·.id)) ∧
      ∀ use ∈ read.2, use.undefined.Shows lines)
      (readCells line row col cells keys uses) := by
  -- the cells that are read move to those in front, so that the first malformed one is known
  induction cells generalizing front col keys uses with
  | nil => exact .of_ok ⟨List.Subset.refl uses, hkeys, huses⟩
  | cons cell cells ih =>
    obtain ⟨raw, column⟩ := cell
    have hrest := (List.forall_mem_cons.mp hcells).2
    have hone : OneLine raw := hcells _ List.mem_cons_self
    obtain ⟨raws, hraws, hat⟩ := hplaced front (raw, column) cells rfl
    rw [List.append_cons] at hplaced
    rw [readCells]
    split
    next hblank =>
      exact ih _ hplaced (forall_mem_concat.mpr ⟨hfront, .inl (List.isEmpty_iff.mp hblank)⟩) hrest
        hkeys huses
    next hne =>
      split
      next e hread =>
        refine .of_error ⟨rfl, full, hline, raws, raw, column, e, hat, by simpa using hne, hread, rfl,
          rfl, fun before hbefore => ?_⟩
        have hmem := List.mem_map_of_mem (f := trim) hbefore
        rw [hraws] at hmem
        obtain ⟨cell, hcell, heq⟩ := List.mem_map.mp hmem
        exact heq ▸ hfront cell hcell
      next cell hread =>
        dsimp only
        -- what is read from a cell is a phrase, so the key is never rejected
        rw [make_eq_ok (phrase_of_read hone hread) rfl]
        dsimp only
        refine (ih _ hplaced (forall_mem_concat.mpr ⟨hfront, .inr ⟨cell, hread⟩⟩) hrest ?_ ?_).mono
          fun read hspec => ?_
        · intro entry hentry id hid
          rw [List.map_append]
          rcases Pairs.mem_put hentry with rfl | hentry
          · have hcell : cell.category? = some id := hid
            refine List.mem_append_right _ ?_
            rw [hcell]
            exact List.mem_singleton.mpr rfl
          · exact List.mem_append_left _ (hkeys entry hentry id hid)
        · intro use huse
          rcases List.mem_append.mp huse with huse | huse
          · exact huses use huse
          · obtain ⟨id, hid, rfl⟩ := List.mem_map.mp huse
            exact ⟨full, hline, fun _ => ⟨raws, raw, column, cell, hat, hread,
              Option.mem_toList.mp hid, rfl⟩, absurd hrow⟩
        · exact ⟨List.Subset.trans (List.subset_append_left _ _) hspec.1, hspec.2⟩

theorem tracked_readKeys (hline : StandsAt lines line full)
    (hrow : Line.isRow (trim full) = true) (hc : c.Tracked lines) {draft : Draft}
    {columns rows : Nat} (hregion : Region.Tracked c (.table draft columns rows keys))
    {cells : List (List Char × Nat)} (hplaced : Placed full cells)
    (hcells : ∀ cell ∈ cells, OneLine cell.1) :
    Ensures (OfLine lines line cs) (State.Inside (Tracks lines))
      (readKeys c draft columns rows line keys cells) := by
  have hkeys : ∀ entry ∈ keys, ∀ id, entry.2.category? = some id → id ∈ c.uses.map (·.id) :=
    fun entry hentry id hid => hregion id (Draft.mem_categoryIds.mpr (.inr ⟨entry, hentry, hid⟩))
  unfold readKeys checkCount
  split
  · refine (tracked_readCells hline hrow [] hplaced (List.forall_mem_nil _) hcells hkeys
      hc.uses).bind ?_
    rintro ⟨keys', uses⟩ ⟨hsub, hkeys', huses⟩
    refine .of_ok ⟨_, _, rfl, hc.withUses hsub huses, fun id hid => ?_⟩
    rcases Draft.mem_categoryIds.mp hid with hid | ⟨entry, hentry, hid⟩
    · exact List.map_subset _ hsub (hregion id (Draft.mem_categoryIds.mpr (.inl hid)))
    · exact hkeys' entry hentry id hid
  · exact .of_error ⟨rfl, trivial⟩

theorem tracked_readSeparator (hc : c.Tracked lines) {draft : Draft} {columns : Nat}
    (hregion : Region.Tracked c (.tableSeparator draft columns)) (cells : List (List Char × Nat)) :
    Ensures (OfLine lines line cs) (State.Inside (Tracks lines))
      (readSeparator c draft columns line cells) := by
  unfold readSeparator checkCount
  split
  · exact .of_error ⟨rfl, trivial⟩
  · split
    · exact .of_ok ⟨_, _, rfl, hc, hregion⟩
    · exact .of_error ⟨rfl, trivial⟩

end Tables

/-! ### Sections -/

section Entries

variable (hc : c.Tracked lines) (cs : List Char)

include hc

theorem tracked_readCategory :
    Ensures (OfLine lines line cs) (Content.Tracked lines) (readCategory c line cs) := by
  unfold readCategory
  split
  · exact .of_error ⟨rfl, trivial⟩
  · split
    · exact .of_error ⟨rfl, trivial⟩
    · split
      · exact .of_ok { hc with }
      · exact .of_error ⟨rfl, trivial⟩

theorem tracked_readDescription :
    Ensures (OfLine lines line cs) (Content.Tracked lines) (readDescription c line cs) := by
  unfold readDescription
  split
  · exact .of_error ⟨rfl, trivial⟩
  next entry hentry =>
    obtain ⟨⟨hlayer, hrow, hcol⟩, -⟩ := Line.of_description? hentry
    refine (ensures_readDigits hlayer).bind fun layer _ => ?_
    refine (ensures_readDigits hrow).bind fun row _ => ?_
    refine (ensures_readDigits hcol).bind fun col _ => ?_
    exact .of_ok { hc with }

theorem tracked_readSetting :
    Ensures (OfLine lines line cs) (Content.Tracked lines) (readSetting c line cs) := by
  unfold readSetting
  split
  · exact .of_error ⟨rfl, trivial⟩
  · exact .of_ok { hc with }

theorem tracked_readTapDance (hline : 1 ≤ line ∧ line ≤ lines.length) :
    Ensures (OfLine lines line cs) (Content.Tracked lines) (readTapDance c line cs) := by
  unfold readTapDance
  split
  next word keycode _ =>
    unfold readAction
    split
    · exact .of_error ⟨rfl, trivial⟩
    next last hlast =>
      split
      · exact .of_error ⟨rfl, trivial⟩
      · -- the draft that the action is added to keeps the number of its line
        refine .of_ok { hc with tapDances := ?_ }
        exact forall_mem_concat.mpr
          ⟨fun draft hdraft => hc.tapDances draft ((List.dropLast_sublist _).subset hdraft),
            hc.tapDances last (List.mem_of_getLast? hlast)⟩
  · split
    · exact .of_ok { hc with
        tapDances := forall_mem_concat.mpr ⟨hc.tapDances, hline⟩ }
    · exact .of_error ⟨rfl, trivial⟩

theorem tracked_read (hline : 1 ≤ line ∧ line ≤ lines.length) (sec : Line.Section) :
    Ensures (OfLine lines line cs) (Content.Tracked lines) (sec.read c line cs) := by
  cases sec with
  | categories => exact tracked_readCategory hc cs
  | descriptions => exact tracked_readDescription hc cs
  | settings => exact tracked_readSetting hc cs
  | tapDances => exact tracked_readTapDance hc cs hline

end Entries

/-! ### Lines -/

/-- A line after the frontmatter keeps both invariants, or is refused for itself. -/
theorem keeps_tracked (hfull : OneLine full) (hline : StandsAt lines line full) :
    Keeps (OfLine lines line (trim full))
      (fun c region => (c.Sound limits ∧ region.Sound c) ∧ Tracks lines c region) line full where
  refused _ := ⟨⟨rfl, trivial⟩, ⟨rfl, trivial⟩, ⟨rfl, trivial⟩⟩
  close h := ((keeps_sound line hfull).close h.1).and <|
    (tracked_closeRegion h.2.1 h.1.2 h.2.2).mono fun c' hc' => ⟨hc', Region.tracked_of_nil rfl c'⟩
  opens h := ((keeps_sound line hfull).opens h.1).and <|
    (tracked_openRegion (trim full)).mono fun _ hregion => ⟨h.2.1, hregion⟩
  table h := h
  header _ h := h
  separator cells h := (((keeps_sound line hfull).separator cells h.1).and <|
    tracked_readSeparator h.2.1 h.2.2 cells).mono fun _ hs => hs.1.and hs.2
  keys h hrow hcells := (((keeps_sound line hfull).keys h.1 hrow hcells).and <|
    tracked_readKeys hline hrow h.2.1 h.2.2 (placed_of_cells? hrow hcells) fun cell hcell =>
      (cells_spec hfull.trim hcells cell hcell).1).mono fun _ hs => hs.1.and hs.2
  property h hplain := (((keeps_sound line hfull).property h.1 hplain).and <|
    tracked_readProperty hline hplain h.2.1 h.2.2).mono fun _ hs => hs.1.and hs.2
  entry sec h := ((keeps_sound line hfull).entry sec h.1).and <|
    (tracked_read h.2.1 (trim full) hline.bounds sec).mono fun c' hc' =>
      ⟨hc', Region.tracked_of_nil (by cases sec <;> rfl) c'⟩

end Keyforge.Document
