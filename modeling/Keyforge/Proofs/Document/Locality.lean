import Keyforge.Proofs.Document.Content

/-!
# What a block sees and changes

A block is of one kind, and the lines of a block see and change only the part of the content that
belongs to the kind. This is said of two runs over the same lines, from contents that agree in that
part (`Content.Carries`).
-/

namespace Keyforge.Document

open Keyforge.Text

variable {limits : Limits} {now : Time.Stamp}

/-! ### Kinds of blocks -/

inductive BlockKind where
  | layer
  | entries (sec : Line.Section)
  | unknown
  deriving Repr, DecidableEq

def BlockKind.of (cs : List Char) : BlockKind :=
  if (Line.layerHeading? cs).isSome then .layer
  else ((Line.section? cs).map .entries).getD .unknown

def Region.kind : Region → BlockKind
  | .skipped => .unknown
  | .categories => .entries .categories
  | .descriptions => .entries .descriptions
  | .settings => .entries .settings
  | .tapDances => .entries .tapDances
  | _ => .layer

theorem kind_region (sec : Line.Section) : sec.region.kind = .entries sec := by
  cases sec <;> rfl

/-! ### Parts of a content -/

/-- A content with the part of another one that belongs to a kind. -/
def Content.graft (kind : BlockKind) (c d : Content) : Content :=
  match kind with
  | .layer => { d with layers := c.layers, uses := c.uses }
  | .entries .categories => { d with categories := c.categories }
  | .entries .descriptions => { d with descriptions := c.descriptions }
  | .entries .settings => { d with settings := c.settings }
  | .entries .tapDances => { d with tapDances := c.tapDances }
  | .unknown => d

/-- Up to numbers of lines and warnings, `d'` is `d` with the part of `c` that belongs to a kind. -/
def Content.Carries (kind : BlockKind) (d c d' : Content) : Prop :=
  d'.gist = (c.graft kind d).gist

theorem Content.gist_eq_iff {c d : Content} :
    c.gist = d.gist ↔ c.metadata = d.metadata ∧ c.layers = d.layers ∧ c.categories = d.categories ∧
      c.settings = d.settings ∧
      c.tapDances.map TapDanceDraft.gist = d.tapDances.map TapDanceDraft.gist ∧
      c.descriptions.map DescriptionNote.gist = d.descriptions.map DescriptionNote.gist ∧
      c.uses.map CategoryNote.gist = d.uses.map CategoryNote.gist := by
  simp only [Content.gist, Content.mk.injEq, and_true]

open Content (Carries gist_eq_iff)

section Readers

variable {c d d' : Content} {n m : Nat} {cs : List Char}

/-! ### Layers -/

/-- Two states in the same region of a block of a kind, the second one with the part of the first. -/
inductive State.Mirrored (kind : BlockKind) (d : Content) : State → State → Prop where
  | mk {c d' : Content} {region : Region} (hkind : region.kind = kind)
      (hcarries : d.Carries kind c d') :
      Mirrored kind d (.inside c region) (.inside d' region)

/-- The same of what becomes of a line. -/
inductive Step.Mirrored (kind : BlockKind) (d : Content) : Step → Step → Prop where
  | done {s t : State} (h : s.Mirrored kind d t) : Mirrored kind d (.done s) (.done t)
  | again {s t : State} (h : s.Mirrored kind d t) : Mirrored kind d (.again s) (.again t)

theorem Content.Carries.warn {kind : BlockKind} (h : d.Carries kind c d')
    (warnings warnings' : List Warning) :
    d.Carries kind { c with warnings } { d' with warnings := warnings' } := by
  unfold Carries at h ⊢
  rw [gist_eq_iff] at h ⊢
  cases kind with
  | layer => exact h
  | unknown => exact h
  | entries sec => cases sec <;> exact h

theorem mirrors_readRow {indent length : Nat} :
    Mirrors Eq (readRow n indent length cs) (readRow m indent length cs) := by
  unfold readRow
  split
  · exact .of_ok rfl
  · exact .of_error

theorem mirrors_checkCount {cells : List (List Char × Nat)} {columns : Nat} :
    Mirrors Eq (checkCount n cells columns) (checkCount m cells columns) := by
  unfold checkCount
  split
  · exact .of_ok rfl
  · exact .of_error

theorem mirrors_readCells {row col : Nat} {cells : List (List Char × Nat)}
    {keys : List (Position × Key)} {uses uses' : List CategoryNote}
    (huses : uses'.map CategoryNote.gist = uses.map CategoryNote.gist) :
    Mirrors (fun r r' => r'.1 = r.1 ∧ r'.2.map CategoryNote.gist = r.2.map CategoryNote.gist)
      (readCells n row col cells keys uses) (readCells m row col cells keys uses') := by
  induction cells generalizing col keys uses uses' with
  | nil => exact .of_ok ⟨rfl, huses⟩
  | cons cell rest ih =>
    obtain ⟨chars, column⟩ := cell
    unfold readCells
    split
    · exact ih huses
    · cases Cell.read chars with
      | error e => exact .of_error
      | ok cell =>
        dsimp only
        split
        · exact .of_error
        · refine ih ?_
          rw [List.map_append, List.map_append, huses, List.map_map, List.map_map]
          rfl

section Layer

variable (h : d.Carries .layer c d')

include h

theorem Content.Carries.use {uses uses' : List CategoryNote}
    (huses : uses'.map CategoryNote.gist = uses.map CategoryNote.gist) :
    d.Carries .layer { c with uses } { d' with uses := uses' } := by
  obtain ⟨hmetadata, hlayers, hcategories, hsettings, htapDances, hdescriptions, -⟩ :=
    gist_eq_iff.mp h
  exact gist_eq_iff.mpr
    ⟨hmetadata, hlayers, hcategories, hsettings, htapDances, hdescriptions, huses⟩

theorem Content.Carries.uses :
    d'.uses.map CategoryNote.gist = c.uses.map CategoryNote.gist :=
  (gist_eq_iff.mp h).2.2.2.2.2.2

theorem mirrors_closeLayer (draft : Draft) (keys : List (Position × Key)) :
    Mirrors (Carries .layer d) (closeLayer c draft keys) (closeLayer d' draft keys) := by
  obtain ⟨hmetadata, hlayers, hrest⟩ := gist_eq_iff.mp h
  change d'.layers = c.layers at hlayers
  unfold closeLayer
  rw [hlayers]
  dsimp only
  split
  next layer hmake => exact .of_ok (gist_eq_iff.mpr ⟨hmetadata, rfl, hrest⟩)
  next => exact .of_error

theorem mirrors_readProperty (draft : Draft) :
    Mirrors (State.Mirrored .layer d) (readProperty c draft n cs) (readProperty d' draft m cs) := by
  unfold readProperty
  cases Line.property? cs with
  | none => exact .of_error
  | some property =>
    obtain ⟨name, chars⟩ := property
    dsimp only
    cases PropertyName.of name with
    | id =>
      dsimp only
      split
      · exact .of_ok ⟨rfl, h⟩
      · exact .of_error
    | color =>
      dsimp only
      split
      · exact .of_ok ⟨rfl, h⟩
      · exact .of_error
    | category =>
      dsimp only
      split
      · refine .of_ok ⟨rfl, h.use ?_⟩
        rw [List.map_append, List.map_append, h.uses]
        rfl
      · exact .of_error
    | colors => exact .of_ok ⟨rfl, h⟩
    | unknown => exact .of_ok ⟨rfl, h.warn _ _⟩

theorem mirrors_readSeparator (draft : Draft) (columns : Nat) (cells : List (List Char × Nat)) :
    Mirrors (State.Mirrored .layer d) (readSeparator c draft columns n cells)
      (readSeparator d' draft columns m cells) := by
  unfold readSeparator
  split
  · exact .of_error
  · exact mirrors_checkCount.bind fun _ _ _ => .of_ok ⟨rfl, h⟩

theorem mirrors_readKeys (draft : Draft) (columns rows : Nat)
    (keys : List (Position × Key)) (cells : List (List Char × Nat)) :
    Mirrors (State.Mirrored .layer d) (readKeys c draft columns rows n keys cells)
      (readKeys d' draft columns rows m keys cells) := by
  unfold readKeys
  refine mirrors_checkCount.bind fun _ _ _ => (mirrors_readCells h.uses).bind fun r r' hr => ?_
  obtain ⟨keys', uses'⟩ := r
  obtain ⟨keys'', uses''⟩ := r'
  obtain ⟨hkeys, huses⟩ := hr
  cases hkeys
  exact .of_ok ⟨rfl, h.use huses⟩

theorem mirrors_endTable {region : Region} :
    Mirrors (Step.Mirrored .layer d) (endTable c region n) (endTable d' region m) := by
  unfold endTable
  split
  · exact (mirrors_closeLayer h _ _).map fun _ _ hcarries => .again ⟨rfl, hcarries⟩
  · exact .of_error

end Layer

/-! ### Sections -/

theorem mirrors_readCategory (h : d.Carries (.entries .categories) c d') :
    Mirrors (Carries (.entries .categories) d) (readCategory c n cs)
      (readCategory d' m cs) := by
  obtain ⟨hmetadata, hlayers, hcategories, hrest⟩ := gist_eq_iff.mp h
  change d'.categories = c.categories at hcategories
  unfold readCategory
  rw [hcategories]
  split
  · exact .of_error
  · split
    · exact .of_error
    · split
      · exact .of_ok (gist_eq_iff.mpr ⟨hmetadata, hlayers, rfl, hrest⟩)
      · exact .of_error

theorem mirrors_readDigits {digits : List Char} :
    Mirrors Eq (readDigits digits) (readDigits digits) :=
  fun n hn => ⟨n, hn, rfl⟩

theorem mirrors_readDescription (h : d.Carries (.entries .descriptions) c d') :
    Mirrors (Carries (.entries .descriptions) d) (readDescription c n cs)
      (readDescription d' m cs) := by
  obtain ⟨hmetadata, hlayers, hcategories, hsettings, htapDances, hdescriptions, huses⟩ :=
    gist_eq_iff.mp h
  change d'.descriptions.map DescriptionNote.gist = c.descriptions.map DescriptionNote.gist
    at hdescriptions
  unfold readDescription
  split
  · exact .of_error
  next entry _ =>
    refine mirrors_readDigits.bind fun layer _ heq => ?_
    subst heq
    refine mirrors_readDigits.bind fun row _ heq => ?_
    subst heq
    refine mirrors_readDigits.bind fun col _ heq => ?_
    subst heq
    refine .of_ok (gist_eq_iff.mpr
      ⟨hmetadata, hlayers, hcategories, hsettings, htapDances, ?_, huses⟩)
    show (d'.descriptions ++ [_]).map DescriptionNote.gist = (c.descriptions ++ [_]).map _
    rw [List.map_append, List.map_append, hdescriptions]
    rfl

theorem mirrors_readSetting (h : d.Carries (.entries .settings) c d') :
    Mirrors (Carries (.entries .settings) d) (readSetting c n cs) (readSetting d' m cs) := by
  obtain ⟨hmetadata, hlayers, hcategories, hsettings, hrest⟩ := gist_eq_iff.mp h
  change d'.settings = c.settings at hsettings
  unfold readSetting
  rw [hsettings]
  split
  · exact .of_error
  · exact .of_ok (gist_eq_iff.mpr ⟨hmetadata, hlayers, hcategories, rfl, hrest⟩)

theorem mirrors_readAction {drafts drafts' : List TapDanceDraft} {word keycode : String}
    (h : drafts'.map TapDanceDraft.gist = drafts.map TapDanceDraft.gist) :
    Mirrors (fun r r' => r'.map TapDanceDraft.gist = r.map TapDanceDraft.gist)
      (readAction drafts n word keycode) (readAction drafts' m word keycode) := by
  have hlast := congrArg List.getLast? h
  have hinit := congrArg List.dropLast h
  rw [List.getLast?_map, List.getLast?_map] at hlast
  rw [← List.map_dropLast, ← List.map_dropLast] at hinit
  unfold readAction
  cases hdraft : drafts.getLast? with
  | none => exact .of_error
  | some draft =>
    rw [hdraft, Option.map_some, Option.map_eq_some_iff] at hlast
    obtain ⟨draft', hdraft', hgist⟩ := hlast
    obtain ⟨line, name, actions⟩ := draft
    obtain ⟨line', name', actions'⟩ := draft'
    cases hgist
    rw [hdraft']
    dsimp only
    split
    · exact .of_error
    · refine .of_ok ?_
      rw [List.map_append, List.map_append, hinit]
      rfl

theorem mirrors_readTapDance (h : d.Carries (.entries .tapDances) c d') :
    Mirrors (Carries (.entries .tapDances) d) (readTapDance c n cs)
      (readTapDance d' m cs) := by
  obtain ⟨hmetadata, hlayers, hcategories, hsettings, htapDances, hrest⟩ :=
    gist_eq_iff.mp h
  change d'.tapDances.map TapDanceDraft.gist = c.tapDances.map TapDanceDraft.gist at htapDances
  have hput : ∀ drafts drafts', drafts'.map TapDanceDraft.gist = drafts.map TapDanceDraft.gist →
      d.Carries (.entries .tapDances) { c with tapDances := drafts }
        { d' with tapDances := drafts' } := fun drafts drafts' hdrafts =>
    gist_eq_iff.mpr ⟨hmetadata, hlayers, hcategories, hsettings, hdrafts, hrest⟩
  unfold readTapDance
  split
  · exact (mirrors_readAction htapDances).bind fun drafts drafts' hdrafts =>
      .of_ok (hput drafts drafts' hdrafts)
  · split
    · refine .of_ok (hput _ _ ?_)
      rw [List.map_append, List.map_append, htapDances]
      rfl
    · exact .of_error

theorem mirrors_read (sec : Line.Section) (h : d.Carries (.entries sec) c d') :
    Mirrors (Carries (.entries sec) d) (sec.read c n cs) (sec.read d' m cs) := by
  cases sec with
  | categories => exact mirrors_readCategory h
  | descriptions => exact mirrors_readDescription h
  | settings => exact mirrors_readSetting h
  | tapDances => exact mirrors_readTapDance h

/-! ### Lines -/

theorem mirrors_entry (sec : Line.Section) (h : d.Carries (.entries sec) c d') :
    Mirrors (Step.Mirrored (.entries sec) d)
      (continueIn sec.region (if cs.isEmpty then .ok c else sec.read c n cs))
      (continueIn sec.region (if cs.isEmpty then .ok d' else sec.read d' m cs)) := by
  have hread : Mirrors (Carries (.entries sec) d)
      (if cs.isEmpty then .ok c else sec.read c n cs)
      (if cs.isEmpty then .ok d' else sec.read d' m cs) := by
    split
    · exact .of_ok h
    · exact mirrors_read sec h
  exact hread.map fun _ _ hcarries => .done ⟨kind_region sec, hcarries⟩

theorem mirrors_readPlain {region : Region} (h : d.Carries region.kind c d') (indent : Nat) :
    Mirrors (Step.Mirrored region.kind d) (readPlain c region n indent cs)
      (readPlain d' region m indent cs) := by
  cases region with
  | layer draft =>
    unfold readPlain
    dsimp only
    split
    · exact .of_ok (.again ⟨rfl, h⟩)
    · split
      · exact (mirrors_closeLayer h draft []).map fun _ _ hcarries => .done ⟨rfl, hcarries⟩
      · split
        · exact .of_ok (.done ⟨rfl, h⟩)
        · exact (mirrors_readProperty h draft).map fun _ _ hstate => .done hstate
  | body | skipped =>
    unfold readPlain
    dsimp only
    split
    · exact .of_error
    · exact .of_ok (.done ⟨rfl, h⟩)
  | categories => exact mirrors_entry .categories h
  | descriptions => exact mirrors_entry .descriptions h
  | settings => exact mirrors_entry .settings h
  | tapDances => exact mirrors_entry .tapDances h
  | tableHeader | tableSeparator | table => exact .of_ok (.done ⟨rfl, h⟩)

theorem mirrors_readContent {full : List Char} (hplain : Line.isHeading (trim full) = false)
    {region : Region} (h : d.Carries region.kind c d') :
    Mirrors (Step.Mirrored region.kind d) (readContent c region n full)
      (readContent d' region m full) := by
  cases region with
  | tableHeader draft =>
    unfold readContent
    dsimp only
    split
    · refine mirrors_readRow.bind fun cells _ heq => ?_
      subst heq
      exact .of_ok (.done ⟨rfl, h⟩)
    · exact mirrors_endTable h
  | tableSeparator draft columns =>
    unfold readContent
    dsimp only
    split
    · refine mirrors_readRow.bind fun cells _ heq => ?_
      subst heq
      exact (mirrors_readSeparator h draft columns cells).bind fun _ _ hstate => .of_ok (.done hstate)
    · exact mirrors_endTable h
  | table draft columns rows keys =>
    unfold readContent
    dsimp only
    split
    · refine mirrors_readRow.bind fun cells _ heq => ?_
      subst heq
      exact (mirrors_readKeys h draft columns rows keys cells).bind fun _ _ hstate =>
        .of_ok (.done hstate)
    · exact mirrors_endTable h
  | layer | body | skipped | categories | descriptions | settings | tapDances =>
    unfold readContent
    dsimp only
    rw [hplain]
    exact mirrors_readPlain h (full.length - (trimLeft full).length)

end Readers

/-! ### Runs over the lines of a block -/

section Runs

variable {kind : BlockKind} {d : Content} {s t : State} {n m : Nat}

/-- A line that is no heading stays in the block. -/
theorem mirrors_readLine {full : List Char} (hplain : Line.isHeading (trim full) = false)
    (h : s.Mirrored kind d t) :
    Mirrors (State.Mirrored kind d) (readLine limits now n full s)
      (readLine limits now m full t) := by
  -- by the number of times that the line can still be seen again
  induction hrank : s.rank using Nat.strongRecOn generalizing s t with
  | ind rank ih =>
    obtain ⟨hkind, hcarries⟩ := h
    rename_i c d' region
    subst hkind
    have hstep := mirrors_readContent (n := n) (m := m) hplain hcarries
    intro u hu
    cases hconsume : consume limits now n full (.inside c region) with
    | error e =>
      rw [readLine_of_error hconsume] at hu
      cases hu
    | ok step =>
      obtain ⟨step', hconsume', hmirrored⟩ := hstep step hconsume
      cases hmirrored with
      | done hstate =>
        rw [readLine_of_done hconsume] at hu
        cases hu
        exact ⟨_, readLine_of_done hconsume', hstate⟩
      | again hstate =>
        rw [readLine_of_again hconsume] at hu
        have hlt := (seenAgain_of_consume hconsume).rank_lt
        rw [hrank] at hlt
        obtain ⟨u', hu', hmatch⟩ := ih _ hlt hstate rfl u hu
        have hagain : readLine limits now m full (.inside d' region) = readLine limits now m full _ :=
          readLine_of_again hconsume'
        exact ⟨u', hagain.trans hu', hmatch⟩

theorem mirrors_readLines {lines : List (List Char)}
    (hplain : ∀ full ∈ lines, Line.isHeading (trim full) = false) (h : s.Mirrored kind d t) :
    Mirrors (State.Mirrored kind d) (readLines limits now n lines s).result
      (readLines limits now m lines t).result := by
  induction lines generalizing n m s t with
  | nil => exact .of_ok h
  | cons full rest ih =>
    rw [result_readLines_cons, result_readLines_cons]
    refine (mirrors_readLine (hplain full List.mem_cons_self) h).bind fun s' t' hstate => ?_
    exact ih (List.forall_mem_cons.mp hplain).2 hstate

theorem mirrors_finishContent (h : s.Mirrored kind d t) :
    Mirrors (Carries kind d) (finishContent n s) (finishContent m t) := by
  obtain ⟨hkind, hcarries⟩ := h
  rename_i c d' region
  subst hkind
  cases region with
  | tableHeader | tableSeparator => exact .of_error
  | layer draft => exact mirrors_closeLayer hcarries draft []
  | table draft columns rows keys => exact mirrors_closeLayer hcarries draft keys
  | body | skipped | categories | descriptions | settings | tapDances => exact .of_ok hcarries

theorem mirrors_openRegion {c d' : Content} {cs : List Char} (h : d.Carries (.of cs) c d') :
    Mirrors (fun r r' => r' = r ∧ r.kind = .of cs) (openRegion c n cs) (openRegion d' m cs) := by
  unfold openRegion
  cases hheading : Line.layerHeading? cs with
  | some heading =>
    obtain ⟨digits, name⟩ := heading
    have hkind : BlockKind.of cs = .layer := by
      unfold BlockKind.of
      rw [hheading]
      rfl
    rw [hkind] at h ⊢
    have hlayers : d'.layers = c.layers := (gist_eq_iff.mp h).2.1
    refine mirrors_readDigits.bind fun number _ heq => ?_
    subst heq
    rw [hlayers]
    split
    · exact .of_ok ⟨rfl, rfl⟩
    · exact .of_error
  | none =>
    have hkind : BlockKind.of cs = ((Line.section? cs).map .entries).getD .unknown := by
      unfold BlockKind.of
      rw [hheading]
      rfl
    rw [hkind]
    cases Line.section? cs with
    | none => exact .of_ok ⟨rfl, rfl⟩
    | some sec => cases sec <;> exact .of_ok ⟨rfl, rfl⟩

end Runs

end Keyforge.Document
