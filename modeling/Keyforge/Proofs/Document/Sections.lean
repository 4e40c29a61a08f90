import Keyforge.Proofs.Document.Block

/-!
# Reading sections back

The sections of a legible layout are read back entry by entry.
-/

namespace Keyforge.Document

open Keyforge.Text Line

variable {limits : Limits} {now : Time.Stamp} {c : Content} {category : Category}

/-! ### Entries -/

theorem isHeading_eq_false {cs : List Char} (h : cs.head? ≠ some '#') : isHeading cs = false := by
  rw [Bool.eq_false_iff]
  intro hheading
  obtain ⟨rest, rfl⟩ := List.isPrefixOf_iff_prefix.mp hheading
  exact h rfl

theorem readLine_section {full : List Char} {first : Char} (hfirst : first = '-' ∨ first = '*')
    (h : (trim full).head? = some first) (sec : Line.Section) (c : Content) (line : Nat) :
    readLine limits now line full (.inside c sec.region) =
      (sec.read c line (trim full)).map fun c => .inside c sec.region := by
  refine readLine_entry (isHeading_eq_false ?_) ?_ sec c
  · rw [h]
    rcases hfirst with rfl | rfl <;> decide
  · intro hnil
    rw [hnil] at h
    cases h

def titleOf : Line.Section → String
  | .categories => "Categories"
  | .descriptions => "Key Descriptions"
  | .settings => "Settings"
  | .tapDances => "Tap Dances"

theorem openRegion_title (sec : Line.Section) (c : Content) (line : Nat) :
    isHeading (trim ("## " ++ titleOf sec).toList) = true ∧
      openRegion c line (trim ("## " ++ titleOf sec).toList) = .ok sec.region := by
  have htitle : isHeading (trim ("## " ++ titleOf sec).toList) = true ∧
      Line.layerHeading? (trim ("## " ++ titleOf sec).toList) = none ∧
      Line.section? (trim ("## " ++ titleOf sec).toList) = some sec := by
    cases sec <;> decide
  obtain ⟨hheading, hlayer, hsection⟩ := htitle
  refine ⟨hheading, ?_⟩
  rw [openRegion, hlayer, hsection]
  cases sec <;> rfl

theorem settles_region (c : Content) (sec : Line.Section) : Settles (.inside c sec.region) c := by
  intro count
  cases sec <;> rfl

theorem readLine_blank_region (c : Content) (sec : Line.Section) (line : Nat) :
    readLine limits now line "".toList (.inside c sec.region) = .ok (.inside c sec.region) := by
  rw [readLine_blank rfl]
  cases sec <;> rfl

theorem reads_title {s : State} (hs : Settles s c) (sec : Line.Section) :
    Reads limits now (["## " ++ titleOf sec, ""].map String.toList) s (· = .inside c sec.region) := by
  refine Reads.cons (Q := (· = .inside c sec.region)) (fun line => ?_) ?_
  · obtain ⟨hheading, hopen⟩ := openRegion_title sec c line
    exact ⟨_, by rw [hs.heading hheading, hopen]; rfl, rfl⟩
  rintro _ rfl
  exact Reads.single fun line => ⟨_, readLine_blank_region c sec line, rfl⟩

theorem reads_sectionLines (sec : Line.Section) {entries : List String} {s : State} {c : Content}
    (hs : Settles s c) {P : Content → Prop} (hnil : entries = [] → P c)
    (h : Reads limits now (entries.map String.toList) (.inside c sec.region) fun t =>
      ∃ c', t = .inside c' sec.region ∧ P c') :
    Reads limits now ((sectionLines (titleOf sec) entries).map String.toList) s fun t =>
      ∃ c', Settles t c' ∧ P c' := by
  rw [sectionLines]
  split
  next hempty => exact Reads.nil ⟨c, hs, hnil (List.isEmpty_iff.mp hempty)⟩
  next =>
    rw [List.map_append, List.map_append, List.append_assoc]
    refine (reads_title hs sec).append ?_
    rintro _ rfl
    refine h.append ?_
    rintro _ ⟨c', rfl, hP⟩
    exact Reads.single fun line =>
      ⟨_, readLine_blank_region c' sec line, c', settles_region c' sec, hP⟩

theorem exists_readLines_entries (sec : Line.Section) {entries : List String} {s u : State}
    {c : Content} (hs : Settles s c) {line : Nat}
    (hread : (readLines limits now line
      ((sectionLines (titleOf sec) entries).map String.toList) s).result = .ok u) :
    ∃ line t, (readLines limits now line (entries.map String.toList)
      (.inside c sec.region)).result = .ok t := by
  rw [sectionLines] at hread
  split at hread
  next hempty =>
    rw [List.isEmpty_iff.mp hempty]
    exact ⟨0, _, rfl⟩
  next =>
    rw [List.map_append, List.map_append, List.append_assoc] at hread
    obtain ⟨_, line, rfl, hentries⟩ := (reads_title hs sec).of_append hread
    obtain ⟨t, ht, -⟩ := readLines_append_eq_ok_iff.mp hentries
    exact ⟨line, t, ht⟩

/-! ### Categories -/

section CategoryLine

variable (h : category.Legible)

include h

theorem toList_categoryLine :
    (categoryLine category).toList =
      ['-', ' '] ++ category.id.toList ++ [':', ' '] ++ category.name.toList ++
        categoryEnd category.color category.description? := by
  have hempty : category.description? ≠ some "" := fun hd => (h.description "" hd).ne_nil rfl
  rw [categoryLine]
  split
  next hd => simp [hd, categoryEnd, dashed, Color.hex]
  next hd => exact absurd hd hempty
  next text hd => simp [hd, categoryEnd, dashed, Color.hex]

theorem trim_categoryLine :
    trim (categoryLine category).toList = (categoryLine category).toList := by
  rw [toList_categoryLine h]
  refine trim_eq_self (Trimmed.append ?_ ?_ (by simp) (by simp [categoryEnd]))
  · intro c hc
    cases hc
    decide
  · intro c hc
    cases hd : category.description? with
    | none =>
      have hend : categoryEnd category.color none =
          (' ' :: '(' :: category.color.hexChars) ++ [')'] := by
        simp [categoryEnd, dashed]
      rw [hd, hend, List.getLast?_concat] at hc
      cases hc
      decide
    | some text =>
      have hend : categoryEnd category.color (some text) =
          (' ' :: '(' :: (category.color.hexChars ++ [')', ' ', '-', ' '])) ++ text.toList := by
        simp [categoryEnd, dashed]
      have htext := h.description text hd
      rw [hd, hend, List.getLast?_append_of_ne_nil _ htext.ne_nil] at hc
      exact htext.trimmed.last c hc

theorem readCategory_line (c : Content) (line : Nat) :
    readCategory c line (trim (categoryLine category).toList) =
      if category.id ∈ c.categories.map (·.id) then
        .error (problemAt (.repeatedCategory category.id) line)
      else .ok { c with categories := c.categories ++ [category] } := by
  have hany : c.categories.any (·.id == category.id) = true ↔
      category.id ∈ c.categories.map (·.id) := by simp
  have hmake : Category.make category.id category.name category.color category.description? =
      .ok category := by
    have hstrip := strip_eq_self h.name.trimmed
    refine Category.make_eq_ok_iff.mpr ⟨h.id, ?_, ?_, ?_⟩ <;> rw [hstrip]
    · intro hnil
      exact h.name.ne_nil (by rw [hnil]; rfl)
    · exact h.short
  rw [trim_categoryLine h, readCategory, toList_categoryLine h,
    category?_line _ h.id h.name h.unsplit h.description]
  simp only [String.ofList_toList, hmake, hany]

theorem readLine_categoryLine (c : Content) (line : Nat) :
    readLine limits now line (categoryLine category).toList (.inside c .categories) =
      if category.id ∈ c.categories.map (·.id) then
        .error (problemAt (.repeatedCategory category.id) line)
      else .ok (.inside { c with categories := c.categories ++ [category] } .categories) := by
  have hhead : (trim (categoryLine category).toList).head? = some '-' := by
    rw [trim_categoryLine h, toList_categoryLine h]
    rfl
  refine (readLine_section (.inl rfl) hhead .categories c line).trans ?_
  rw [Line.Section.read, readCategory_line h]
  split <;> rfl

end CategoryLine

/-- No two categories of two lists share an id. -/
def Apart (taken categories : List Category) : Prop :=
  ∀ category ∈ taken, category.id ∉ categories.map (·.id)

theorem reads_categories {categories : List Category}
    (h : ∀ category ∈ categories, category.Legible) (hnodup : (categories.map (·.id)).Nodup)
    (hfree : Apart c.categories categories) :
    Reads limits now ((categories.map categoryLine).map String.toList) (.inside c .categories)
      (· = .inside { c with categories := c.categories ++ categories } .categories) := by
  induction categories generalizing c with
  | nil => exact Reads.nil (by rw [List.append_nil])
  | cons category categories ih =>
    rw [List.map_cons, List.nodup_cons] at hnodup
    have hnot : category.id ∉ c.categories.map (·.id) := by
      intro hmem
      obtain ⟨other, hother, heq⟩ := List.mem_map.mp hmem
      exact hfree other hother (heq ▸ List.mem_cons_self)
    refine Reads.cons (Q := (· = .inside { c with categories := c.categories ++ [category] }
      .categories)) (fun line => ?_) ?_
    · rw [readLine_categoryLine (h category List.mem_cons_self), if_neg hnot]
      exact ⟨_, rfl, rfl⟩
    rintro _ rfl
    refine (ih (List.forall_mem_cons.mp h).2 hnodup.2 ?_).mono ?_
    · exact forall_mem_concat.mpr
        ⟨fun other hother hmem => hfree other hother (List.mem_cons_of_mem _ hmem), hnodup.1⟩
    · rintro _ rfl
      rw [List.append_assoc, List.singleton_append]

theorem notMem_of_categories {categories : List Category}
    (h : ∀ category ∈ categories, category.Legible) {c : Content} {line : Nat} {s : State}
    (hread : (readLines limits now line ((categories.map categoryLine).map String.toList)
      (.inside c .categories)).result = .ok s) :
    Apart c.categories categories := by
  induction categories generalizing c line with
  | nil => exact fun category _ => List.not_mem_nil
  | cons category categories ih =>
    obtain ⟨t, ht, hrest⟩ := readLines_cons_eq_ok_iff.mp hread
    rw [readLine_categoryLine (h category List.mem_cons_self)] at ht
    split at ht
    next => cases ht
    next hnot =>
      cases ht
      have hothers := ih (List.forall_mem_cons.mp h).2 hrest
      intro other hother hmem
      rcases List.mem_cons.mp hmem with heq | hmem
      · exact hnot (List.mem_map.mpr ⟨other, hother, heq⟩)
      · exact hothers other (List.mem_append_left _ hother) hmem

/-! ### Key descriptions -/

def noteLine (note : DescriptionNote) : String :=
  "- " ++ intText note.layer ++ ":" ++ intText note.position.row ++ ":" ++
    intText note.position.col ++ ": " ++ note.text

structure DescriptionNote.Legible (note : DescriptionNote) : Prop where
  layer : Number.Short note.layer
  row : 0 ≤ note.position.row ∧ Number.Short note.position.row.toNat
  col : 0 ≤ note.position.col ∧ Number.Short note.position.col.toNat
  text : Phrase note.text.toList

theorem legible_of_mem_notes {l : Layout} (h : l.Legible) {note : DescriptionNote}
    (hnote : note ∈ l.layers.flatMap Layer.notes) : note.Legible := by
  obtain ⟨layer, hlayer, hnote⟩ := List.mem_flatMap.mp hnote
  obtain ⟨⟨p, key⟩, hkey, hfound⟩ := List.mem_filterMap.mp hnote
  obtain ⟨text, htext, rfl⟩ := Option.map_eq_some_iff.mp hfound
  obtain ⟨hphrase, hrow, hcol⟩ := h.described layer hlayer p key hkey text htext
  obtain ⟨rfl, hrow', hcol'⟩ := (h.layers layer hlayer).tabular.placed p key hkey
  exact ⟨(h.layers layer hlayer).index.2, ⟨hrow', hrow⟩, ⟨hcol', hcol⟩, hphrase⟩

theorem descriptionLine?_eq {layer : Layer} (hlayer : layer.Legible) {key : Key}
    (h : key.Described) :
    descriptionLine? layer key = (key.note? layer.index.toNat).map noteLine := by
  have hempty : key.description? ≠ some "" := fun hd => (h "" hd).1.ne_nil rfl
  have hindex : ((layer.index.toNat : Nat) : Int) = layer.index := Int.toNat_of_nonneg hlayer.index.1
  rw [descriptionLine?]
  split
  next hd => simp [Key.note?, hd]
  next hd => exact absurd hd hempty
  next text hd => simp [Key.note?, hd, noteLine, hindex]

theorem descriptionLines_eq {l : Layout} (h : l.Legible) :
    descriptionLines l = (l.layers.flatMap Layer.notes).map noteLine := by
  rw [descriptionLines, List.map_flatMap]
  refine List.flatMap_congr fun layer hlayer => ?_
  rw [Layer.notes, List.map_filterMap]
  refine List.filterMap_congr ?_
  rintro ⟨p, key⟩ hkey
  exact descriptionLine?_eq (h.layers layer hlayer) (h.described layer hlayer p key hkey)

theorem toList_noteLine {note : DescriptionNote} (h : note.Legible) :
    (noteLine note).toList =
      ['-', ' '] ++ Nat.toDigits 10 note.layer ++ [':'] ++ Nat.toDigits 10 note.position.row.toNat ++
        [':'] ++ Nat.toDigits 10 note.position.col.toNat ++ ':' :: ' ' :: note.text.toList := by
  simp [noteLine, toList_intText, h.row.1, h.col.1]

theorem trim_noteLine {note : DescriptionNote} (h : note.Legible) :
    trim (noteLine note).toList = (noteLine note).toList := by
  have hends := toList_noteLine h
  rw [List.append_cons, List.append_cons] at hends
  rw [hends]
  refine trim_eq_self (Trimmed.append ?_ h.text.trimmed.last (by simp) h.text.ne_nil)
  intro c hc
  cases hc
  decide

theorem readLine_noteLine {note : DescriptionNote} (h : note.Legible) (c : Content) (line : Nat) :
    readLine limits now line (noteLine note).toList (.inside c .descriptions) =
      .ok (.inside { c with descriptions := c.descriptions ++ [{ note with line }] }
        .descriptions) := by
  have hhead : (trim (noteLine note).toList).head? = some '-' := by
    rw [trim_noteLine h, toList_noteLine h]
    rfl
  refine (readLine_section (.inl rfl) hhead .descriptions c line).trans ?_
  rw [trim_noteLine h, toList_noteLine h, Line.Section.read, readDescription,
    description?_line _ _ _ h.text.trimmed]
  have hposition : (⟨(note.position.row.toNat : Nat), (note.position.col.toNat : Nat)⟩ : Position) =
      note.position := by
    rw [Int.toNat_of_nonneg h.row.1, Int.toNat_of_nonneg h.col.1]
  simp only [readDigits_eq_ok_iff.mpr (Number.ofDigits_toDigits h.layer),
    readDigits_eq_ok_iff.mpr (Number.ofDigits_toDigits h.row.2),
    readDigits_eq_ok_iff.mpr (Number.ofDigits_toDigits h.col.2), String.ofList_toList, hposition, bind,
    Except.bind]
  rfl

theorem reads_notes {notes : List DescriptionNote} (h : ∀ note ∈ notes, note.Legible)
    (c : Content) :
    Reads limits now ((notes.map noteLine).map String.toList) (.inside c .descriptions) fun t =>
      ∃ c', t = .inside c' .descriptions ∧ c'.gist =
        { c.gist with descriptions := c.gist.descriptions ++ notes.map DescriptionNote.gist } := by
  induction notes generalizing c with
  | nil => exact Reads.nil ⟨c, rfl, by rw [List.map_nil, List.append_nil]⟩
  | cons note notes ih =>
    refine Reads.cons (Q := fun t => ∃ line, t = .inside { c with
      descriptions := c.descriptions ++ [{ note with line }] } .descriptions) (fun line => ?_) ?_
    · exact ⟨_, readLine_noteLine (h note List.mem_cons_self) c line, line, rfl⟩
    rintro _ ⟨line, rfl⟩
    refine (ih (List.forall_mem_cons.mp h).2 _).mono ?_
    rintro _ ⟨c', rfl, hgist⟩
    refine ⟨c', rfl, hgist.trans ?_⟩
    simp [Content.gist, DescriptionNote.gist]

/-! ### Tap dances -/

def actionLine (word keycode : String) : String := "  - " ++ word ++ ": " ++ keycode

theorem readLine_actionLine {word keycode : String} (hword : word ∈ writtenWords)
    (hkeycode : Phrase keycode.toList) (c : Content) {drafts : List TapDanceDraft}
    {draft : TapDanceDraft} (hc : c.tapDances = drafts ++ [draft])
    (hnew : Pairs.has (actionKey word) draft.actions = false) (line : Nat) :
    readLine limits now line (actionLine word keycode).toList (.inside c .tapDances) =
      .ok (.inside { c with tapDances := drafts ++
        [{ draft with actions := draft.actions ++ [(actionKey word, keycode)] }] } .tapDances) := by
  have htrim : trim (actionLine word keycode).toList =
      ['-', ' '] ++ word.toList ++ ':' :: ' ' :: keycode.toList := by
    have hlist : (actionLine word keycode).toList =
        ' ' :: ' ' :: (['-', ' '] ++ word.toList ++ [':', ' '] ++ keycode.toList) := by
      simp [actionLine]
    rw [hlist, trim_blank_cons (by decide), trim_blank_cons (by decide), trim_eq_self]
    · simp
    · refine Trimmed.append ?_ hkeycode.trimmed.last (by simp) hkeycode.ne_nil
      intro c hc
      cases hc
      decide
  have hhead : (trim (actionLine word keycode).toList).head? = some '-' := by
    rw [htrim]
    rfl
  refine (readLine_section (.inl rfl) hhead .tapDances c line).trans ?_
  rw [htrim, Line.Section.read, readTapDance, action?_line hword hkeycode]
  simp only [readAction, hc, List.getLast?_concat, hnew, List.dropLast_concat, String.ofList_toList]
  rfl

theorem readLine_tapDanceName {name : String} (hname : Name.isTapDanceName name.toList = true)
    (c : Content) (line : Nat) :
    readLine limits now line ("- **" ++ name ++ "**:").toList (.inside c .tapDances) =
      .ok (.inside { c with tapDances := c.tapDances ++ [{ line, name }] } .tapDances) := by
  have hlist : ("- **" ++ name ++ "**:").toList =
      ['-', ' ', '*', '*'] ++ name.toList ++ ['*', '*', ':'] := by simp
  have htrim : trim ("- **" ++ name ++ "**:").toList =
      ['-', ' ', '*', '*'] ++ name.toList ++ ['*', '*', ':'] := by
    rw [hlist]
    refine trim_eq_self (Trimmed.append ?_ (fun d hd => by cases hd; decide) (by simp) (by simp))
    intro c hc
    cases hc
    decide
  have hhead : (trim ("- **" ++ name ++ "**:").toList).head? = some '-' := by
    rw [htrim]
    rfl
  have haction : action? (['-', ' ', '*', '*'] ++ name.toList ++ ['*', '*', ':']) = none := by
    rw [List.append_assoc]
    exact action?_name _
  refine (readLine_section (.inl rfl) hhead .tapDances c line).trans ?_
  rw [htrim, Line.Section.read, readTapDance, haction, tapDance?_line hname]
  simp only [String.ofList_toList]
  rfl

/-- An action as it is kept, by the key of its word. -/
def keyed (action : String × String) : String × String := (actionKey action.1, action.2)

theorem reads_actions {actions : List (String × String)}
    (h : ∀ action ∈ actions, action.1 ∈ writtenWords ∧ Phrase action.2.toList) (c : Content)
    {drafts : List TapDanceDraft} {draft : TapDanceDraft} (hc : c.tapDances = drafts ++ [draft])
    (hnodup : ((draft.actions ++ actions.map keyed).map Prod.fst).Nodup) :
    Reads limits now ((actions.map fun action => actionLine action.1 action.2).map String.toList)
      (.inside c .tapDances)
      (· = .inside { c with tapDances := drafts ++
        [{ draft with actions := draft.actions ++ actions.map keyed }] } .tapDances) := by
  induction actions generalizing c draft with
  | nil => exact Reads.nil (by rw [List.map_nil, List.append_nil, ← hc])
  | cons action actions ih =>
    obtain ⟨hword, hcode⟩ := h action List.mem_cons_self
    have hnew : Pairs.has (actionKey action.1) draft.actions = false := by
      rw [Pairs.has, List.any_eq_false]
      rintro ⟨name, code⟩ hmem heq
      rw [List.map_append, List.nodup_append] at hnodup
      exact hnodup.2.2 name (List.mem_map.mpr ⟨_, hmem, rfl⟩) _ List.mem_cons_self
        (beq_iff_eq.mp heq)
    refine Reads.cons (fun line => ⟨_, readLine_actionLine hword hcode c hc hnew line, rfl⟩) ?_
    rintro _ rfl
    rw [List.map_cons, List.append_cons] at hnodup
    refine (ih (List.forall_mem_cons.mp h).2
      { c with tapDances := drafts ++
        [{ draft with actions := draft.actions ++ [keyed action] }] } rfl hnodup).mono ?_
    rintro _ rfl
    rw [List.map_cons, List.append_assoc, List.singleton_append]

def writtenActions (t : TapDance) : List (String × String) :=
  ("Single Tap", t.single) ::
    ((t.double?.toList.map fun code => ("Double Tap", code)) ++
      t.hold?.toList.map fun code => ("Hold", code))

theorem tapDanceLines_eq (t : TapDance) :
    tapDanceLines t = ("- **" ++ t.name ++ "**:") ::
      (writtenActions t).map fun action => actionLine action.1 action.2 := by
  have hline : ∀ (label word code : String), label = "  - " ++ word ++ ": " →
      label ++ code = actionLine word code := by
    rintro _ word code rfl
    rfl
  have hsingle := fun code => hline "  - Single Tap: " "Single Tap" code (by decide)
  have hdouble := fun code => hline "  - Double Tap: " "Double Tap" code (by decide)
  have hhold := fun code => hline "  - Hold: " "Hold" code (by decide)
  simp [tapDanceLines, writtenActions, hsingle, hdouble, hhold, Function.comp_def]

theorem actions_draft (t : TapDance) : t.draft.actions = (writtenActions t).map keyed := by
  have hsingle : actionKey "Single Tap" = "single_tap" := by decide
  have hdouble : actionKey "Double Tap" = "double_tap" := by decide
  have hhold : actionKey "Hold" = "hold" := by decide
  simp [TapDance.draft, writtenActions, keyed, hsingle, hdouble, hhold, Function.comp_def]

theorem nodup_actions_draft (t : TapDance) : (t.draft.actions.map Prod.fst).Nodup := by
  obtain ⟨name, single, double?, hold?⟩ := t
  cases double? <;> cases hold? <;> simp [TapDance.draft]

theorem mem_writtenActions {t : TapDance} (h : t.Legible) {action : String × String}
    (hmem : action ∈ writtenActions t) : action.1 ∈ writtenWords ∧ Phrase action.2.toList := by
  have hwords : "Single Tap" ∈ writtenWords ∧ "Double Tap" ∈ writtenWords ∧
      "Hold" ∈ writtenWords := by decide
  simp only [writtenActions, List.mem_cons, List.mem_append, List.mem_map, Option.mem_toList] at hmem
  rcases hmem with rfl | ⟨code, hcode, rfl⟩ | ⟨code, hcode, rfl⟩
  · exact ⟨hwords.1, h.keycodes _ List.mem_cons_self⟩
  · exact ⟨hwords.2.1, h.keycodes code (by simp [TapDance.keycodes, Option.mem_def.mp hcode])⟩
  · exact ⟨hwords.2.2, h.keycodes code (by simp [TapDance.keycodes, Option.mem_def.mp hcode])⟩

theorem reads_tapDanceLines {t : TapDance} (h : t.Legible) (c : Content) :
    Reads limits now ((tapDanceLines t).map String.toList) (.inside c .tapDances) fun s =>
      ∃ line, s = .inside { c with tapDances := c.tapDances ++ [{ t.draft with line }] }
        .tapDances := by
  rw [tapDanceLines_eq, List.map_cons]
  refine Reads.cons (Q := fun s => ∃ line, s = .inside { c with
    tapDances := c.tapDances ++ [{ line, name := t.name }] } .tapDances) (fun line => ?_) ?_
  · exact ⟨_, readLine_tapDanceName h.name c line, line, rfl⟩
  rintro _ ⟨line, rfl⟩
  refine (reads_actions (fun action => mem_writtenActions h) _ rfl ?_).mono ?_
  · rw [List.nil_append, ← actions_draft]
    exact nodup_actions_draft t
  · rintro _ rfl
    exact ⟨line, by rw [List.nil_append, ← actions_draft]; rfl⟩

theorem reads_tapDances {ts : List TapDance} (h : ∀ t ∈ ts, t.Legible) (c : Content) :
    Reads limits now ((ts.flatMap tapDanceLines).map String.toList) (.inside c .tapDances) fun s =>
      ∃ c', s = .inside c' .tapDances ∧ c'.gist =
        { c.gist with tapDances := c.gist.tapDances ++ ts.map TapDance.draft } := by
  induction ts generalizing c with
  | nil => exact Reads.nil ⟨c, rfl, by rw [List.map_nil, List.append_nil]⟩
  | cons t ts ih =>
    rw [List.flatMap_cons, List.map_append]
    refine (reads_tapDanceLines (h t List.mem_cons_self) c).append ?_
    rintro _ ⟨line, rfl⟩
    refine (ih (List.forall_mem_cons.mp h).2 _).mono ?_
    rintro _ ⟨c', rfl, hgist⟩
    refine ⟨c', rfl, hgist.trans ?_⟩
    simp [Content.gist, TapDanceDraft.gist, TapDance.draft]

/-! ### Settings -/

/-- A setting whose line is read as some setting: one with an empty name needs another mark for the
end of a name in its value. -/
def Readable (setting : String × String) : Prop :=
  setting.1 = "" → ['*', '*', ':'] <:+: setting.2.toList

section Setting

variable {setting : String × String} (h : LegibleSetting setting)

include h

theorem property?_settingLine (hne : setting.1 ≠ "") :
    property? (trim (settingLine setting).toList) =
      some (setting.1.toList, setting.2.toList) := by
  have hne' : setting.1.toList ≠ [] := by simpa [String.toList_eq_nil_iff] using hne
  rw [show settingLine setting = propertyLine setting.1 setting.2 from rfl, toList_propertyLine]
  exact property?_line hne' h.boldFree h.trimmed.2

theorem isSome_property?_settingLine_iff :
    (property? (trim (settingLine setting).toList)).isSome = true ↔ Readable setting := by
  by_cases hne : setting.1 = ""
  · have hline : (settingLine setting).toList =
        ['*', '*', '*', '*'] ++ ':' :: ' ' :: setting.2.toList := by
      rw [show settingLine setting = propertyLine setting.1 setting.2 from rfl, toList_propertyLine, hne]
      rfl
    rw [hline, isSome_property?_iff h.trimmed.2]
    exact ⟨fun hmark _ => hmark, fun hmark => hmark hne⟩
  · rw [property?_settingLine h hne]
    exact ⟨fun _ hnil => absurd hnil hne, fun _ => rfl⟩

theorem readLine_settingLine (c : Content) (line : Nat) :
    readLine limits now line (settingLine setting).toList (.inside c .settings) =
      (readSetting c line (trim (settingLine setting).toList)).map fun c => .inside c .settings :=
  readLine_section (.inr rfl) (head_propertyLine setting.1 h.trimmed.2) .settings c line

theorem exists_readSetting (hreadable : Readable setting) (c : Content) (line : Nat) :
    ∃ settings, readSetting c line (trim (settingLine setting).toList) = .ok { c with settings } ∧
      (setting.1 ≠ "" → settings = Pairs.put setting.1 setting.2 c.settings) := by
  obtain ⟨⟨name, value⟩, hfound⟩ :=
    Option.isSome_iff_exists.mp ((isSome_property?_settingLine_iff h).mpr hreadable)
  rw [readSetting, hfound]
  refine ⟨_, rfl, fun hne => ?_⟩
  rw [property?_settingLine h hne] at hfound
  cases hfound
  rw [trim_eq_self h.trimmed.1, String.ofList_toList, String.ofList_toList]

end Setting

theorem reads_settings {settings : List (String × String)}
    (h : ∀ setting ∈ settings, LegibleSetting setting)
    (hreadable : ∀ setting ∈ settings, Readable setting) (c : Content) :
    Reads limits now ((settings.map settingLine).map String.toList) (.inside c .settings) fun t =>
      ∃ found, t = .inside { c with settings := found } .settings ∧
        ((∀ setting ∈ settings, setting.1 ≠ "") → found = Pairs.putAll c.settings settings) := by
  induction settings generalizing c with
  | nil => exact Reads.nil ⟨c.settings, rfl, fun _ => rfl⟩
  | cons setting settings ih =>
    have hsetting := h setting List.mem_cons_self
    refine Reads.cons (Q := fun t => ∃ found, t = .inside { c with settings := found } .settings ∧
      (setting.1 ≠ "" → found = Pairs.put setting.1 setting.2 c.settings)) (fun line => ?_) ?_
    · obtain ⟨found, hfound, hput⟩ :=
        exists_readSetting hsetting (hreadable setting List.mem_cons_self) c line
      exact ⟨_, by rw [readLine_settingLine hsetting, hfound]; rfl, found, rfl, hput⟩
    rintro _ ⟨found, rfl, hput⟩
    refine (ih (List.forall_mem_cons.mp h).2
      (List.forall_mem_cons.mp hreadable).2 _).mono ?_
    rintro _ ⟨all, rfl, hall⟩
    refine ⟨all, rfl, fun hne => ?_⟩
    rw [hall (List.forall_mem_cons.mp hne).2,
      hput (hne setting List.mem_cons_self)]
    rfl

theorem readable_of_settings {settings : List (String × String)}
    (h : ∀ setting ∈ settings, LegibleSetting setting) {line : Nat} {s : State}
    (hread : (readLines limits now line ((settings.map settingLine).map String.toList)
      (.inside c .settings)).result = .ok s) :
    ∀ setting ∈ settings, Readable setting := by
  induction settings generalizing c line with
  | nil => exact List.forall_mem_nil _
  | cons setting settings ih =>
    have hsetting := h setting List.mem_cons_self
    obtain ⟨t, ht, hrest⟩ := readLines_cons_eq_ok_iff.mp hread
    rw [readLine_settingLine hsetting, map_eq_ok_iff] at ht
    obtain ⟨c', hc', rfl⟩ := ht
    intro other hother
    rcases List.mem_cons.mp hother with rfl | hother
    · refine (isSome_property?_settingLine_iff hsetting).mp ?_
      rw [readSetting] at hc'
      split at hc'
      next => cases hc'
      next hfound => rw [hfound]; rfl
    · exact ih (List.forall_mem_cons.mp h).2 hrest other hother

end Keyforge.Document
