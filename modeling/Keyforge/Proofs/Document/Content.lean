import Keyforge.Proofs.Document.Describe

/-!
# What a document's content makes

Numbers of lines and warnings do not count for the layout that a content makes (`gives_gist`). A
layout is added to a content as its document would be (`Content.extend`).
-/

namespace Keyforge

open Keyforge.Document

/-! ### Categories of layers -/

theorem Layer.categoryIds_bare (layer : Layer) : layer.bare.categoryIds = layer.categoryIds := by
  simp only [Layer.categoryIds, Layer.bare, List.filterMap_map]
  rfl

theorem Layer.categoryIds_noted (notes : List DescriptionNote) (place : Nat) (layer : Layer) :
    (Layer.noted notes place layer).categoryIds = layer.categoryIds := by
  simp only [Layer.categoryIds, Layer.noted, List.filterMap_map]
  congr 2
  funext pair
  obtain ⟨description?, hfold, -⟩ := Key.exists_foldl_noted notes place pair.1 pair.2
  exact (congrArg Key.category? hfold :)

theorem Layout.Fits.withLayers {l l' : Layout} (h : l.Fits) {f : Nat → Layer → Layer}
    (hf : ∀ i layer, (f i layer).index = layer.index ∧ (f i layer).id? = layer.id? ∧
      (f i layer).categoryIds = layer.categoryIds)
    (hlayers : ∀ i : Nat, l'.layers[i]? = l.layers[i]?.map (f i))
    (hcategories : (l'.categories.map (·.id)).Nodup)
    (htapDances : (l'.tapDances.map (·.enumerator)).Nodup)
    (hsub : ∀ id ∈ l.categories.map (·.id), id ∈ l'.categories.map (·.id)) : l'.Fits := by
  have hids : l'.layers.map Layer.id? = l.layers.map Layer.id? := by
    refine List.ext_getElem? fun i => ?_
    rw [List.getElem?_map, List.getElem?_map, hlayers, Option.map_map]
    exact congrFun (congrArg Option.map (funext fun layer => (hf i layer).2.1)) _
  refine ⟨?_, ?_, hcategories, ?_, htapDances, ?_⟩
  · intro hnil
    rw [hnil, List.map_nil, eq_comm, List.map_eq_nil_iff] at hids
    exact h.layers_ne hids
  · intro i layer' hlayer'
    rw [hlayers] at hlayer'
    obtain ⟨layer, hlayer, rfl⟩ := Option.map_eq_some_iff.mp hlayer'
    exact (hf i layer).1.trans (h.numbered i layer hlayer)
  · rw [filterMap_id?_congr hids]
    exact h.ids
  · intro u hu
    obtain ⟨layer', hlayer', hu⟩ := List.mem_flatMap.mp hu
    obtain ⟨i, hi⟩ := List.mem_iff_getElem?.mp hlayer'
    rw [hlayers] at hi
    obtain ⟨layer, hlayer, rfl⟩ := Option.map_eq_some_iff.mp hi
    have hid := List.mem_map_of_mem (f := (·.id)) hu
    rw [map_id_layerCategoryUses, (hf i layer).2.2] at hid
    exact hsub _ (h.mem_categories (List.mem_of_getElem? hlayer) hid)

/-! ### Tap dances -/

/-- A tap dance as its entry is read, but for the number of its line. -/
def TapDance.draft (t : TapDance) : TapDanceDraft :=
  { line := 0, name := t.name,
    actions := ("single_tap", t.single) ::
      ((t.double?.toList.map fun code => ("double_tap", code)) ++
        t.hold?.toList.map fun code => ("hold", code)) }

theorem TapDance.Legible.make {t : TapDance} (h : t.Legible) : t.make = .ok t := by
  have hcode : ∀ code ∈ t.keycodes, TapDance.checkKeycode code = .ok code := fun code hmem =>
    nonBlank_eq_ok (h.keycodes code hmem)
  have hsome : ∀ code? : Option String, (∀ code, code? = some code → code ∈ t.keycodes) →
      checkSome TapDance.checkKeycode code? = .ok code? := by
    intro code? hmem
    cases code? with
    | none => rfl
    | some code => exact checkSome_eq_ok_iff.mpr (.inr ⟨code, code, rfl, rfl, hcode code (hmem code rfl)⟩)
  refine TapDance.make_eq_ok_iff.mpr ⟨h.name, rfl, hcode t.single List.mem_cons_self, ?_, ?_⟩
  · exact hsome t.double? fun code hd => by simp [TapDance.keycodes, hd]
  · exact hsome t.hold? fun code hd => by simp [TapDance.keycodes, hd]

namespace Document

theorem makeTapDances_append (first rest : List TapDanceDraft) (made : List TapDance) :
    makeTapDances (first ++ rest) made = makeTapDances first made >>= makeTapDances rest := by
  induction first generalizing made with
  | nil => rfl
  | cons draft first ih =>
    rw [List.cons_append, makeTapDances, makeTapDances]
    split
    · rfl
    · dsimp only
      split
      · rfl
      · split
        · rfl
        · exact ih _

theorem makeTapDances_cons_eq_ok_iff {draft : TapDanceDraft} {rest : List TapDanceDraft}
    {made tapDances : List TapDance} :
    makeTapDances (draft :: rest) made = .ok tapDances ↔
      ∃ single t, draft.actions.lookup "single_tap" = some single ∧
        TapDance.make ⟨draft.name, single, draft.actions.lookup "double_tap",
          draft.actions.lookup "hold"⟩ = .ok t ∧
        t.enumerator ∉ made.map (·.enumerator) ∧
        makeTapDances rest (made ++ [t]) = .ok tapDances := by
  rw [makeTapDances]
  split
  next hsingle => simp [hsingle]
  next single hsingle =>
    dsimp only
    split
    next issues hmake => simp [hsingle, hmake]
    next t hmake =>
      have hany : made.any (·.enumerator == t.enumerator) = true ↔
          t.enumerator ∈ made.map (·.enumerator) := by simp
      split
      next h => simp [-List.mem_map, hsingle, hmake, hany.mp h]
      next h => simp [-List.mem_map, hsingle, hmake, mt hany.mpr h]

theorem makeTapDances_draft_eq_ok_iff {t : TapDance} (h : t.Legible) {rest : List TapDanceDraft}
    {made tapDances : List TapDance} :
    makeTapDances (t.draft :: rest) made = .ok tapDances ↔
      t.enumerator ∉ made.map (·.enumerator) ∧
        makeTapDances rest (made ++ [t]) = .ok tapDances := by
  obtain ⟨name, single, double?, hold?⟩ := t
  have hsingle : (TapDance.draft ⟨name, single, double?, hold?⟩).actions.lookup "single_tap" =
      some single := rfl
  have hdouble : (TapDance.draft ⟨name, single, double?, hold?⟩).actions.lookup "double_tap" =
      double? := by
    cases double? <;> cases hold? <;> rfl
  have hhold : (TapDance.draft ⟨name, single, double?, hold?⟩).actions.lookup "hold" = hold? := by
    cases double? <;> cases hold? <;> rfl
  rw [makeTapDances_cons_eq_ok_iff, hsingle, hdouble, hhold]
  constructor
  · rintro ⟨found, t, hfound, hmake, hrest⟩
    cases hfound
    rw [show (TapDance.draft ⟨name, single, double?, hold?⟩).name = name from rfl, h.make] at hmake
    cases hmake
    exact hrest
  · intro hrest
    exact ⟨single, _, rfl, h.make, hrest⟩

/-- The drafts of tap dances with different names make the tap dances. -/
theorem makeTapDances_drafts_eq_ok_iff {ts : List TapDance} (h : ∀ t ∈ ts, t.Legible)
    (hts : (ts.map (·.enumerator)).Nodup) {made tapDances : List TapDance} :
    makeTapDances (ts.map TapDance.draft) made = .ok tapDances ↔
      (∀ t ∈ made, t.enumerator ∉ ts.map (·.enumerator)) ∧ tapDances = made ++ ts := by
  induction ts generalizing made with
  | nil => simp [makeTapDances, eq_comm]
  | cons t ts ih =>
    rw [List.map_cons, List.nodup_cons] at hts
    rw [List.map_cons, makeTapDances_draft_eq_ok_iff (h t List.mem_cons_self),
      ih (List.forall_mem_cons.mp h).2 hts.2]
    simp only [List.mem_append, List.map_cons, List.mem_cons, List.not_mem_nil, or_false,
      List.append_assoc, List.singleton_append, ← and_assoc]
    refine and_congr_left fun _ => ⟨?_, ?_⟩
    · rintro ⟨hnot, hall⟩ u hu
      rintro (heq | hmem)
      · exact hnot (heq ▸ List.mem_map_of_mem hu)
      · exact hall u (.inl hu) hmem
    · intro hall
      refine ⟨fun hmem => ?_, ?_⟩
      · obtain ⟨u, hu, heq⟩ := List.mem_map.mp hmem
        exact hall u hu (.inl heq)
      · rintro u (hu | rfl)
        · exact fun hmem => hall u hu (.inr hmem)
        · exact hts.1

theorem nodup_makeTapDances {drafts : List TapDanceDraft} {made tapDances : List TapDance}
    (h : makeTapDances drafts made = .ok tapDances) (hmade : (made.map (·.enumerator)).Nodup) :
    (tapDances.map (·.enumerator)).Nodup := by
  induction drafts generalizing made with
  | nil =>
    cases h
    exact hmade
  | cons draft drafts ih =>
    obtain ⟨single, t, -, -, hnot, hrest⟩ := makeTapDances_cons_eq_ok_iff.mp h
    refine ih hrest ?_
    rw [List.map_append, List.map_singleton, ← List.concat_eq_append]
    exact List.Nodup.concat hnot hmade

/-! ### What counts -/

def TapDanceDraft.gist (draft : TapDanceDraft) : TapDanceDraft := { draft with line := 0 }

def CategoryNote.gist (note : CategoryNote) : CategoryNote := ⟨note.id, 0, 0⟩

/-- A content without numbers of lines and without warnings. -/
def Content.gist (c : Content) : Content :=
  { c with
    tapDances := c.tapDances.map TapDanceDraft.gist
    descriptions := c.descriptions.map DescriptionNote.gist
    uses := c.uses.map CategoryNote.gist
    warnings := [] }

theorem makeTapDances_gist {drafts : List TapDanceDraft} {made tapDances : List TapDance} :
    makeTapDances (drafts.map TapDanceDraft.gist) made = .ok tapDances ↔
      makeTapDances drafts made = .ok tapDances := by
  induction drafts generalizing made with
  | nil => rfl
  | cons draft drafts ih =>
    simp only [List.map_cons, makeTapDances_cons_eq_ok_iff, ih]
    rfl

theorem describe_gist (notes : List DescriptionNote) (layers : List Layer) :
    (describe (notes.map DescriptionNote.gist) layers).1 = (describe notes layers).1 := by
  rw [describe_eq, describe_eq]
  congr 1
  funext place layer
  exact Layer.noted_map_gist notes place layer

/-- The layout of a content does not depend on where things stand in the document. -/
theorem Content.gives_gist {c : Content} {l : Layout} : c.gist.Gives l ↔ c.Gives l := by
  have huses : (∀ use ∈ c.gist.uses, use.id ∈ c.categories.map (·.id)) ↔
      ∀ use ∈ c.uses, use.id ∈ c.categories.map (·.id) := by
    simp [Content.gist, CategoryNote.gist]
  have hlayers := describe_gist c.descriptions c.layers
  constructor
  · intro h
    exact ⟨h.layers_ne, huses.mp h.uses, h.ids, h.metadata, h.layers.trans hlayers, h.categories,
      makeTapDances_gist.mp h.tapDances, h.settings, h.fits⟩
  · intro h
    exact ⟨h.layers_ne, huses.mpr h.uses, h.ids, h.metadata, h.layers.trans hlayers.symm,
      h.categories, makeTapDances_gist.mpr h.tapDances, h.settings, h.fits⟩

/-! ### Adding a layout -/

/-- A content after the document of a layout, but for its metadata. -/
def Content.extend (c : Content) (l : Layout) : Content :=
  { c with
    layers := c.layers ++ l.layers.map Layer.bare
    categories := c.categories ++ l.categories
    settings := Pairs.putAll c.settings l.settings
    tapDances := c.tapDances ++ l.tapDances.map TapDance.draft
    descriptions := c.descriptions ++ l.layers.flatMap Layer.notes
    uses := c.uses ++ l.layers.flatMap fun layer => layer.categoryIds.map fun id => ⟨id, 0, 0⟩ }

theorem filterMap_id?_bare (layers : List Layer) :
    (layers.map Layer.bare).filterMap (·.id?) = layers.filterMap (·.id?) := by
  rw [List.filterMap_map]
  rfl

theorem map_notes_gist (layers : List Layer) :
    (layers.flatMap Layer.notes).map DescriptionNote.gist = layers.flatMap Layer.notes := by
  refine (List.map_congr_left ?_).trans (List.map_id _)
  intro note hnote
  obtain ⟨layer, -, hnote⟩ := List.mem_flatMap.mp hnote
  obtain ⟨⟨p, key⟩, -, hfound⟩ := List.mem_filterMap.mp hnote
  obtain ⟨text, -, rfl⟩ := Option.map_eq_some_iff.mp hfound
  rfl

theorem mem_of_uses {l : Layout} (h : l.Fits) {use : CategoryNote}
    (huse : use ∈ l.layers.flatMap fun layer => layer.categoryIds.map fun id => ⟨id, 0, 0⟩) :
    use.id ∈ l.categories.map (·.id) := by
  obtain ⟨layer, hlayer, huse⟩ := List.mem_flatMap.mp huse
  obtain ⟨id, hid, rfl⟩ := List.mem_map.mp huse
  exact h.mem_categories hlayer hid

/-- A layout is made again from its metadata and its document. -/
theorem Content.gives_extend {l : Layout} (h : l.Legible) :
    (Content.extend { metadata := l.metadata } l).Gives l := by
  have hfits := Layout.problem?_eq_none_iff.mp h.fits
  refine ⟨?_, fun use huse => mem_of_uses hfits huse, ?_, rfl, ?_, rfl, ?_, ?_, h.fits⟩
  · simpa [Content.extend] using hfits.layers_ne
  · exact (filterMap_id?_bare l.layers).symm ▸ hfits.ids
  · exact (h.describe_notes (map_notes_gist l.layers)).symm
  · exact (makeTapDances_drafts_eq_ok_iff h.tapDances hfits.tapDances).mpr ⟨by simp, rfl⟩
  · show l.settings = Pairs.putAll [] l.settings
    rw [Pairs.putAll_eq_append h.settingNames (List.forall_mem_nil _),
      List.nil_append]

/-- What a content has to leave free for a layout to be added to it. -/
structure Content.Admits (c : Content) (l : Layout) : Prop where
  layers : c.layers = []
  categories : ∀ category ∈ c.categories, category.id ∉ l.categories.map (·.id)
  tapDances : ∃ made, makeTapDances c.tapDances [] = .ok made ∧
    ∀ t ∈ made, t.enumerator ∉ l.tapDances.map (·.enumerator)

/-- Added to a content without layers, a layout makes a layout with it if no names clash. -/
theorem Content.exists_gives_extend_iff {c : Content} {l : Layout} (h : l.Legible)
    (hlayers : c.layers = []) (huses : c.uses = []) (hcategories : (c.categories.map (·.id)).Nodup)
    (hclash : ∀ category ∈ c.categories, category.id ∉ l.categories.map (·.id)) :
    (∃ l', (c.extend l).Gives l') ↔ c.Admits l := by
  have hfits := Layout.problem?_eq_none_iff.mp h.fits
  have htapDances : ∀ tapDances, makeTapDances (c.extend l).tapDances [] = .ok tapDances ↔
      ∃ made, makeTapDances c.tapDances [] = .ok made ∧
        (∀ t ∈ made, t.enumerator ∉ l.tapDances.map (·.enumerator)) ∧
          tapDances = made ++ l.tapDances := by
    intro tapDances
    show makeTapDances (c.tapDances ++ l.tapDances.map TapDance.draft) [] = _ ↔ _
    rw [makeTapDances_append, bind_eq_ok_iff]
    exact exists_congr fun made => and_congr_right fun _ =>
      makeTapDances_drafts_eq_ok_iff h.tapDances hfits.tapDances
  constructor
  · rintro ⟨l', hgives⟩
    obtain ⟨made, hmade, hnot, -⟩ := (htapDances l'.tapDances).mp hgives.tapDances
    exact ⟨hlayers, hclash, made, hmade, hnot⟩
  · rintro ⟨-, -, made, hmade, hnot⟩
    have hbare : (c.extend l).layers = l.layers.map Layer.bare := by
      simp [Content.extend, hlayers]
    -- notes of the content may describe other keys than those of the layout, so the layers of the
    -- result differ from the layout's in descriptions
    let l' : Layout :=
      { metadata := c.metadata, layers := (describe (c.extend l).descriptions (c.extend l).layers).1,
        categories := c.categories ++ l.categories, tapDances := made ++ l.tapDances,
        settings := (c.extend l).settings }
    have hsub : ∀ id ∈ l.categories.map (·.id), id ∈ l'.categories.map (·.id) := by
      intro id hid
      rw [List.map_append]
      exact List.mem_append_right _ hid
    have hdescribed : ∀ i, l'.layers[i]? = l.layers[i]?.map fun layer =>
        Layer.noted (c.extend l).descriptions i layer.bare := by
      intro i
      show (describe _ _).1[i]? = _
      rw [describe_eq, hbare, List.getElem?_mapIdx, List.getElem?_map, Option.map_map]
      rfl
    refine ⟨l', ?_, ?_, ?_, rfl, rfl, rfl, (htapDances _).mpr ⟨made, hmade, hnot, rfl⟩, rfl, ?_⟩
    · simpa [hbare] using hfits.layers_ne
    · intro use huse
      rw [show (c.extend l).uses = l.layers.flatMap (fun layer => layer.categoryIds.map fun id =>
        ⟨id, 0, 0⟩) by simp [Content.extend, huses]] at huse
      exact hsub _ (mem_of_uses hfits huse)
    · rw [hbare, filterMap_id?_bare]
      exact hfits.ids
    · have hkept : ∀ (i : Nat) (layer : Layer),
          (Layer.noted (c.extend l).descriptions i layer.bare).index = layer.index ∧
          (Layer.noted (c.extend l).descriptions i layer.bare).id? = layer.id? ∧
          (Layer.noted (c.extend l).descriptions i layer.bare).categoryIds = layer.categoryIds :=
        fun i layer => ⟨rfl, rfl, by rw [Layer.categoryIds_noted, Layer.categoryIds_bare]⟩
      refine Layout.problem?_eq_none_iff.mpr (hfits.withLayers hkept hdescribed ?_ ?_ hsub)
      · rw [List.map_append, List.nodup_append]
        refine ⟨hcategories, hfits.categories, fun a ha b hb hab => ?_⟩
        obtain ⟨category, hmem, rfl⟩ := List.mem_map.mp ha
        exact hclash category hmem (hab ▸ hb)
      · rw [List.map_append, List.nodup_append]
        refine ⟨nodup_makeTapDances hmade List.nodup_nil, hfits.tapDances, fun a ha b hb hab => ?_⟩
        obtain ⟨t, ht, rfl⟩ := List.mem_map.mp ha
        exact hnot t ht (hab ▸ hb)

end Document

end Keyforge
