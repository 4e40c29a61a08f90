import Keyforge.Proofs.Document.Content

/-!
# Reading layer blocks back

The block of a legible layer is read back from its heading, its properties and its table
(`reads_layerLines`), and so are the blocks of all layers of a layout (`reads_layers`).
-/

namespace Keyforge.Document

open Keyforge.Text

variable {limits : Limits} {now : Time.Stamp} {layer : Layer}

/-! ### Headings -/

def headingOf (layer : Layer) : String := "## Layer " ++ intText layer.index ++ ": " ++ layer.name

theorem toList_layerHeading (h : 0 ≤ layer.index) :
    (headingOf layer).toList =
      "## Layer ".toList ++ Nat.toDigits 10 layer.index.toNat ++ ": ".toList ++ layer.name.toList := by
  simp only [headingOf, String.toList_append, toList_intText h]

theorem trim_layerHeading (h : layer.Legible) :
    trim (headingOf layer).toList = (headingOf layer).toList := by
  rw [toList_layerHeading h.index.1]
  refine trim_eq_self (Trimmed.append ?_ h.name.trimmed.last (by simp) h.name.ne_nil)
  intro c hc
  rw [List.append_assoc, List.head?_append] at hc
  cases hc
  decide

theorem isHeading_layerHeading (h : layer.Legible) :
    Line.isHeading (trim (headingOf layer).toList) = true := by
  rw [trim_layerHeading h, toList_layerHeading h.index.1]
  simp [Line.isHeading]

theorem openRegion_layerHeading (h : layer.Legible) (c : Content) (line : Nat) :
    openRegion c line (trim (headingOf layer).toList) =
      if layer.index.toNat = c.layers.length then .ok (.layer { name := layer.name })
      else .error (problemAt (.layerNumber c.layers.length layer.index.toNat) line) := by
  rw [trim_layerHeading h, toList_layerHeading h.index.1, openRegion,
    Line.layerHeading?_line _ h.name]
  simp only [readDigits_eq_ok_iff.mpr (Number.ofDigits_toDigits h.index.2), String.ofList_toList]
  rfl

/-! ### Properties -/

def propertyLine (name value : String) : String := "**" ++ name ++ "**: " ++ value

theorem toList_propertyLine (name value : String) :
    (propertyLine name value).toList =
      ['*', '*'] ++ name.toList ++ ['*', '*'] ++ ':' :: ' ' :: value.toList := by
  simp [propertyLine]

theorem head_propertyLine (name : String) {value : String} (h : Trimmed value.toList) :
    (trim (propertyLine name value).toList).head? = some '*' := by
  rw [toList_propertyLine, Line.trim_label (by simp) ?_ h]
  · rfl
  · intro c hc
    cases hc
    decide

def writtenProperties : List String := ["ID", "Color", "Category", "Layer Colors"]

theorem boldFree_of_mem_writtenProperties {name : String} (h : name ∈ writtenProperties) :
    name.toList ≠ [] ∧ Line.BoldFree name.toList := by
  unfold Line.BoldFree
  revert name
  decide +kernel

theorem reads_property {name : String} (hname : name ∈ writtenProperties) {value? : Option String}
    (hvalue : ∀ value, value? = some value → Trimmed value.toList) {c : Content} {draft : Draft}
    {Q : State → Prop} (hnone : value? = none → Q (.inside c (.layer draft)))
    (hsome : ∀ value, value? = some value → ∀ line cs,
      Line.property? cs = some (name.toList, value.toList) →
      ∃ t, readProperty c draft line cs = .ok t ∧ Q t) :
    Reads limits now ((value?.toList.map (propertyLine name)).map String.toList)
      (.inside c (.layer draft)) Q := by
  cases value? with
  | none => exact Reads.nil (hnone rfl)
  | some value =>
    obtain ⟨hne, hfree⟩ := boldFree_of_mem_writtenProperties hname
    have htrimmed := hvalue value rfl
    refine Reads.single fun line => ?_
    rw [readLine_property (head_propertyLine name htrimmed)]
    refine hsome value rfl line _ ?_
    rw [toList_propertyLine]
    exact Line.property?_line hne hfree htrimmed

theorem propertyLines_eq (layer : Layer) :
    propertyLines layer = headingOf layer ::
        (layer.id?.toList.map (propertyLine "ID") ++
          ((layer.color?.map Color.hex).toList.map (propertyLine "Color") ++
            (layer.category?.toList.map (propertyLine "Category") ++
              (if layer.colorsEnabled then none else some "false").toList.map
                (propertyLine "Layer Colors")))) := by
  have hline : ∀ (label name value : String), label = "**" ++ name ++ "**: " →
      label ++ value = propertyLine name value := by
    rintro _ name value rfl
    rfl
  have hid := fun value => hline "**ID**: " "ID" value (by decide)
  have hcolor := fun value => hline "**Color**: " "Color" value (by decide)
  have hcategory := fun value => hline "**Category**: " "Category" value (by decide)
  have hcolors : "**Layer Colors**: false" = propertyLine "Layer Colors" "false" := by decide
  simp only [propertyLines, hid, hcolor, hcategory, hcolors, List.append_assoc, List.singleton_append,
    Option.toList_map, List.map_map]
  cases layer.colorsEnabled <;> rfl

section Properties

variable {c : Content} {draft : Draft}

theorem reads_id (h : layer.Legible) (hdraft : draft.id? = none) :
    Reads limits now ((layer.id?.toList.map (propertyLine "ID")).map String.toList)
      (.inside c (.layer draft)) (· = .inside c (.layer { draft with id? := layer.id? })) := by
  refine reads_property (by decide) ?_ ?_ ?_
  · exact fun id hid => (Name.visible_of_isLayerId (h.id id hid)).trimmed
  · intro hnone
    rw [hnone, ← hdraft]
  · intro id hid line cs hcs
    have hof : PropertyName.of "ID".toList = .id := by decide
    simp only [readProperty, hcs, hof, h.id id hid, if_true, String.ofList_toList, hid]
    exact ⟨_, rfl, rfl⟩

theorem reads_color (hdraft : draft.color? = none) :
    Reads limits now
      (((layer.color?.map Color.hex).toList.map (propertyLine "Color")).map String.toList)
      (.inside c (.layer draft)) (· = .inside c (.layer { draft with color? := layer.color? })) := by
  refine reads_property (by decide) ?_ ?_ ?_
  · intro value hvalue
    obtain ⟨color, -, rfl⟩ := Option.map_eq_some_iff.mp hvalue
    rw [Color.hex, String.toList_ofList]
    exact (Color.visible_hexChars color).trimmed
  · intro hnone
    rw [Option.map_eq_none_iff.mp hnone, ← hdraft]
  · intro value hvalue line cs hcs
    obtain ⟨color, hcolor, rfl⟩ := Option.map_eq_some_iff.mp hvalue
    have hof : PropertyName.of "Color".toList = .color := by decide
    simp only [readProperty, hcs, hof, String.ofList_toList, Color.ofHex_hex, hcolor]
    exact ⟨_, rfl, rfl⟩

theorem reads_category (h : layer.Legible) (hdraft : draft.category? = none) :
    Reads limits now ((layer.category?.toList.map (propertyLine "Category")).map String.toList)
      (.inside c (.layer draft)) fun t =>
        ∃ notes, t = .inside { c with uses := c.uses ++ notes }
            (.layer { draft with category? := layer.category? }) ∧
          notes.map (·.id) = layer.category?.toList := by
  refine reads_property (by decide) ?_ ?_ ?_
  · exact fun id hid => (Name.visible_of_isCategoryId (h.category id hid)).trimmed
  · intro hnone
    exact ⟨[], by rw [hnone, ← hdraft, List.append_nil], by rw [hnone]; rfl⟩
  · intro id hid line cs hcs
    have hof : PropertyName.of "Category".toList = .category := by decide
    simp only [readProperty, hcs, hof, h.category id hid, if_true, String.ofList_toList, hid]
    exact ⟨_, rfl, _, rfl, rfl⟩

theorem reads_colors (hdraft : draft.colorsEnabled = true) :
    Reads limits now
      (((if layer.colorsEnabled then none else some "false").toList.map
        (propertyLine "Layer Colors")).map String.toList)
      (.inside c (.layer draft))
      (· = .inside c (.layer { draft with colorsEnabled := layer.colorsEnabled })) := by
  cases layer.colorsEnabled with
  | true => exact Reads.nil (by rw [← hdraft])
  | false =>
    refine reads_property (by decide) ?_ nofun ?_
    · rintro _ ⟨⟩
      have hends : 'f' :: ['a', 'l', 's', 'e'] = ['f', 'a', 'l', 's'] ++ ['e'] := rfl
      exact trimmed_of_ends (by decide) (by decide) hends
    · rintro _ ⟨⟩ line cs hcs
      have hof : PropertyName.of "Layer Colors".toList = .colors := by decide
      have hfalse : ["true", "yes", "1"].contains (lower (String.ofList "false".toList)) = false := by
        decide
      simp only [readProperty, hcs, hof, hfalse]
      exact ⟨_, rfl, rfl⟩

def draftOf (layer : Layer) : Draft :=
  ⟨layer.name, layer.id?, layer.color?, layer.category?, layer.colorsEnabled⟩

theorem reads_propertyLines (h : layer.Legible) {s : State} (hs : Settles s c)
    (hindex : layer.index = c.layers.length) :
    Reads limits now ((propertyLines layer).map String.toList) s fun t =>
      ∃ notes, t = .inside { c with uses := c.uses ++ notes } (.layer (draftOf layer)) ∧
        notes.map (·.id) = layer.category?.toList := by
  rw [propertyLines_eq]
  simp only [List.map_cons, List.map_append]
  refine Reads.cons (Q := (· = .inside c (.layer { name := layer.name }))) (fun line => ?_) ?_
  · rw [hs.heading (isHeading_layerHeading h), openRegion_layerHeading h, if_pos (by omega)]
    exact ⟨_, rfl, rfl⟩
  rintro _ rfl
  refine (reads_id h rfl).append ?_
  rintro _ rfl
  refine (reads_color rfl).append ?_
  rintro _ rfl
  refine (reads_category h rfl).append ?_
  rintro _ ⟨notes, rfl, hnotes⟩
  refine (reads_colors rfl).mono ?_
  rintro _ rfl
  exact ⟨notes, rfl, hnotes⟩

end Properties

/-! ### Blocks -/

/-- A document could end in this state with this content, or go on after a rule. -/
structure Rests (limits : Limits) (now : Time.Stamp) (s : State) (c : Content) : Prop where
  settles : Settles s c
  rule : ∀ line, readLine limits now line "---".toList s = .ok (.inside c .body)

theorem rests_body (c : Content) : Rests limits now (.inside c .body) c where
  settles := fun _ => rfl
  rule := fun _ => readLine_body rfl rfl c

theorem rests_layer {c c' : Content} {draft : Draft} (h : closeLayer c draft [] = .ok c') :
    Rests limits now (.inside c (.layer draft)) c' where
  settles := fun _ => h
  rule := fun line => by
    rw [readLine_rule_layer rfl, h]
    rfl

def Content.addLayer (c : Content) (layer : Layer) : Content :=
  { c with
    layers := c.layers ++ [layer.bare]
    uses := c.uses ++ layer.categoryIds.map fun id => ⟨id, 0, 0⟩ }

theorem map_gist_of_map_id {notes : List CategoryNote} {ids : List String}
    (h : notes.map (·.id) = ids) : notes.map CategoryNote.gist = ids.map fun id => ⟨id, 0, 0⟩ := by
  rw [← h, List.map_map]
  rfl

theorem gist_addLayer (c : Content) {notes : List CategoryNote}
    (h : notes.map (·.id) = layer.categoryIds) :
    Content.gist { c with layers := c.layers ++ [layer.bare], uses := c.uses ++ notes } =
      c.gist.addLayer layer := by
  simp only [Content.gist, Content.addLayer, List.map_append, map_gist_of_map_id h]

theorem numbered_bare (h : layer.Legible) :
    Layer.numberFrom 0 (layer.keys.map fun (p, key) => (p, key.bare)) =
      layer.keys.map fun (p, key) => (p, key.bare) := by
  rw [Layer.numberFrom_map (f := fun _ => Key.bare) fun _ _ _ => rfl, h.numbered]

theorem draft_layer_eq_bare (h : layer.Legible) {n : Nat} (hindex : layer.index = n) :
    (draftOf layer).layer n (layer.keys.map fun (p, key) => (p, key.bare)) = layer.bare := by
  simp only [Draft.layer, draftOf, numbered_bare h, Layer.bare, hindex]

theorem reads_layerLines (h : layer.Legible) {s : State} {c : Content} (hs : Settles s c)
    (hindex : layer.index = c.layers.length) :
    Reads limits now ((layerLines layer).map String.toList) s fun t =>
      ∃ c', Rests limits now t c' ∧ c'.gist = c.gist.addLayer layer := by
  have hdraft : (draftOf layer).Legible := ⟨h.name, h.id, h.category⟩
  have hclose : ∀ notes, closeLayer { c with uses := c.uses ++ notes } (draftOf layer)
      (layer.keys.map fun (p, key) => (p, key.bare)) =
        .ok { c with layers := c.layers ++ [layer.bare], uses := c.uses ++ notes } := by
    intro notes
    rw [closeLayer_eq_ok hdraft h.tabular.bare, draft_layer_eq_bare h hindex]
  rw [layerLines, List.map_append, List.map_append]
  refine ((reads_propertyLines h hs hindex).append ?_).append (Q := fun t =>
    ∃ notes, t = .inside { c with uses := c.uses ++ notes } (.layer (draftOf layer)) ∧
      notes.map (·.id) = layer.category?.toList) ?_
  · rintro _ ⟨notes, rfl, hnotes⟩
    exact Reads.single fun line => ⟨_, readLine_blank rfl _ _, notes, rfl, hnotes⟩
  rintro _ ⟨notes, rfl, hnotes⟩
  split
  next hempty =>
    have hkeys : layer.keys = [] := List.isEmpty_iff.mp hempty
    rw [hkeys] at hclose
    refine Reads.nil ⟨_, rests_layer (hclose notes), gist_addLayer c ?_⟩
    rw [hnotes, Layer.categoryIds, hkeys, List.filterMap_nil, List.append_nil]
  next hempty =>
    have hkeys : layer.keys ≠ [] := by simpa using hempty
    rw [List.map_append]
    refine (reads_tableLines h.tabular hkeys _ _).append ?_
    rintro _ ⟨more, columns, rows, rfl, hmore⟩
    rw [numbered_bare h]
    -- the blank line after the table ends it, and with it the layer
    refine Reads.single fun line => ?_
    rw [readLine_blank_table rfl]
    dsimp only
    rw [List.append_assoc, hclose]
    refine ⟨_, rfl, _, rests_body _, gist_addLayer c ?_⟩
    rw [List.map_append, hnotes, hmore]
    rfl

theorem foldl_addLayer (c : Content) (layers : List Layer) :
    layers.foldl Content.addLayer c =
      { c with
        layers := c.layers ++ layers.map Layer.bare
        uses := c.uses ++ layers.flatMap fun layer => layer.categoryIds.map fun id => ⟨id, 0, 0⟩ } := by
  induction layers generalizing c with
  | nil => simp
  | cons layer layers ih => simp [ih, Content.addLayer]

/-- The blocks of layers with the next numbers are read back. -/
theorem reads_layers {layer : Layer} {layers : List Layer} (h : ∀ other ∈ layer :: layers, other.Legible)
    {s : State} {c : Content} (hs : Settles s c)
    (hindex : ∀ (i : Nat) (other : Layer), (layer :: layers)[i]? = some other →
      other.index = (c.layers.length + i : Nat)) :
    Reads limits now (((layer :: layers).flatMap layerLines).map String.toList) s fun t =>
      ∃ c', Rests limits now t c' ∧ c'.gist = (layer :: layers).foldl Content.addLayer c.gist := by
  induction layers generalizing layer s c with
  | nil =>
    rw [List.flatMap_singleton]
    exact reads_layerLines (h layer List.mem_cons_self) hs (hindex 0 layer rfl)
  | cons next layers ih =>
    rw [List.flatMap_cons, List.map_append]
    refine (reads_layerLines (h layer List.mem_cons_self) hs (hindex 0 layer rfl)).append ?_
    rintro t ⟨c', hrests, hgist⟩
    have hlen : c'.layers.length = c.layers.length + 1 := by
      have := congrArg (fun c => c.layers.length) hgist
      simpa [Content.gist, Content.addLayer] using this
    have hindex' : ∀ (i : Nat) (other : Layer), (next :: layers)[i]? = some other →
        other.index = (c'.layers.length + i : Nat) := by
      intro i other hother
      rw [hindex (i + 1) other hother]
      omega
    have hmem : ∀ other ∈ next :: layers, other.Legible := fun other hother =>
      h other (List.mem_cons_of_mem layer hother)
    rw [List.foldl_cons, ← hgist]
    exact ih hmem hrests.settles hindex'

theorem layers_eq_nil_of_layerLines {layer : Layer} (h : layer.Legible) (hindex : layer.index = 0)
    {s t : State} {c : Content} (hs : Settles s c) {line : Nat} {rest : List (List Char)}
    (hread : (readLines limits now line ((layerLines layer).map String.toList ++ rest) s).result =
      .ok t) : c.layers = [] := by
  rw [layerLines, propertyLines_eq] at hread
  simp only [List.cons_append, List.map_cons] at hread
  obtain ⟨u, hu, -⟩ := readLines_cons_eq_ok_iff.mp hread
  rw [hs.heading (isHeading_layerHeading h), openRegion_layerHeading h] at hu
  split at hu
  next hlen =>
    rw [hindex] at hlen
    exact List.length_eq_zero_iff.mp hlen.symm
  next => cases hu

end Keyforge.Document
