import Keyforge.Proofs.Firmware.Violations
import Keyforge.Proofs.Layout.Session

/-!
# References after the removal of a layer

When a layer is removed, the layers behind it move down by one (`movedDown`). References are texts
that are looked up anew, so they lead to the layers they led to before
(`lookup_layerIds_withoutLayer`). The errors about layers are the `layerUses` of unknown ids, and these
move down with their layers (`layerUses_withoutLayer`).
-/

namespace Keyforge

namespace Keycode

theorem resolveLayers_congr {layers others : List (String × Int)} {keycode : String}
    (h : ∀ id ∈ layerReferences keycode, others.lookup id = layers.lookup id) :
    resolveLayers others keycode = resolveLayers layers keycode := by
  have hpieces : ∀ pieces : List LayerPiece,
      (∀ id ∈ pieces.filterMap LayerPiece.id?, others.lookup id = layers.lookup id) →
      resolvePieces others pieces = resolvePieces layers pieces := by
    intro pieces hlookup
    induction pieces with
    | nil => rfl
    | cons piece pieces ih =>
      rw [resolvePieces, resolvePieces]
      cases piece with
      | char c => rw [ih hlookup, LayerPiece.resolve, LayerPiece.resolve]
      | layer id =>
        rw [ih (List.forall_mem_cons.mp hlookup).2, LayerPiece.resolve,
          LayerPiece.resolve, hlookup _ List.mem_cons_self]
  rw [resolveLayers, resolveLayers, hpieces _ h]

end Keycode

namespace Layout

variable {l : Layout} {i : Int} {removed : Layer}

/-! ### Layers that move down -/

/-- The number of a layer once the layer with the number `i` is gone. -/
def movedDown (i n : Int) : Int := if n < i then n else n - 1

def moveLayerDown (i : Int) (layer : Layer) : Layer :=
  { layer with index := movedDown i layer.index }

def withoutLayer (l : Layout) (i : Int) : Layout :=
  { l with layers := (l.layers.filter (·.index != i)).map (moveLayerDown i) }

theorem Numbered.eq_of_index_eq (h : l.Numbered) {layer other : Layer} (hlayer : layer ∈ l.layers)
    (hother : other ∈ l.layers) (heq : layer.index = other.index) : layer = other := by
  have hsame := h.layerAt?_index hother
  rw [← heq, h.layerAt?_index hlayer] at hsame
  exact Option.some.inj hsame

theorem Numbered.eraseIdx_eq_filter (h : l.Numbered) {n : Nat} (hn : n < l.layers.length) :
    l.layers.eraseIdx n = l.layers.filter (·.index != (n : Int)) := by
  have hwhole : l.layers = l.layers.take n ++ l.layers[n] :: l.layers.drop (n + 1) := by simp
  have htake : ∀ layer ∈ l.layers.take n, (layer.index != (n : Int)) = true := by
    intro layer hlayer
    obtain ⟨k, hk⟩ := List.mem_iff_getElem?.mp hlayer
    rw [List.getElem?_take] at hk
    split at hk
    next hlt =>
      have hindex := h k layer hk
      exact bne_iff_ne.mpr (by omega)
    next => cases hk
  have hdrop : ∀ layer ∈ l.layers.drop (n + 1), (layer.index != (n : Int)) = true := by
    intro layer hlayer
    obtain ⟨k, hk⟩ := List.mem_iff_getElem?.mp hlayer
    rw [List.getElem?_drop] at hk
    have hindex := h _ layer hk
    exact bne_iff_ne.mpr (by omega)
  have hat : (l.layers[n].index != (n : Int)) = false := by
    rw [h n _ (List.getElem?_eq_getElem hn), bne_self_eq_false]
  rw [List.eraseIdx_eq_take_drop_succ]
  conv_rhs => rw [hwhole, List.filter_append, List.filter_cons, hat]
  rw [List.filter_eq_self.mpr htake, List.filter_eq_self.mpr hdrop]
  rfl

theorem layers_withoutLayer (h : l.Numbered) {n : Nat} (hn : n < l.layers.length) :
    (l.withoutLayer n).layers = renumber (l.layers.eraseIdx n) := by
  show (l.layers.filter (·.index != (n : Int))).map _ = _
  rw [← h.eraseIdx_eq_filter hn]
  refine List.ext_getElem? fun k => ?_
  rw [renumber, List.getElem?_mapIdx, List.getElem?_map, List.getElem?_eraseIdx]
  split
  next hk =>
    cases hlayer : l.layers[k]? with
    | none => rfl
    | some layer => simp [moveLayerDown, movedDown, h k layer hlayer, hk]
  next hk =>
    cases hlayer : l.layers[k + 1]? with
    | none => rfl
    | some layer =>
      have hbehind : ¬((k : Int) + 1 < n) := by omega
      simp [moveLayerDown, movedDown, h _ layer hlayer, hbehind]

theorem removeLayer_eq_withoutLayer (h : l.Numbered) (hpos : 0 < i) (hlt : i < l.layers.length) :
    (l.withoutLayer i).Numbered ∧
      ∃ removed, l.layerAt? i = some removed ∧
        l.removeLayer i = .ok (removed, l.withoutLayer i) := by
  obtain ⟨n, rfl⟩ := Int.eq_ofNat_of_zero_le (Int.le_of_lt hpos)
  have hn : n < l.layers.length := by omega
  have hat : l.layerAt? n = some l.layers[n] := by
    rw [layerAt?, if_neg (by omega), Int.toNat_natCast, List.getElem?_eq_getElem hn]
  refine ⟨fun k layer hlayer => ?_, _, hat, ?_⟩
  · rw [layers_withoutLayer h hn, renumber, List.getElem?_mapIdx] at hlayer
    obtain ⟨original, -, rfl⟩ := Option.map_eq_some_iff.mp hlayer
    rfl
  · rw [removeLayer, if_neg (by omega), hat]
    dsimp only
    rw [Int.toNat_natCast, ← layers_withoutLayer h hn]
    rfl

theorem Numbered.of_layerAt? (h : l.Numbered) {n : Int} {layer : Layer}
    (hlayer : l.layerAt? n = some layer) : layer ∈ l.layers ∧ layer.index = n := by
  unfold layerAt? at hlayer
  split at hlayer
  · cases hlayer
  next hnonneg =>
    exact ⟨List.mem_of_getElem? hlayer, (h _ _ hlayer).trans (Int.toNat_of_nonneg (by omega))⟩

/-! ### Ids -/

variable (hids : (l.layers.filterMap (·.id?)).Nodup)

include hids

theorem eq_of_id_eq {layer other : Layer} {id : String} (hlayer : layer ∈ l.layers)
    (hother : other ∈ l.layers) (hid : layer.id? = some id) (hid' : other.id? = some id) :
    layer = other := by
  obtain ⟨m, hm⟩ := List.mem_iff_getElem?.mp hlayer
  obtain ⟨n, hn⟩ := List.mem_iff_getElem?.mp hother
  have hplace : m = n := place_eq_of_id_eq hids (by rw [hm, Option.bind_some, hid])
    (by rw [hn, Option.bind_some, hid'])
  rw [hplace, hn] at hm
  exact (Option.some.inj hm).symm

/-- The number that is listed for an id is that of the layer with the id. -/
theorem lookup_layerIds_eq_some_iff {id : String} {n : Int} : l.layerIds.lookup id = some n ↔
      ∃ layer ∈ l.layers, layer.id? = some id ∧ layer.index = n := by
  constructor
  · exact fun h => l.of_mem_layerIds _ (Pairs.mem_of_lookup h)
  · rintro ⟨layer, hlayer, hid, rfl⟩
    obtain ⟨n, hn⟩ := Pairs.exists_lookup_of_has
      (has_layerIds_iff.mpr (List.mem_filterMap.mpr ⟨layer, hlayer, hid⟩))
    obtain ⟨other, hother, hid', rfl⟩ := l.of_mem_layerIds _ (Pairs.mem_of_lookup hn)
    rw [hn, eq_of_id_eq hids hlayer hother hid hid']

theorem exists_id_withoutLayer_iff (hnumbered : l.Numbered) (hremoved : l.layerAt? i = some removed)
    (id : String) (P : Layer → Prop) :
    (∃ layer ∈ (l.withoutLayer i).layers, layer.id? = some id ∧ P layer) ↔
      removed.id? ≠ some id ∧
        ∃ layer ∈ l.layers, layer.id? = some id ∧ P (moveLayerDown i layer) := by
  obtain ⟨hmem, hindex⟩ := hnumbered.of_layerAt? hremoved
  constructor
  · rintro ⟨_, hlayer, hid, hP⟩
    obtain ⟨layer, hfilter, rfl⟩ := List.mem_map.mp hlayer
    obtain ⟨hlayer, hne⟩ := List.mem_filter.mp hfilter
    refine ⟨fun hremovedId => ?_, layer, hlayer, hid, hP⟩
    rw [eq_of_id_eq hids hlayer hmem hid hremovedId, hindex, bne_self_eq_false] at hne
    cases hne
  · rintro ⟨hne, layer, hlayer, hid, hP⟩
    refine ⟨_, List.mem_map_of_mem (List.mem_filter.mpr ⟨hlayer, bne_iff_ne.mpr fun heq => ?_⟩), hid, hP⟩
    exact hne (hnumbered.eq_of_index_eq hlayer hmem (heq.trans hindex.symm) ▸ hid)

theorem lookup_layerIds_withoutLayer (hnumbered : l.Numbered)
    (hremoved : l.layerAt? i = some removed) (id : String) (hid : removed.id? ≠ some id) :
    (l.withoutLayer i).layerIds.lookup id = (l.layerIds.lookup id).map (movedDown i) := by
  have hids' : ((l.withoutLayer i).layers.filterMap (·.id?)).Nodup := by
    show (((l.layers.filter _).map (moveLayerDown i)).filterMap (·.id?)).Nodup
    rw [List.filterMap_map]
    exact hids.sublist (List.filter_sublist.filterMap _)
  refine Option.ext fun m => ?_
  rw [lookup_layerIds_eq_some_iff hids', exists_id_withoutLayer_iff hids hnumbered hremoved,
    Option.map_eq_some_iff]
  simp only [lookup_layerIds_eq_some_iff hids]
  constructor
  · rintro ⟨-, layer, hlayer, hown, hm⟩
    exact ⟨layer.index, ⟨layer, hlayer, hown, rfl⟩, hm⟩
  · rintro ⟨n, ⟨layer, hlayer, hown, rfl⟩, hm⟩
    exact ⟨hid, layer, hlayer, hown, hm⟩

end Layout

namespace Firmware

open Layout Violation

variable {l : Layout} {i : Int} {removed : Layer}

/-! ### References where they stand -/

/-- The references on a layer to layers whose ids are among some, as they are reported. -/
def Violation.ofReferences (among : String → Bool) (layer : Layer) : List Violation :=
  layer.keys.flatMap fun entry =>
    ((Keycode.layerReferences entry.2.keycode).filter among).map fun id =>
      atKey layer entry.1 entry.2 .unknownLayerReference (some ("@" ++ id))

/-- The references in the actions of tap dances to layers whose ids are among some. -/
def Violation.ofActions (among : String → Bool) (tapDances : List TapDance) : List Violation :=
  tapDances.flatMap fun t => t.keycodes.flatMap fun keycode =>
    ((Keycode.layerReferences keycode).filter among).map fun id =>
      { kind := .unknownLayerReference, keycode? := some keycode, name? := some ("@" ++ id) }

/-- All references to layers whose ids are among some, each as often as it occurs. -/
def layerUses (l : Layout) (among : String → Bool) : List Violation :=
  l.layers.flatMap (ofReferences among) ++ ofActions among l.tapDances

def Violation.moveDown (i : Int) (v : Violation) : Violation :=
  { v with layer? := v.layer?.map (movedDown i) }

theorem layer?_of_mem_ofReferences {among : String → Bool} {layer : Layer} {v : Violation}
    (h : v ∈ ofReferences among layer) : v.layer? = some layer.index := by
  obtain ⟨entry, -, hv⟩ := List.mem_flatMap.mp h
  obtain ⟨id, -, rfl⟩ := List.mem_map.mp hv
  rfl

/-- References that stay move down with their layers; tap dances are not touched. -/
theorem layerUses_withoutLayer (l : Layout) (i : Int) (among : String → Bool) :
    layerUses (l.withoutLayer i) among =
      ((layerUses l among).filter (·.layer? ≠ some i)).map (moveDown i) := by
  have hkeys : ∀ layers : List Layer,
      ((layers.filter (·.index != i)).map (moveLayerDown i)).flatMap (ofReferences among) =
        ((layers.flatMap (ofReferences among)).filter (·.layer? ≠ some i)).map
          (moveDown i) := by
    intro layers
    induction layers with
    | nil => rfl
    | cons layer layers ih =>
      rw [List.flatMap_cons, List.filter_append, List.map_append, ← ih]
      by_cases hindex : layer.index = i
      · have hnone : (ofReferences among layer).filter (·.layer? ≠ some i) = [] :=
          List.filter_eq_nil_iff.mpr fun v hv => by
            simp [layer?_of_mem_ofReferences hv, hindex]
        rw [hnone, List.filter_cons_of_neg (by simpa using hindex), List.map_nil, List.nil_append]
      · have hall : (ofReferences among layer).filter (·.layer? ≠ some i) =
            ofReferences among layer :=
          List.filter_eq_self.mpr fun v hv => by simp [layer?_of_mem_ofReferences hv, hindex]
        have hmoved : ofReferences among (moveLayerDown i layer) =
            (ofReferences among layer).map (moveDown i) := by
          simp only [ofReferences, List.map_flatMap, List.map_map]
          rfl
        rw [hall, ← hmoved, List.filter_cons_of_pos (by simpa using hindex), List.map_cons,
          List.flatMap_cons]
  have hactions : ((ofActions among l.tapDances).filter (·.layer? ≠ some i)).map
      (moveDown i) = ofActions among l.tapDances := by
    have hsame : ∀ v ∈ ofActions among l.tapDances,
        v.layer? = none ∧ v.moveDown i = v := by
      intro v hv
      obtain ⟨t, -, hv⟩ := List.mem_flatMap.mp hv
      obtain ⟨keycode, -, hv⟩ := List.mem_flatMap.mp hv
      obtain ⟨id, -, rfl⟩ := List.mem_map.mp hv
      exact ⟨rfl, rfl⟩
    rw [List.filter_eq_self.mpr fun v hv => by simp [(hsame v hv).1]]
    exact (List.map_congr_left fun v hv => (hsame v hv).2).trans (List.map_id _)
  rw [layerUses, layerUses, List.filter_append, List.map_append, ← hkeys, hactions]
  rfl

/-- The violations that are about ids of layers are the references to ids that no layer has. -/
theorem filter_violations (l : Layout) (g : Geometry) :
    (violations l g).filter (fun v => v.kind = .unknownLayerReference) =
      layerUses l fun id => id ∉ l.layers.filterMap (·.id?) := by
  have hlayers : (l.layers.flatMap (ofLayer l)).filter
      (fun v => v.kind = .unknownLayerReference) = [] := by
    refine List.filter_eq_nil_iff.mpr fun v hv => ?_
    obtain ⟨layer, -, hv⟩ := List.mem_flatMap.mp hv
    obtain ⟨id, -, rfl⟩ := List.mem_map.mp hv
    exact Bool.false_ne_true
  have hlights : (ofLights g).filter (fun v => v.kind = .unknownLayerReference) = [] := by
    unfold ofLights
    split <;> rfl
  have hkey : ∀ layer p key,
      (ofKey l g layer p key).filter (fun v => v.kind = .unknownLayerReference) =
        (missingLayers l key.keycode).map fun id =>
          atKey layer p key .unknownLayerReference (some ("@" ++ id)) := by
    intro layer p key
    unfold ofKey
    split <;> simp [List.filter_append, List.filter_map, Function.comp_def, atKey]
  have haction : ∀ keycode, (ofAction l keycode).filter
      (fun v => v.kind = .unknownLayerReference) = ofAction l keycode := by
    intro keycode
    simp [ofAction, List.filter_map, Function.comp_def]
  rw [violations, List.filter_append, List.filter_append, List.filter_append, hlayers, hlights]
  simp only [List.filter_flatMap, hkey, haction, List.nil_append, List.append_nil]
  rfl

/-! ### Reports -/

/-- The errors of a report about ids of layers are about these references, one by one. -/
def Report.Blames (report : Report) (uses : List Violation) : Prop :=
  List.Forall₂ Finding.Describes
    (report.errors.filter fun f => f.kind = .unknownLayerReference) uses

def Subject.of (l : Layout) (board : Board) (table? : Option Keycode.Table) : Subject :=
  ⟨l, board, .ofGeometry board.geometry, table?⟩

theorem exists_blames {board : Board} {table? : Option Keycode.Table}
    (h : ¬(Subject.of l board table?).Overlong) :
    ∃ report, (Subject.of l board table?).validate = .ok report ∧
      report.Blames (layerUses l fun id => id ∉ l.layers.filterMap (·.id?)) := by
  have hreport := Subject.validate_eq_ok h
  refine ⟨_, hreport, ?_⟩
  rw [Report.Blames, Subject.errors_of_validate hreport, ← filter_violations l board.geometry]
  refine List.rel_filter (fun f v hfv => ?_) (Subject.forall₂_describes_errors rfl)
  simp only [hfv.kind]

theorem overlong_of_withoutLayer {board : Board} {table? : Option Keycode.Table}
    (h : (Subject.of (l.withoutLayer i) board table?).Overlong) :
    (Subject.of l board table?).Overlong := by
  rcases h with ⟨_, hlayer, hlong⟩ | hlights
  · obtain ⟨layer, hfilter, rfl⟩ := List.mem_map.mp hlayer
    exact .inl ⟨layer, (List.mem_filter.mp hfilter).1, hlong⟩
  · exact .inr hlights

/-- **References survive the removal of a layer.** Every other id is listed with the new number of
its layer, and keycodes that do not refer to the removed layer are resolved as before. The
references that are errors afterwards were errors before or name that layer. -/
theorem removeLayer_keeps_references (hnumbered : l.Numbered)
    (hids : (l.layers.filterMap (·.id?)).Nodup) (hpos : 0 < i) (hlt : i < l.layers.length) :
    ∃ removed changed, l.layerAt? i = some removed ∧ l.removeLayer i = .ok (removed, changed) ∧
      (∀ id, removed.id? ≠ some id →
        changed.layerIds.lookup id = (l.layerIds.lookup id).map (movedDown i)) ∧
      (∀ n layer, n ≠ i → l.layerAt? n = some layer →
        changed.layerAt? (movedDown i n) = some { layer with index := movedDown i n }) ∧
      (∀ keycode, (∀ id ∈ Keycode.layerReferences keycode, removed.id? ≠ some id) →
        Keycode.resolveLayers changed.layerIds keycode =
          Keycode.resolveLayers (l.layerIds.map fun e => (e.1, movedDown i e.2)) keycode) ∧
      ∀ board table?,
        (¬(Subject.of l board table?).Overlong → ∃ before after,
          (Subject.of l board table?).validate = .ok before ∧
          (Subject.of changed board table?).validate = .ok after ∧
          before.Blames (layerUses l fun id => id ∉ l.layers.filterMap (·.id?)) ∧
          after.Blames (((layerUses l fun id =>
            id ∉ l.layers.filterMap (·.id?) ∨ removed.id? = some id).filter
              (·.layer? ≠ some i)).map (moveDown i))) ∧
        ∀ s ∈ [Subject.of l board table?, Subject.of changed board table?], s.Overlong →
          ∃ e : Number.IntegerError, e.Exceeds ∧ s.validate = .error e := by
  obtain ⟨hnumbered', removed, hremoved, hremove⟩ := removeLayer_eq_withoutLayer hnumbered hpos hlt
  have hlookup := lookup_layerIds_withoutLayer hids hnumbered hremoved
  refine ⟨removed, _, hremoved, hremove, hlookup, fun n layer hne hlayer => ?_,
    fun keycode hother => ?_, fun board table? => ⟨fun hshort => ?_, fun s _ hlong =>
      Subject.exists_validate_eq_error hlong⟩⟩
  · obtain ⟨hmem, rfl⟩ := hnumbered.of_layerAt? hlayer
    exact hnumbered'.layerAt?_index
      (List.mem_map_of_mem (List.mem_filter.mpr ⟨hmem, bne_iff_ne.mpr hne⟩))
  · refine Keycode.resolveLayers_congr fun id hid => ?_
    rw [hlookup id (hother id hid), Pairs.lookup_map_snd]
  · obtain ⟨before, hbefore, hblames⟩ := exists_blames hshort
    obtain ⟨after, hafter, hblames'⟩ := exists_blames (mt overlong_of_withoutLayer hshort)
    refine ⟨before, after, hbefore, hafter, hblames, ?_⟩
    have hstray : ∀ id, id ∉ (l.withoutLayer i).layers.filterMap (·.id?) ↔
        id ∉ l.layers.filterMap (·.id?) ∨ removed.id? = some id := by
      intro id
      have hleft := exists_id_withoutLayer_iff hids hnumbered hremoved id fun _ => True
      simp only [and_true] at hleft
      rw [List.mem_filterMap, List.mem_filterMap, hleft, not_and_or, Classical.not_not, or_comm]
    simp only [hstray] at hblames'
    rwa [layerUses_withoutLayer] at hblames'

/-- A layout with a layer behind one that is referred to from below, from above and from a tap
dance. -/
def stackedLayout : Layout :=
  { Compilation.cornerLayout with
    layers := Compilation.cornerLayout.layers ++ [
      { index := 2, name := "Fun", id? := some "fun", keys := [(⟨1, 0⟩, {
          keycode := "LT(@nav, MO(@fun))", position := ⟨1, 0⟩ })] }] }

theorem removeLayer_keeps_references_stackedLayout :
    stackedLayout.Numbered ∧ (stackedLayout.layers.filterMap (·.id?)).Nodup ∧
      ∃ removed changed, stackedLayout.removeLayer 1 = .ok (removed, changed) ∧
        changed.layerIds.lookup "fun" = some 1 ∧
        Keycode.resolveLayers changed.layerIds "MO(@fun)" = .ok "MO(1)" ∧
        ∃ after, (Subject.of changed Compilation.cornerBoard none).validate = .ok after ∧
          after.Blames [
            ⟨.unknownLayerReference, some 0, some ⟨0, 1⟩, some "LT(@nav, TD( caps ))", some "@nav"⟩,
            ⟨.unknownLayerReference, some 1, some ⟨1, 0⟩, some "LT(@nav, MO(@fun))", some "@nav"⟩,
            ⟨.unknownLayerReference, none, none, some "MO(@nav)", some "@nav"⟩] := by
  have hnone : misnumbered? 0 stackedLayout.layers = none := by decide
  have hnumbered : stackedLayout.Numbered := fun i layer hlayer => by
    simpa using misnumbered?_eq_none_iff.mp hnone i layer hlayer
  have hids : (stackedLayout.layers.filterMap (·.id?)).Nodup := by decide
  have hshort : ¬(Subject.of stackedLayout Compilation.cornerBoard none).Overlong :=
    Subject.not_overlong (by decide +kernel) (by decide +kernel)
  obtain ⟨removed, changed, hlayer, hremove, hlookup, -, hresolve, hreports⟩ :=
    removeLayer_keeps_references (i := 1) hnumbered hids (by decide) (by decide)
  have hnav : removed.id? = some "nav" := by
    cases hlayer
    rfl
  refine ⟨hnumbered, hids, removed, changed, hremove, ?_, ?_, ?_⟩
  · rw [hlookup "fun" (by simp [hnav])]
    decide +kernel
  · rw [hresolve "MO(@fun)" (by rw [hnav]; decide +kernel)]
    exact toOption_eq_some_iff.mp (by decide +kernel)
  · obtain ⟨-, after, -, hafter, -, hblames⟩ := (hreports Compilation.cornerBoard none).1 hshort
    refine ⟨after, hafter, ?_⟩
    simp only [hnav] at hblames
    convert hblames
    decide +kernel

end Firmware

end Keyforge
