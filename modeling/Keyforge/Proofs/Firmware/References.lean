import Keyforge.Firmware.TapDance
import Keyforge.Proofs.Firmware.Keymap
import Keyforge.Proofs.Firmware.Validation
import Mathlib.Data.List.Permutation

/-!
# References in the sources

The checks look for references in the keycodes as they are, while the sources have the layers
replaced first and the tap dances in what comes out. The checks are enough nevertheless: a known id has
a number (`exists_resolved`), replacing layers makes no new references to tap dances, and each tap
dance is declared once, because names differ in their enumerators (`exists_tapDanceLines`).
-/

namespace Keyforge.Firmware.Compilation

variable {c : Compilation}

/-- The lines start with an enumeration that has a name exactly once. -/
def DeclaresOnce (lines : List String) (name : String) : Prop :=
  ∃ members rest : List String, members.count name = 1 ∧
    lines = ["enum tap_dance_ids \x7b"] ++ members.map (fun m => indent ++ m ++ ",") ++
      "\x7d;" :: rest

/-! ### Layers -/

theorem exists_resolved {l : Layout} (hfits : l.Fits) {keycode : String}
    (hknown : l.LayersKnown keycode) :
    ∃ resolved, Keycode.resolveLayers l.layerIds keycode = .ok resolved ∧
      Keycode.LayersReplaced l.IsNumberOf keycode.toList resolved.toList :=
  Keycode.exists_resolveLayers fun id hid =>
    Layout.exists_lookup_layerIds hfits.numbered hfits.ids (hknown id hid)

/-! ### Tap dances -/

theorem exists_actionCode (hfits : c.layout.Fits) {keycode : String}
    (hknown : c.layout.LayersKnown keycode) : ∃ code, c.actionCode keycode = .ok code := by
  obtain ⟨resolved, hresolved, -⟩ := exists_resolved hfits hknown
  exact ⟨resolved, by rw [actionCode, hresolved]⟩

theorem layersKnown_none (l : Layout) : l.LayersKnown "KC_NO" := by
  rw [Layout.LayersKnown, Keycode.layerReferences_of_at_notMem (by decide)]
  exact List.forall_mem_nil _

theorem forall_optionalCode {P : String → Prop} {keycode? : Option String} (hnone : P "KC_NO")
    (h : ∀ keycode ∈ keycode?.toList, P keycode) : P (optionalCode keycode?) := by
  unfold optionalCode
  split
  · exact hnone
  · exact hnone
  · exact h _ (List.mem_singleton.mpr rfl)

theorem layersKnown_optionalCode {l : Layout} {keycode? : Option String}
    (h : ∀ keycode ∈ keycode?.toList, l.LayersKnown keycode) :
    l.LayersKnown (optionalCode keycode?) :=
  forall_optionalCode (layersKnown_none l) h

theorem exists_tapDanceEntry (hfits : c.layout.Fits) {t : TapDance}
    (hknown : ∀ keycode ∈ t.keycodes, c.layout.LayersKnown keycode) :
    ∃ entry, c.tapDanceEntry t = .ok entry := by
  obtain ⟨hsingle, hothers⟩ := List.forall_mem_cons.mp hknown
  obtain ⟨hdouble, hhold⟩ := List.forall_mem_append.mp hothers
  have hcodes : ∀ code ∈ [t.single, optionalCode t.double?, optionalCode t.hold?],
      ∃ result, c.actionCode code = .ok result := by
    simp only [List.forall_mem_cons]
    exact ⟨exists_actionCode hfits hsingle,
      exists_actionCode hfits (layersKnown_optionalCode hdouble),
      exists_actionCode hfits (layersKnown_optionalCode hhold), List.forall_mem_nil _⟩
  obtain ⟨codes, hcodes, -⟩ := exists_mapM hcodes
  exact ⟨_, by rw [tapDanceEntry, hcodes]; rfl⟩

theorem exists_tapDanceLines (hlinked : c.toSubject.Linked) (hfits : c.layout.Fits) {t : TapDance}
    (ht : t ∈ c.layout.tapDances) :
    ∃ lines, c.tapDanceLines = .ok lines ∧ DeclaresOnce lines t.enumerator := by
  have hne : c.layout.tapDances.isEmpty = false := by
    rw [List.isEmpty_eq_false_iff]
    exact List.ne_nil_of_mem ht
  obtain ⟨entries, hentries, -⟩ := exists_mapM fun t ht =>
    exists_tapDanceEntry hfits (hlinked.actionLayers t ht)
  refine ⟨_, by rw [tapDanceLines, hne, hentries]; rfl, c.layout.tapDances.map (·.enumerator),
    ?rest, List.count_eq_one_of_mem hfits.tapDances (List.mem_map_of_mem ht), ?heq⟩
  case heq =>
    simp only [List.append_assoc, List.map_map]
    rfl

/-- **Without errors, all references resolve.** Each layer id is replaced by the number of the one
layer that has it, then each name of a tap dance by its enumerator, and nothing else changes. The
tap dances that are referred to are declared exactly once. -/
theorem references_resolve {c : Compilation} {report : Report}
    (hcheck : c.layout.check = .ok c.layout)
    (hnames : ∀ t ∈ c.layout.tapDances, Name.isTapDanceName t.name.toList = true)
    (hreport : c.toSubject.validate = .ok report) (hvalid : report.isValid = true) :
    (∀ layer ∈ c.layout.layers, ∀ entry ∈ layer.keys, ∃ resolved emitted,
      Keycode.resolveLayers c.layout.layerIds entry.2.keycode = .ok resolved ∧
      Keycode.LayersReplaced c.layout.IsNumberOf entry.2.keycode.toList resolved.toList ∧
      Keycode.emit c.layout.layerIds entry.2.keycode = .ok emitted ∧
      Keycode.TapDancesReplaced false resolved.toList emitted.toList ∧
      '@' ∉ emitted.toList ∧
      Keycode.tapDanceReferences emitted =
        (Keycode.tapDanceReferences resolved).map Keycode.enumerator ∧
      ∀ name ∈ Keycode.tapDanceReferences emitted,
        (∃ t ∈ c.layout.tapDances, t.enumerator = name) ∧
        ∃ lines, c.tapDanceLines = .ok lines ∧ DeclaresOnce lines name) ∧
    ∀ t ∈ c.layout.tapDances, ∀ keycode ∈ t.keycodes, ∃ resolved,
      Keycode.resolveLayers c.layout.layerIds keycode = .ok resolved ∧
      Keycode.LayersReplaced c.layout.IsNumberOf keycode.toList resolved.toList ∧
      '@' ∉ resolved.toList := by
  have hlinked := Subject.linked_of_validate hreport hvalid
  have hfits := Layout.check_eq_ok_iff.mp hcheck
  refine ⟨fun layer hlayer entry hentry => ?_, fun t ht keycode hkeycode => ?_⟩
  · obtain ⟨resolved, hresolved, hreplaced⟩ :=
      exists_resolved hfits (hlinked.keyLayers layer hlayer entry hentry)
    have hknown := hlinked.keyTapDances layer hlayer entry hentry
    -- the names that are left with the layers replaced were there before, as names of tap dances
    have hdances : ∀ name ∈ Keycode.tapDanceReferences resolved,
        ∃ t ∈ c.layout.tapDances, t.name = name := by
      intro name hname
      refine hknown name (Keycode.mem_tapDanceReferences_of_replaced hreplaced ?_ hname)
      intro other hother hat
      obtain ⟨t, ht, rfl⟩ := hknown other hother
      exact absurd (Keycode.isIdentifierChar_of_mem_name (hnames t ht) hat) (by decide)
    have hidentifiers : ∀ name ∈ Keycode.tapDanceReferences resolved,
        ∀ d ∈ (Keycode.enumerator name).toList, Keycode.isIdentifierChar d = true := by
      intro name hname d hd
      obtain ⟨t, ht, rfl⟩ := hdances name hname
      exact Keycode.isIdentifierChar_of_mem_enumerator (hnames t ht) hd
    have hreferences := Keycode.tapDanceReferences_resolveTapDances fun name hname d hd =>
      Keycode.isNameChar_of_isIdentifierChar (hidentifiers name hname d hd)
    refine ⟨resolved, Keycode.resolveTapDances resolved, hresolved, hreplaced,
      by rw [Keycode.emit, hresolved]; rfl, Keycode.tapDancesReplaced_resolveTapDances resolved, ?_,
      hreferences, fun name hname => ?_⟩
    · exact Keycode.at_notMem_resolveTapDances hreplaced.at_notMem fun name hname hat =>
        absurd (hidentifiers name hname _ hat) (by decide)
    · rw [hreferences] at hname
      obtain ⟨source, hsource, rfl⟩ := List.mem_map.mp hname
      obtain ⟨t, ht, rfl⟩ := hdances source hsource
      exact ⟨⟨t, ht, rfl⟩, exists_tapDanceLines hlinked hfits ht⟩
  · obtain ⟨resolved, hresolved, hreplaced⟩ :=
      exists_resolved hfits (hlinked.actionLayers t ht keycode hkeycode)
    exact ⟨resolved, hresolved, hreplaced, hreplaced.at_notMem⟩

theorem check_cornerKeymap : cornerKeymap.layout.check = .ok cornerKeymap.layout := by
  have hproblem : cornerKeymap.layout.problem? = none := by decide +kernel
  rw [Layout.check, hproblem]

theorem validate_cornerKeymap :
    cornerKeymap.toSubject.validate = .ok (.ofFindings cornerKeymap.toSubject.findings) :=
  Subject.validate_eq_ok (Subject.not_overlong (by decide +kernel) (by decide +kernel))

theorem isValid_cornerKeymap :
    (Report.ofFindings cornerKeymap.toSubject.findings).isValid = true := by
  -- the order in which the keys are read makes no difference, so it need not be computed
  have hvalid : ∀ slots ∈ cornerBoard.geometry.positions.permutations',
      (Report.ofFindings (Subject.findings { cornerKeymap.toSubject with
        coordinates := ⟨cornerBoard.geometry, slots⟩ })).isValid = true := by
    decide +kernel
  exact hvalid _ (List.mem_permutations'.mpr cornerBoard.geometry.slots_perm_positions)

theorem references_resolve_cornerKeymap :
    cornerKeymap.layout.check = .ok cornerKeymap.layout ∧
      (∃ report, cornerKeymap.toSubject.validate = .ok report ∧ report.isValid = true) ∧
      ∃ emitted,
        Keycode.emit cornerKeymap.layout.layerIds "LT(@nav, TD( caps ))" = .ok emitted ∧
        '@' ∉ emitted.toList ∧
        ∀ name ∈ Keycode.tapDanceReferences emitted,
          ∃ lines, cornerKeymap.tapDanceLines = .ok lines ∧ DeclaresOnce lines name := by
  have hnames : ∀ t ∈ cornerKeymap.layout.tapDances,
      Name.isTapDanceName t.name.toList = true := by decide
  obtain ⟨hkeys, -⟩ :=
    references_resolve check_cornerKeymap hnames validate_cornerKeymap isValid_cornerKeymap
  obtain ⟨_, emitted, -, -, hemit, -, hat, -, hdeclared⟩ :=
    hkeys _ List.mem_cons_self _ List.mem_cons_self
  exact ⟨check_cornerKeymap, ⟨_, validate_cornerKeymap, isValid_cornerKeymap⟩, emitted, hemit, hat,
    fun name hname => (hdeclared name hname).2⟩

end Keyforge.Firmware.Compilation
