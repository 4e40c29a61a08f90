import Keyforge.Proofs.Firmware.References

/-!
# Actions of tap dances

The keycodes of keys have layers and then tap dances replaced; those of the actions of tap dances
have only layers replaced. So an action that refers to a tap dance keeps the name as it is, and fits
the declared enumerators only if the name is one (`RefersToEnumerators`).
-/

namespace Keyforge.Firmware.Compilation

variable {c : Compilation}

def actions (t : TapDance) : List String := [t.single, optionalCode t.double?, optionalCode t.hold?]

def actionRow (t : TapDance) (codes : List String) : String :=
  indent ++ "[" ++ t.enumerator ++ "] = \x7b " ++ String.intercalate ", " codes ++ ", KC_NO \x7d,"

/-- A keycode that refers only to enumerators of the layout's tap dances. -/
def RefersToEnumerators (c : Compilation) (keycode : String) : Prop :=
  ∀ name ∈ Keycode.tapDanceReferences keycode, ∃ t ∈ c.layout.tapDances, t.enumerator = name

theorem refersToEnumerators_of_nil {IsNumber : String → Nat → Prop} {keycode resolved : String}
    (hreplaced : Keycode.LayersReplaced IsNumber keycode.toList resolved.toList)
    (hnil : Keycode.tapDanceReferences keycode = []) : c.RefersToEnumerators resolved := by
  intro name hname
  have hmem := Keycode.mem_tapDanceReferences_of_replaced hreplaced (by simp [hnil]) hname
  rw [hnil] at hmem
  exact absurd hmem List.not_mem_nil

theorem layersReplaced_of_resolveLayers (hfits : c.layout.Fits) {keycode resolved : String}
    (hknown : c.layout.LayersKnown keycode)
    (h : Keycode.resolveLayers c.layout.layerIds keycode = .ok resolved) :
    Keycode.LayersReplaced c.layout.IsNumberOf keycode.toList resolved.toList := by
  obtain ⟨other, hother, hreplaced⟩ := exists_resolved hfits hknown
  obtain rfl : other = resolved := Except.ok.inj (hother.symm.trans h)
  exact hreplaced

/-! ### Actions that are left out -/

theorem forall_mem_actions {P : String → Prop} {t : TapDance} (hnone : P "KC_NO")
    (h : ∀ keycode ∈ t.keycodes, P keycode) : ∀ action ∈ actions t, P action := by
  obtain ⟨hsingle, hothers⟩ := List.forall_mem_cons.mp h
  obtain ⟨hdouble, hhold⟩ := List.forall_mem_append.mp hothers
  simp only [actions, List.forall_mem_cons]
  exact ⟨hsingle, forall_optionalCode hnone hdouble, forall_optionalCode hnone hhold,
    List.forall_mem_nil _⟩

theorem mem_actions {t : TapDance} {keycode : String} (h : keycode ∈ t.keycodes)
    (hne : keycode ≠ "") : keycode ∈ actions t := by
  have hoptional : ∀ keycode? : Option String, keycode ∈ keycode?.toList →
      keycode = optionalCode keycode? := by
    intro keycode? hmem
    obtain rfl := Option.mem_toList.mp hmem
    unfold optionalCode
    split
    next heq => cases heq
    next heq => exact absurd (Option.some.inj heq) hne
    next heq => exact Option.some.inj heq
  rcases List.mem_cons.mp h with rfl | hothers
  · exact List.mem_cons_self
  · rcases List.mem_append.mp hothers with hdouble | hhold
    · simp [actions, ← hoptional _ hdouble]
    · simp [actions, ← hoptional _ hhold]

/-! ### The table -/

theorem actionCode_of_resolveLayers {keycode code : String}
    (h : Keycode.resolveLayers c.layout.layerIds keycode = .ok code) :
    c.actionCode keycode = .ok code := by
  rw [actionCode, h]

theorem tapDanceEntry_eq_ok {t : TapDance} {code : String → String}
    (h : ∀ action ∈ actions t,
      Keycode.resolveLayers c.layout.layerIds action = .ok (code action)) :
    c.tapDanceEntry t = .ok (actionRow t ((actions t).map code)) := by
  have hcodes : (actions t).mapM c.actionCode = .ok ((actions t).map code) :=
    mapM_eq_ok_map fun action haction => actionCode_of_resolveLayers (h action haction)
  rw [tapDanceEntry, ← actions, hcodes]
  rfl

theorem exists_table {code : String → String}
    (h : ∀ t ∈ c.layout.tapDances, ∀ action ∈ actions t,
      Keycode.resolveLayers c.layout.layerIds action = .ok (code action)) :
    ∃ lines, c.tapDanceLines = .ok lines ∧ (c.layout.tapDances ≠ [] → ∃ before behind,
      lines = before ++ "static tap_dance_keycodes_t tap_dance_keycodes[] = \x7b" ::
        c.layout.tapDances.map (fun t => actionRow t ((actions t).map code)) ++
        "\x7d;" :: behind) := by
  have hentries := mapM_eq_ok_map fun t ht => tapDanceEntry_eq_ok (h t ht)
  cases hempty : c.layout.tapDances.isEmpty with
  | true =>
    refine ⟨[], by rw [tapDanceLines, hempty]; rfl, fun hne => ?_⟩
    exact absurd (List.isEmpty_iff.mp hempty) hne
  | false =>
    refine ⟨_, by rw [tapDanceLines, hempty, hentries]; rfl, fun _ => ?_⟩
    refine ⟨["enum tap_dance_ids \x7b"] ++
        c.layout.tapDances.map (fun t => indent ++ t.enumerator ++ ",") ++ ["\x7d;", ""] ++
        tapDanceType ++ [""], ?behind, ?heq⟩
    case heq =>
      simp only [List.append_assoc, List.cons_append, List.nil_append]
      rfl

/-- **Actions keep their references to tap dances.** They are written with their layer ids replaced
and the same otherwise. What the table refers to is declared exactly if what the actions refer to,
with their layer ids replaced, is. -/
theorem actions_declared_iff {c : Compilation} {report : Report}
    (hcheck : c.layout.check = .ok c.layout)
    (hreport : c.toSubject.validate = .ok report) (hvalid : report.isValid = true) :
    ∃ code : String → String,
      (∀ t ∈ c.layout.tapDances, ∀ action ∈ actions t,
        Keycode.LayersReplaced c.layout.IsNumberOf action.toList (code action).toList ∧
        ('@' ∉ action.toList → code action = action)) ∧
      (∃ lines, c.tapDanceLines = .ok lines ∧ (c.layout.tapDances ≠ [] → ∃ before behind,
        lines = before ++ "static tap_dance_keycodes_t tap_dance_keycodes[] = \x7b" ::
          c.layout.tapDances.map (fun t => actionRow t ((actions t).map code)) ++
          "\x7d;" :: behind)) ∧
      ((∀ t ∈ c.layout.tapDances, ∀ action ∈ actions t, c.RefersToEnumerators (code action)) ↔
        ∀ t ∈ c.layout.tapDances, ∀ keycode ∈ t.keycodes, ∀ resolved,
          Keycode.resolveLayers c.layout.layerIds keycode = .ok resolved →
            c.RefersToEnumerators resolved) ∧
      ((∀ t ∈ c.layout.tapDances, ∀ keycode ∈ t.keycodes,
          Keycode.tapDanceReferences keycode = []) →
        ∀ t ∈ c.layout.tapDances, ∀ action ∈ actions t, c.RefersToEnumerators (code action)) := by
  have hlinked := Subject.linked_of_validate hreport hvalid
  have hfits := Layout.check_eq_ok_iff.mp hcheck
  have hnone := layersKnown_none c.layout
  have htapNone : Keycode.tapDanceReferences "KC_NO" = [] :=
    Keycode.tapDanceReferences_of_notMem (by decide)
  have hexists : ∀ action, (∃ t ∈ c.layout.tapDances, action ∈ actions t) → ∃ code,
      Keycode.resolveLayers c.layout.layerIds action = .ok code ∧
      Keycode.LayersReplaced c.layout.IsNumberOf action.toList code.toList := by
    rintro action ⟨t, ht, haction⟩
    exact exists_resolved hfits (forall_mem_actions hnone (hlinked.actionLayers t ht) action haction)
  choose! code hcode using hexists
  have hresolved : ∀ t ∈ c.layout.tapDances, ∀ action ∈ actions t,
      Keycode.resolveLayers c.layout.layerIds action = .ok (code action) :=
    fun t ht action haction => (hcode action ⟨t, ht, haction⟩).1
  have hreplaced : ∀ t ∈ c.layout.tapDances, ∀ action ∈ actions t,
      Keycode.LayersReplaced c.layout.IsNumberOf action.toList (code action).toList :=
    fun t ht action haction => (hcode action ⟨t, ht, haction⟩).2
  refine ⟨code, fun t ht action haction => ⟨hreplaced t ht action haction, fun hat => ?_⟩,
    exists_table hresolved, ⟨fun h => ?_, fun h => ?_⟩, fun h t ht action haction => ?_⟩
  · exact String.toList_injective ((hreplaced t ht action haction).eq_of_at_notMem hat)
  · intro t ht keycode hkeycode resolved hkeycodeResolved
    by_cases hempty : keycode = ""
    · -- an empty keycode is left out of the table, but it refers to nothing
      subst hempty
      have hknown := hlinked.actionLayers t ht "" hkeycode
      exact refersToEnumerators_of_nil
        (layersReplaced_of_resolveLayers hfits hknown hkeycodeResolved)
        (Keycode.tapDanceReferences_of_notMem (by decide))
    · have haction := mem_actions hkeycode hempty
      obtain rfl : code keycode = resolved :=
        Except.ok.inj ((hresolved t ht keycode haction).symm.trans hkeycodeResolved)
      exact h t ht keycode haction
  · intro t ht action haction
    have hall := forall_mem_actions (fun resolved hresolvedNone => refersToEnumerators_of_nil
      (layersReplaced_of_resolveLayers hfits hnone hresolvedNone) htapNone) (h t ht)
    exact hall action haction _ (hresolved t ht action haction)
  · have hreferences := forall_mem_actions htapNone (h t ht)
    exact refersToEnumerators_of_nil (hreplaced t ht action haction) (hreferences action haction)

/-- The keymap of the corner board with a tap dance whose single tap is another one. -/
def nestedKeymap : Compilation :=
  { cornerKeymap with layout := { cornerLayout with tapDances := [
      { name := "caps", single := "TD(lock)", hold? := some "KC_LSFT" },
      { name := "lock", single := "KC_CAPS" }] } }

theorem actions_declared_iff_nestedKeymap :
    nestedKeymap.layout.check = .ok nestedKeymap.layout ∧
      (∃ report, nestedKeymap.toSubject.validate = .ok report ∧ report.isValid = true) ∧
      (∃ lines, nestedKeymap.tapDanceLines = .ok lines ∧
        "    [TD_CAPS] = \x7b TD(lock), KC_NO, KC_LSFT, KC_NO \x7d," ∈ lines) ∧
      ¬nestedKeymap.RefersToEnumerators "TD(lock)" := by
  have hcheck : nestedKeymap.layout.check = .ok nestedKeymap.layout := by
    have hproblem : nestedKeymap.layout.problem? = none := by decide
    rw [Layout.check, hproblem]
  have hreport : nestedKeymap.toSubject.validate =
      .ok (.ofFindings nestedKeymap.toSubject.findings) :=
    Subject.validate_eq_ok (Subject.not_overlong (by decide +kernel) (by decide +kernel))
  have hvalid : (Report.ofFindings nestedKeymap.toSubject.findings).isValid = true := by
    have hany : ∀ slots ∈ cornerBoard.geometry.positions.permutations',
        (Report.ofFindings (Subject.findings { nestedKeymap.toSubject with
          coordinates := ⟨cornerBoard.geometry, slots⟩ })).isValid = true := by
      decide +kernel
    exact hany _ (List.mem_permutations'.mpr cornerBoard.geometry.slots_perm_positions)
  obtain ⟨code, hcode, ⟨lines, hlines, htable⟩, -, -⟩ :=
    actions_declared_iff hcheck hreport hvalid
  refine ⟨hcheck, ⟨_, hreport, hvalid⟩, ⟨lines, hlines, ?_⟩, ?_⟩
  · obtain ⟨before, behind, rfl⟩ := htable (by decide)
    have hsame : (actions ⟨"caps", "TD(lock)", none, some "KC_LSFT"⟩).map code =
        ["TD(lock)", "KC_NO", "KC_LSFT"] := by
      refine (List.map_congr_left fun action haction => ?_).trans (List.map_id _)
      refine (hcode _ List.mem_cons_self action haction).2 ?_
      revert action
      decide
    refine List.mem_append_left _ (List.mem_append_right _ (List.mem_cons_of_mem _ ?_))
    refine List.mem_map.mpr ⟨_, List.mem_cons_self, ?_⟩
    rw [hsame]
    decide
  · have hreferences : Keycode.tapDanceReferences "TD(lock)" = ["lock"] := by decide +kernel
    have hother : ¬∃ t ∈ nestedKeymap.layout.tapDances, t.enumerator = "lock" := by decide
    intro h
    exact hother (h "lock" (by simp [hreferences]))

end Keyforge.Firmware.Compilation
