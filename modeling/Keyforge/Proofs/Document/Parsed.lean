import Keyforge.Proofs.Document.Sound

/-!
# What documents give

Before its frontmatter is closed a document has no content; from then on everything that was read is
sound (`begun_readLines`).
-/

namespace Keyforge.Document

open Keyforge.Text

variable {limits : Limits} {now : Time.Stamp} {opened line : Nat} {lines : List (List Char)}
  {full : List Char}

/-! ### Frontmatter -/

theorem name_of_checked {value : Datum} {name : String}
    (h : Datum.Decoder.checked .text Metadata.checkName value = .ok name) :
    name.toList ≠ [] ∧ Trimmed name.toList := by
  rw [Datum.Decoder.checked, Datum.Verdict.andThen_eq_ok_iff] at h
  obtain ⟨text, -, h⟩ := h
  obtain ⟨rfl, hne⟩ := nonBlank_eq_ok_iff.mp h
  rw [strip] at hne ⊢
  rw [String.toList_ofList]
  exact ⟨fun hnil => hne (by rw [hnil]), trimmed_trim _⟩

theorem name_of_ofEntries {es : List (Datum × Datum)} {m : Metadata}
    (h : Metadata.ofEntries now es = .ok m) : m.name.toList ≠ [] ∧ Trimmed m.name.toList := by
  simp only [Metadata.ofEntries, Datum.Verdict.andThen_eq_ok_iff, Datum.Verdict.functor_map_eq,
    Datum.Verdict.seq_eq_ok_iff, Datum.Verdict.map_eq_ok_iff, Metadata.checkDates,
    Datum.Verdict.require_eq_ok_iff] at h
  obtain ⟨_, ⟨_, _, ⟨_, _, ⟨_, _, ⟨_, _, ⟨_, _, ⟨_, _, ⟨_, _, ⟨_, _, ⟨_, _, ⟨_, _, ⟨name, hname, rfl⟩, -, rfl⟩,
    -, rfl⟩, -, rfl⟩, -, rfl⟩, -, rfl⟩, -, rfl⟩, -, rfl⟩, -, rfl⟩, -, rfl⟩, -, rfl⟩, -, rfl⟩ := h
  rw [Datum.required, Datum.Verdict.within_eq_ok_iff] at hname
  split at hname
  next value _ => exact name_of_checked hname
  next => cases hname

theorem readMetadata_eq_ok_iff {m : Metadata} :
    readMetadata limits now opened lines = .ok m ↔
      Frontmatter.load now lines = .ok m ∧ limits.Admits m := by
  rw [readMetadata]
  cases hload : Frontmatter.load now lines with
  | error e =>
    refine ⟨fun h => ?_, fun h => nomatch h.1⟩
    rcases e with error | _ | issues
    · cases error <;> cases h
    · cases h
    · cases h
  | ok metadata =>
    dsimp only
    constructor
    · intro h
      split at h
      next => cases h
      next hversion =>
        split at h
        next => cases h
        next hshort =>
          cases h
          exact ⟨rfl, by simpa using hversion, hshort⟩
    · rintro ⟨⟨⟩, hversion, hshort⟩
      rw [if_neg (by simpa using hversion), if_neg hshort]

theorem sound_readMetadata {m : Metadata} (h : readMetadata limits now opened lines = .ok m) :
    SoundMetadata limits m := by
  obtain ⟨hload, hadmits⟩ := readMetadata_eq_ok_iff.mp h
  refine ⟨hadmits, ?_⟩
  rw [Frontmatter.load] at hload
  split at hload
  next => cases hload
  next =>
    split at hload
    next hentries =>
      cases hload
      exact name_of_ofEntries hentries
    next => cases hload
  next => cases hload

theorem sound_begin {m : Metadata} (h : SoundMetadata limits m) :
    Content.Sound limits { metadata := m } where
  metadata := h
  layers := List.forall_mem_nil _
  categories := List.forall_mem_nil _
  categoryIds := .nil
  settings := List.forall_mem_nil _
  settingNames := .nil
  tapDances := List.forall_mem_nil _
  descriptions := List.forall_mem_nil _

/-- The states after the first line of a document's frontmatter: until it is closed there is nothing
to be sound. -/
def State.Begun (limits : Limits) (s : State) : Prop :=
  (∃ opened lines, s = .frontmatter opened lines) ∨ s.Sound limits

theorem readLine_closing {line opened : Nat} {full : List Char} (lines : List (List Char))
    (h : (trimRight full == ['-', '-', '-']) = true) :
    readLine limits now line full (.frontmatter opened lines) =
      (readMetadata limits now opened lines).map fun metadata => .inside { metadata } .body := by
  refine readLine_of_map_done ?_
  rw [consume, if_pos h, map_map]

theorem readLine_not_closing (lines : List (List Char))
    (h : ¬(trimRight full == ['-', '-', '-']) = true) :
    readLine limits now line full (.frontmatter opened lines) =
      .ok (.frontmatter opened (lines ++ [full])) := by
  refine readLine_of_done ?_
  rw [consume, if_neg h]

theorem readLine_frontmatter {t : State}
    (h : readLine limits now line full (.frontmatter opened lines) = .ok t) :
    if trimRight full == ['-', '-', '-'] then t.Sound limits
    else t = .frontmatter opened (lines ++ [full]) := by
  split
  next hclosed =>
    rw [readLine_closing lines hclosed, map_eq_ok_iff] at h
    obtain ⟨m, hm, rfl⟩ := h
    exact ⟨_, _, rfl, sound_begin (sound_readMetadata hm), fun _ => rfl⟩
  next hopen =>
    rw [readLine_not_closing lines hopen] at h
    cases h
    rfl

theorem begun_readLine (hfull : OneLine full) {s t : State} (hs : s.Begun limits)
    (h : readLine limits now line full s = .ok t) : t.Begun limits := by
  rcases hs with ⟨opened, lines, rfl⟩ | hs
  · have hline := readLine_frontmatter h
    split at hline
    · exact .inr hline
    · exact .inl ⟨_, _, hline⟩
  · exact .inr (sound_readLine hfull hs h)

theorem begun_readLine_start {t : State} (h : readLine limits now line full .start = .ok t) :
    t = .start ∨ t.Begun limits := by
  rw [readLine] at h
  split at h
  next => cases h
  next u hconsume =>
    cases h
    rw [consume] at hconsume
    split at hconsume
    · cases hconsume
      exact .inl rfl
    · split at hconsume <;> cases hconsume
      exact .inr (.inl ⟨_, _, rfl⟩)
  next u hconsume => exact absurd (seenAgain_of_consume hconsume).rank_lt (Nat.not_lt_zero _)

/-- The lines of a document lead to a sound state, unless it is still in its frontmatter. -/
theorem begun_readLines (hlines : ∀ full ∈ lines, OneLine full) {s t : State} (hs : s.Begun limits)
    (h : (readLines limits now line lines s).result = .ok t) : t.Begun limits :=
  invariant_readLines (fun full hfull _ _ _ => begun_readLine (hlines full hfull)) hs h

theorem begun_readLines_start (hlines : ∀ full ∈ lines, OneLine full) {t : State}
    (h : (readLines limits now line lines .start).result = .ok t) :
    t = .start ∨ t.Begun limits := by
  refine invariant_readLines (P := fun s => s = .start ∨ s.Begun limits) ?_ (.inl rfl) h
  rintro full hfull line s u (rfl | hs) hu
  · exact begun_readLine_start hu
  · exact .inr (begun_readLine (hlines full hfull) hs hu)

theorem sound_of_closing {before after : List (List Char)}
    (hlines : ∀ line ∈ before ++ full :: after, OneLine line)
    (hclosing : (trimRight full == ['-', '-', '-']) = true) {s t : State} (hs : s.Begun limits)
    (h : (readLines limits now line (before ++ full :: after) s).result = .ok t) :
    t.Sound limits := by
  obtain ⟨u, hu, h⟩ := readLines_append_eq_ok_iff.mp h
  obtain ⟨v, hv, h⟩ := readLines_cons_eq_ok_iff.mp h
  have hbefore : ∀ line ∈ before, OneLine line := fun line hmem =>
    hlines line (List.mem_append_left _ hmem)
  have hafter : ∀ line ∈ after, OneLine line := fun line hmem =>
    hlines line (List.mem_append_right _ (List.mem_cons_of_mem full hmem))
  have hfull : OneLine full := hlines full (List.mem_append_right _ List.mem_cons_self)
  refine sound_readLines hafter ?_ h
  rcases begun_readLines hbefore hs hu with ⟨opened, lines, rfl⟩ | hsound
  · have hline := readLine_frontmatter hv
    rwa [if_pos hclosing] at hline
  · exact sound_readLine hfull hsound hv

theorem sound_of_settles {s : State} {c : Content} (hs : s = .start ∨ s.Begun limits)
    (h : Settles s c) : c.Sound limits ∧ (c.layers = [] → c.uses = []) := by
  obtain ⟨inner, region, rfl⟩ := h.exists_inside
  rcases hs with hs | ⟨_, _, hs⟩ | ⟨_, _, ⟨⟩, hinner, hregion⟩
  · cases hs
  · cases hs
  · refine sound_closeRegion hinner hregion ?_
    have hfinish := h 0
    cases region with
    | tableHeader | tableSeparator => cases hfinish
    | body | skipped | categories | descriptions | settings | tapDances | layer | table =>
      exact hfinish

/-! ### Layouts -/

theorem SoundLayer.noted {layer : Layer} (h : SoundLayer layer) {notes : List DescriptionNote}
    (hnotes : ∀ note ∈ notes, SoundNote note) (place : Nat) :
    (Layer.noted notes place layer).Legible ∧
      ∀ p key, (p, key) ∈ (Layer.noted notes place layer).keys → key.Described := by
  have hmem : ∀ p key, (p, key) ∈ (Layer.noted notes place layer).keys →
      ∃ original description?, (p, original) ∈ layer.keys ∧ key = { original with description? } ∧
        ∀ text, description? = some text →
          ∃ note ∈ notes, note.position = p ∧ note.text = text ∧ text ≠ "" := by
    intro p key hkey
    obtain ⟨⟨q, original⟩, horiginal, heq⟩ := List.mem_map.mp hkey
    cases heq
    obtain ⟨description?, hfold, hspec⟩ := Key.exists_foldl_noted notes place p original
    refine ⟨original, description?, horiginal, hfold, fun text htext => ?_⟩
    refine (hspec text htext).resolve_left fun hsome => ?_
    rw [h.undescribed p original horiginal] at hsome
    cases hsome
  refine ⟨⟨h.legible.index, h.legible.name, h.legible.id, h.legible.category, ⟨?_, ?_, ?_⟩, ?_⟩, ?_⟩
  · exact List.pairwise_map.mpr h.legible.tabular.sorted
  · intro p key hkey
    obtain ⟨original, description?, horiginal, rfl, -⟩ := hmem p key hkey
    exact h.legible.tabular.placed p original horiginal
  · intro p key hkey
    obtain ⟨original, description?, horiginal, rfl, -⟩ := hmem p key hkey
    have hlegible := h.legible.tabular.legible p original horiginal
    exact ⟨hlegible.cell, hlegible.noBar, hlegible.oneLine, hlegible.noLight⟩
  · have hnumbered := Layer.numberFrom_map (f := fun p key => notes.foldl (Key.noted place p) key)
      (fun p key slot => Key.foldl_noted_slot notes place p key slot) 0 layer.keys
    rw [h.legible.numbered] at hnumbered
    exact hnumbered
  · intro p key hkey text htext
    obtain ⟨original, description?, horiginal, rfl, hspec⟩ := hmem p key hkey
    obtain ⟨note, hnote, hposition, rfl, hne⟩ := hspec text htext
    obtain ⟨hrow, hcol, hone, htrimmed⟩ := hnotes note hnote
    rw [hposition, (h.legible.tabular.placed p original horiginal).1] at hrow hcol
    refine ⟨⟨fun hnil => hne ?_, htrimmed, hone⟩, hrow, hcol⟩
    rw [← String.ofList_toList (s := note.text), hnil]

theorem legible_of_make {t made : TapDance} (hone : ∀ code ∈ t.keycodes, OneLine code.toList)
    (h : t.make = .ok made) : made.Legible := by
  obtain ⟨hname, hsame, hsingle, hdouble, hhold⟩ := TapDance.make_eq_ok_iff.mp h
  have hsome : ∀ {code? made? : Option String}, (∀ code, code? = some code → code ∈ t.keycodes) →
      checkSome TapDance.checkKeycode code? = .ok made? →
        ∀ code, made? = some code → Phrase code.toList := by
    intro code? made? hmem hcheck code hcode
    rcases checkSome_eq_ok_iff.mp hcheck with ⟨-, hnone⟩ | ⟨given, result, hgiven, hresult, hcheck⟩
    · rw [hnone] at hcode
      cases hcode
    · rw [hresult] at hcode
      cases hcode
      exact phrase_of_nonBlank (hone given (hmem given hgiven)) hcheck
  refine ⟨hsame ▸ hname, ?_⟩
  intro code hcode
  simp only [TapDance.keycodes, List.mem_cons, List.mem_append, Option.mem_toList] at hcode
  rcases hcode with rfl | hcode | hcode
  · exact phrase_of_nonBlank (hone t.single List.mem_cons_self) hsingle
  · exact hsome (fun code hd => by simp [TapDance.keycodes, hd]) hdouble code hcode
  · exact hsome (fun code hd => by simp [TapDance.keycodes, hd]) hhold code hcode

theorem legible_makeTapDances {drafts : List TapDanceDraft} {made tapDances : List TapDance}
    (hdrafts : ∀ draft ∈ drafts, ∀ action ∈ draft.actions,
      OneLine action.2.toList ∧ Trimmed action.2.toList)
    (hmade : ∀ t ∈ made, t.Legible) (h : makeTapDances drafts made = .ok tapDances) :
    ∀ t ∈ tapDances, t.Legible := by
  induction drafts generalizing made with
  | nil =>
    cases h
    exact hmade
  | cons draft drafts ih =>
    obtain ⟨single, t, hsingle, hmake, -, hrest⟩ := makeTapDances_cons_eq_ok_iff.mp h
    have hlookup : ∀ word code, draft.actions.lookup word = some code → OneLine code.toList := by
      intro word code hcode
      obtain ⟨before, after, hactions, -⟩ := List.lookup_eq_some_iff.mp hcode
      exact (hdrafts draft List.mem_cons_self (word, code) (by simp [hactions])).1
    refine ih (List.forall_mem_cons.mp hdrafts).2
      (forall_mem_concat.mpr ⟨hmade, ?_⟩) hrest
    · refine legible_of_make ?_ hmake
      intro code hcode
      simp only [TapDance.keycodes, List.mem_cons, List.mem_append, Option.mem_toList] at hcode
      rcases hcode with rfl | hcode | hcode
      · exact hlookup _ _ hsingle
      · exact hlookup _ _ hcode
      · exact hlookup _ _ hcode

theorem legible_of_gives {c : Content} {l : Layout} (hc : c.Sound limits) (h : c.Gives l) :
    l.Legible := by
  have hlayer : ∀ layer ∈ l.layers, ∃ (place : Nat) (original : Layer), original ∈ c.layers ∧
      layer = Layer.noted c.descriptions place original := by
    intro layer hlayer
    rw [h.layers, describe_eq] at hlayer
    obtain ⟨place, hplace, rfl⟩ := List.mem_mapIdx.mp hlayer
    exact ⟨place, _, List.getElem_mem hplace, rfl⟩
  refine ⟨?_, ?_, h.categories ▸ hc.categories, ?_, h.settings ▸ hc.settings,
    h.settings ▸ hc.settingNames, h.fits⟩
  · intro layer hmem
    obtain ⟨place, original, horiginal, rfl⟩ := hlayer layer hmem
    exact ((hc.layers original horiginal).noted hc.descriptions place).1
  · intro layer hmem
    obtain ⟨place, original, horiginal, rfl⟩ := hlayer layer hmem
    exact ((hc.layers original horiginal).noted hc.descriptions place).2
  · exact legible_makeTapDances hc.tapDances (by simp) h.tapDances

/-- What is read is legible. -/
theorem legible_of_parse {document : String} {l : Layout}
    (h : (parse limits now document).result = .ok l) :
    l.Legible ∧ SoundMetadata limits l.metadata := by
  obtain ⟨s, c, hread, hs, hgives⟩ := parse_eq_ok_iff.mp h
  have hlines : ∀ full ∈ splitLinesFrom [] document.toList, OneLine full := fun full hfull =>
    oneLine_of_mem_splitLinesFrom oneLine_nil hfull
  obtain ⟨hsound, -⟩ := sound_of_settles (begun_readLines_start hlines hread) hs
  exact ⟨legible_of_gives hsound hgives, hgives.metadata ▸ hsound.metadata⟩

end Keyforge.Document
