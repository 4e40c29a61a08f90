import Keyforge.Proofs.Document.Parsed
import Keyforge.Proofs.Document.Tracked

/-!
# Where documents fail

Every way in which a document can fail to be read (`ReadError.Explained`), and that problems with
cells are where they show (`ReadError.Points`). `State.Follows` says what the reader knows after some
lines, so that each failure can be explained from the lines before it.
-/

namespace Keyforge.Document

open Keyforge.Text ReadError

variable {limits : Limits} {now : Time.Stamp} {lines before rest block : List (List Char)}
  {opened : Nat}

/-! ### Failures -/

/-- The frontmatter of a document's lines: the number of the line that opens it, and the lines
between that one and the next that can close it. -/
def frontmatter? (lines : List (List Char)) : Option (Nat × List (List Char)) :=
  let blank := lines.takeWhile fun full => (trim full).isEmpty
  match lines.dropWhile fun full => (trim full).isEmpty with
  | [] => none
  | opening :: rest =>
    let block := rest.takeWhile fun full => trimRight full != ['-', '-', '-']
    if trim opening = ['-', '-', '-'] ∧ block.length < rest.length then
      some (blank.length + 1, block)
    else none

/-- Why lines are refused. A problem that the frontmatter has at a place in it is counted from the
line that opens it. -/
def ReadError.Explained (now : Time.Stamp) (lines : List (List Char)) : ReadError → Prop
  | .located e => 1 ≤ e.line ∧ (e.line ≤ max 1 lines.length ∨
      ∃ opened block problem mark, frontmatter? lines = some (opened, block) ∧
        Frontmatter.load now block = .error (.unloadable (.malformed problem (some mark))) ∧
        e.line = opened + 1 + mark)
  | .frontmatter error => (∀ problem mark?, error ≠ .malformed problem mark?) ∧
      ∃ opened block, frontmatter? lines = some (opened, block) ∧
        Frontmatter.load now block = .error (.unloadable error)
  | .tooLong n => Number.digitLimit < n ∧
      ∃ full ∈ lines, ∃ digits, IsRun digits full ∧ digits.length = n
  | .rejected _ _ => False

/-- A problem with a cell or a value shows where it is said to be. -/
def ReadError.Points (lines : List (List Char)) : ReadError → Prop
  | .located e => e.Shows lines
  | _ => True

def ReadError.Traced (now : Time.Stamp) (lines : List (List Char)) (e : ReadError) : Prop :=
  e.Explained now lines ∧ e.Points lines

theorem traced_problemAt {problem : Problem} {line : Nat} {column? : Option Nat}
    (h : 1 ≤ line ∧ line ≤ lines.length) (hshows : Located.Shows lines ⟨problem, line, column?⟩) :
    Traced now lines (problemAt problem line column?) :=
  ⟨⟨h.1, .inl (h.2.trans (Nat.le_max_right _ _))⟩, hshows⟩

theorem traced_of_ofLine {line : Nat} {full : List Char} (hline : StandsAt lines line full)
    {e : ReadError} (h : e.OfLine lines line (trim full)) : e.Traced now lines := by
  cases e with
  | located e =>
    obtain ⟨problem, _, column?⟩ := e
    obtain ⟨rfl, hshows⟩ := h
    exact traced_problemAt hline.bounds hshows
  | tooLong n =>
    obtain ⟨hlong, digits, hrun, hlength⟩ := h
    obtain ⟨before, rest, rfl, -⟩ := hline
    exact ⟨⟨hlong, full, List.mem_append_right _ List.mem_cons_self, digits,
      hrun.mono (trim_isInfix full), hlength⟩, trivial⟩
  | frontmatter | rejected => cases h

/-! ### The frontmatter -/

/-- Lines after which a frontmatter is open: blank ones, the one with the number `opened`, which opens
it, and `block`. -/
def Opens (lines : List (List Char)) (opened : Nat) (block : List (List Char)) : Prop :=
  ∃ blank opening, lines = blank ++ opening :: block ∧ opened = blank.length + 1 ∧
    (∀ full ∈ blank, trim full = []) ∧ trim opening = ['-', '-', '-'] ∧
    ∀ full ∈ block, trimRight full ≠ ['-', '-', '-']

theorem Opens.frontmatter?_eq (h : Opens lines opened block) {closing : List Char}
    (hclosing : trimRight closing = ['-', '-', '-']) (rest : List (List Char)) :
    frontmatter? (lines ++ closing :: rest) = some (opened, block) := by
  obtain ⟨blank, opening, rfl, rfl, hblank, hopening, hblock⟩ := h
  have hstop : ∀ full ∈ (opening :: (block ++ closing :: rest)).head?, (trim full).isEmpty = false := by
    rintro full ⟨⟩
    rw [hopening]
    rfl
  have hclosed : ∀ full ∈ (closing :: rest).head?, (trimRight full != ['-', '-', '-']) = false := by
    rintro full ⟨⟩
    rw [hclosing]
    rfl
  obtain ⟨htake, hdrop⟩ := takeWhile_append_stop (p := fun full => (trim full).isEmpty)
    (fun full hfull => List.isEmpty_iff.mpr (hblank full hfull)) hstop
  obtain ⟨hlines, -⟩ := takeWhile_append_stop (p := fun full => trimRight full != ['-', '-', '-'])
    (fun full hfull => bne_iff_ne.mpr (hblock full hfull)) hclosed
  rw [List.append_assoc, List.cons_append, frontmatter?, htake, hdrop]
  dsimp only
  rw [hlines, if_pos ⟨hopening, by simp⟩]

theorem Opens.bounds (h : Opens lines opened block) :
    1 ≤ opened ∧ opened + block.length = lines.length := by
  obtain ⟨blank, opening, rfl, rfl, -⟩ := h
  rw [List.length_append, List.length_cons]
  omega

theorem length_of_frontmatter? (h : frontmatter? lines = some (opened, block)) :
    opened + block.length < lines.length := by
  unfold frontmatter? at h
  dsimp only at h
  split at h
  · cases h
  next opening rest hrest =>
    split at h
    next hclosed =>
      cases h
      have hlength := congrArg List.length
        (List.takeWhile_append_dropWhile (p := fun full => (trim full).isEmpty) (l := lines))
      rw [hrest, List.length_append, List.length_cons] at hlength
      omega
    next => cases h

theorem traced_readMetadata (h : Opens lines opened block) {closing : List Char}
    (hclosing : trimRight closing = ['-', '-', '-']) :
    Ensures (Traced now (lines ++ closing :: rest)) (SoundMetadata limits)
      (readMetadata limits now opened block) := by
  obtain ⟨hopened, hlength⟩ := h.bounds
  have hfound := h.frontmatter?_eq hclosing rest
  have hinside : 1 ≤ opened ∧ opened ≤ (lines ++ closing :: rest).length := by
    rw [List.length_append]
    omega
  refine ⟨fun m hm => sound_readMetadata hm, fun e hread => ?_⟩
  unfold readMetadata at hread
  split at hread
  next problem mark? hload =>
    cases hread
    cases mark? with
    | none => exact traced_problemAt hinside trivial
    | some mark =>
      have hpos : 1 ≤ opened + 1 + mark := by omega
      exact ⟨⟨hpos, .inr ⟨opened, block, problem, mark, hfound, hload, rfl⟩⟩, trivial⟩
  next error hforeign hload =>
    cases hread
    exact ⟨⟨fun problem mark? heq => hforeign problem mark? (by rw [heq]), opened, block, hfound,
      hload⟩, trivial⟩
  next =>
    cases hread
    exact traced_problemAt hinside trivial
  next =>
    cases hread
    exact traced_problemAt hinside trivial
  next =>
    split at hread
    · cases hread
      exact traced_problemAt hinside trivial
    · split at hread
      · cases hread
        exact traced_problemAt hinside trivial
      · cases hread

/-! ### Reading lines -/

/-- What the reader knows after the lines `before` of a document. -/
def State.Follows (limits : Limits) (lines before : List (List Char)) : State → Prop
  | .start => ∀ full ∈ before, trim full = []
  | .frontmatter opened block => Opens before opened block
  | .inside c region => before ≠ [] ∧ (State.inside c region).Tracked limits lines

theorem State.Follows.begun {s : State} (h : s.Follows limits lines before) :
    s = .start ∨ s.Begun limits := by
  cases s with
  | start => exact .inl rfl
  | frontmatter opened block => exact .inr (.inl ⟨opened, block, rfl⟩)
  | inside c region =>
    obtain ⟨-, c, region, heq, hsound, -⟩ := h
    exact .inr (.inr ⟨c, region, heq, hsound⟩)

theorem readLine_start (line : Nat) (full : List Char) :
    readLine limits now line full .start =
      if (trim full).isEmpty then .ok .start
      else if trim full == ['-', '-', '-'] then .ok (.frontmatter line [])
      else .error (problemAt .noFrontmatter line) := by
  refine readLine_of_map_done ?_
  rw [consume]
  split
  · rfl
  · split <;> rfl

theorem tracked_begin (lines : List (List Char)) (m : Metadata) :
    Content.Tracked lines { metadata := m } where
  numbered _ _ h := by cases h
  noted := List.forall_mem_nil _
  uses := List.forall_mem_nil _
  tapDances := List.forall_mem_nil _

/-- A line leads to a state that follows, or explains why it is refused. -/
theorem follows_readLine {full : List Char} (hfull : OneLine full)
    (hlines : lines = before ++ full :: rest) {s : State} (hs : s.Follows limits lines before) :
    Ensures (Traced now lines) (State.Follows limits lines (before ++ [full]))
      (readLine limits now (before.length + 1) full s) := by
  have hline : StandsAt lines (before.length + 1) full := ⟨before, rest, hlines, rfl⟩
  have hne : before ++ [full] ≠ [] := by simp
  cases s with
  | start =>
    rw [readLine_start]
    split
    next hblank =>
      exact .of_ok (forall_mem_concat.mpr ⟨hs, List.isEmpty_iff.mp hblank⟩)
    next =>
      split
      next hopening => exact .of_ok ⟨before, full, rfl, rfl, hs, beq_iff_eq.mp hopening,
        List.forall_mem_nil _⟩
      next => exact .of_error (traced_problemAt hline.bounds trivial)
  | frontmatter opened block =>
    by_cases hclosing : (trimRight full == ['-', '-', '-']) = true
    · rw [readLine_closing block hclosing, hlines]
      refine (traced_readMetadata hs (beq_iff_eq.mp hclosing)).map fun m hm => ⟨hne, _, .body, rfl, ?_⟩
      exact ⟨⟨sound_begin hm, fun _ => rfl⟩, tracked_begin _ m, Region.tracked_of_nil rfl _⟩
    · rw [readLine_not_closing block hclosing]
      obtain ⟨blank, opening, rfl, hopened, hblank, hopening, hblock⟩ := hs
      exact .of_ok ⟨blank, opening, by simp, hopened, hblank, hopening,
        forall_mem_concat.mpr ⟨hblock, fun heq => hclosing (beq_iff_eq.mpr heq)⟩⟩
  | inside c region =>
    have hread : Ensures _ _ (readLine limits now (before.length + 1) full (.inside c region)) :=
      (keeps_tracked hfull hline).ensures_readLine hs.2
    refine ⟨fun t ht => ?_, fun e he => traced_of_ofLine hline (hread.error e he)⟩
    obtain ⟨c', region', rfl, hnext⟩ := hread.ok t ht
    exact ⟨hne, c', region', rfl, hnext⟩

theorem follows_readLines (hrest : ∀ full ∈ rest, OneLine full) (hlines : lines = before ++ rest)
    {s : State} (hs : s.Follows limits lines before) :
    Ensures (Traced now lines) (State.Follows limits lines lines)
      (readLines limits now (before.length + 1) rest s).result := by
  -- the lines before grow by the one that is read, so that the numbers of lines stay right
  induction rest generalizing before s with
  | nil =>
    rw [List.append_nil] at hlines
    subst hlines
    exact .of_ok hs
  | cons full rest ih =>
    rw [result_readLines_cons]
    obtain ⟨hfull, hrest⟩ := List.forall_mem_cons.mp hrest
    refine (follows_readLine hfull hlines hs).bind fun t ht => ?_
    have hnext := ih hrest (hlines.trans (List.append_cons before full rest)) ht
    rwa [List.length_append, List.length_singleton] at hnext

/-! ### The end of the document -/

section End

theorem bounds_last (hne : lines ≠ []) : 1 ≤ lines.length ∧ lines.length ≤ lines.length :=
  ⟨List.length_pos_iff.mpr hne, Nat.le_refl _⟩

theorem tracked_finishContent {s : State} (hs : s.Follows limits lines lines) :
    Ensures (Traced now lines) (fun c => lines ≠ [] ∧ c.Tracked lines)
      (finishContent lines.length s) := by
  cases s with
  | start =>
    refine .of_error ⟨⟨Nat.le_max_right _ _, .inl ?_⟩, trivial⟩
    show max lines.length 1 ≤ max 1 lines.length
    omega
  | frontmatter opened block =>
    obtain ⟨hopened, hlength⟩ := Opens.bounds hs
    exact .of_error (traced_problemAt ⟨hopened, by omega⟩ trivial)
  | inside c region =>
    obtain ⟨hne, _, _, ⟨⟩, ⟨-, hsound⟩, hc, hregion⟩ := hs
    have hclose : Ensures (Traced now lines)
        (fun c => lines ≠ [] ∧ c.Tracked lines) (closeRegion c region) :=
      (tracked_closeRegion hc hsound hregion).mono fun c' hc' => ⟨hne, hc'⟩
    cases region with
    | tableHeader | tableSeparator => exact .of_error (traced_problemAt (bounds_last hne) trivial)
    | body | skipped | categories | descriptions | settings | tapDances | layer | table =>
      exact hclose

theorem traced_checkContent (hne : lines ≠ []) {c : Content} (hc : c.Tracked lines) :
    Ensures (Traced now lines) (fun _ => True) (checkContent lines.length c) := by
  unfold checkContent
  split
  · exact .of_error (traced_problemAt (bounds_last hne) trivial)
  · dsimp only
    split
    next use hfound =>
      obtain ⟨full, hline, hshown⟩ := hc.uses use (List.mem_of_find?_eq_some hfound)
      exact .of_error (traced_problemAt hline.bounds ⟨full, hline, hshown⟩)
    next =>
      split
      · exact .of_ok trivial
      · exact .of_error (traced_problemAt (bounds_last hne) trivial)

theorem traced_makeTapDances {drafts : List TapDanceDraft}
    (hdrafts : ∀ draft ∈ drafts, 1 ≤ draft.line ∧ draft.line ≤ lines.length)
    (made : List TapDance) :
    Ensures (Traced now lines) (fun _ => True) (makeTapDances drafts made) := by
  induction drafts generalizing made with
  | nil => exact .of_ok trivial
  | cons draft drafts ih =>
    obtain ⟨hdraft, hdrafts⟩ := List.forall_mem_cons.mp hdrafts
    rw [makeTapDances]
    split
    · exact .of_error (traced_problemAt hdraft trivial)
    · dsimp only
      split
      · exact .of_error (traced_problemAt hdraft trivial)
      · split
        · exact .of_error (traced_problemAt hdraft trivial)
        · exact ih hdrafts _

/-- What is checked at the end of a document is all that its layout has to meet: the layers are
numbered as they are read, and the references to categories are all noted. -/
theorem fits_of_tracked {c : Content} {count : Nat} {tapDances : List TapDance}
    (hsound : c.Sound limits) (hc : c.Tracked lines) (hcheck : checkContent count c = .ok ())
    (hmade : makeTapDances c.tapDances [] = .ok tapDances) :
    Layout.Fits ⟨c.metadata, (describe c.descriptions c.layers).1, c.categories, tapDances,
      c.settings⟩ := by
  obtain ⟨hne, huses, hids⟩ := checkContent_eq_ok_iff.mp hcheck
  have htapDances := nodup_makeTapDances hmade List.nodup_nil
  have hplain : Layout.Fits ⟨c.metadata, c.layers, c.categories, tapDances, c.settings⟩ := by
    refine ⟨hne, hc.numbered, hsound.categoryIds, hids, htapDances, fun u hu => ?_⟩
    obtain ⟨layer, hlayer, hu⟩ := List.mem_flatMap.mp hu
    have hid := List.mem_map_of_mem (f := (·.id)) hu
    rw [Layout.map_id_layerCategoryUses] at hid
    obtain ⟨use, huse, hsame⟩ := List.mem_map.mp (hc.noted layer hlayer _ hid)
    exact hsame ▸ huses use huse
  -- descriptions are set last, and touch nothing that is required
  have hkept : ∀ (i : Nat) (layer : Layer),
      (Layer.noted c.descriptions i layer).index = layer.index ∧
      (Layer.noted c.descriptions i layer).id? = layer.id? ∧
      (Layer.noted c.descriptions i layer).categoryIds = layer.categoryIds :=
    fun i layer => ⟨rfl, rfl, Layer.categoryIds_noted _ _ _⟩
  refine hplain.withLayers hkept (fun i => ?_) hsound.categoryIds htapDances fun id hid => hid
  rw [describe_eq, List.getElem?_mapIdx]

theorem traced_assemble {c : Content} (hsound : c.Sound limits) (hc : c.Tracked lines)
    (hcheck : checkContent lines.length c = .ok ()) :
    Ensures (Traced now lines) (fun layout => layout.check = .ok layout)
      (assemble c (describe c.descriptions c.layers).1) := by
  have htapDances : Ensures (Traced now lines) _ _ := traced_makeTapDances hc.tapDances []
  cases hmade : makeTapDances c.tapDances [] with
  | error e =>
    rw [assemble, hmade]
    exact .of_error (htapDances.error e hmade)
  | ok tapDances =>
    have hfits := fits_of_tracked hsound hc hcheck hmade
    rw [assemble_eq_ok_iff.mpr ⟨tapDances, hmade, rfl, Layout.problem?_eq_none_iff.mpr hfits⟩]
    exact .of_ok (Layout.check_eq_ok_iff.mpr hfits)

theorem traced_finish {s : State} (hs : s.Follows limits lines lines) :
    Ensures (Traced now lines) (fun layout => layout.check = .ok layout)
      (finish lines.length s).result := by
  have htracked : Ensures (Traced now lines) _ _ := tracked_finishContent hs
  unfold finish
  split
  next e hfinish => exact .of_error (htracked.error e hfinish)
  next c hfinish =>
    obtain ⟨hne, hc⟩ := htracked.ok c hfinish
    have hcheck : Ensures (Traced now lines) _ _ := traced_checkContent hne hc
    split
    next e hrefused => exact .of_error (hcheck.error e hrefused)
    next haccepted =>
      obtain ⟨hsound, -⟩ := sound_of_settles hs.begun (settles_of_finishContent hfinish)
      exact traced_assemble hsound hc haccepted

end End

/-! ### Documents -/

/-- A document is read, or its lines explain why it is not. -/
theorem traced_parse (limits : Limits) (now : Time.Stamp) (document : String) :
    Ensures (Traced now (splitLinesFrom [] document.toList))
      (fun layout => layout.check = .ok layout) (parse limits now document).result := by
  have hlines : ∀ full ∈ splitLinesFrom [] document.toList, OneLine full := fun full hfull =>
    oneLine_of_mem_splitLinesFrom oneLine_nil hfull
  have hstart : State.Follows limits (splitLinesFrom [] document.toList) [] .start :=
    List.forall_mem_nil _
  have hread : Ensures (Traced now (splitLinesFrom [] document.toList)) _
      (readLines limits now 1 (splitLinesFrom [] document.toList) .start).result :=
    follows_readLines hlines (List.nil_append _).symm hstart
  rw [result_parse]
  exact hread.bind fun s hs => traced_finish hs

theorem explained_parse (limits : Limits) (now : Time.Stamp) (document : String) :
    Ensures (Explained now (splitLinesFrom [] document.toList))
      (fun layout => layout.check = .ok layout) (parse limits now document).result :=
  ⟨(traced_parse limits now document).ok, fun e he => ((traced_parse limits now document).error e he).1⟩

/-- Parts that are read meet their requirements, whatever the document is, and so does the layout.
As long as its frontmatter is loaded, or refused at one of its own lines, and no number in it has too
many digits, a document is read or there is a problem at one of its lines. -/
theorem parse_fails_at_line (limits : Limits) (now : Time.Stamp) (document : String) :
    (∀ part issues, (parse limits now document).result ≠ .error (.rejected part issues)) ∧
    ((∀ opened block error, frontmatter? (splitLinesFrom [] document.toList) = some (opened, block) →
        Frontmatter.load now block = .error (.unloadable error) →
        ∃ problem mark?, error = .malformed problem mark? ∧
          ∀ mark, mark? = some mark → mark < max 1 block.length) →
      (∀ digits, IsRun digits document.toList → digits.length ≤ Number.digitLimit) →
      (∃ layout, (parse limits now document).result = .ok layout ∧ layout.check = .ok layout) ∨
      ∃ e, (parse limits now document).result = .error (.located e) ∧ 1 ≤ e.line ∧
        e.line ≤ max 1 (splitLinesFrom [] document.toList).length) := by
  have hparse := explained_parse limits now document
  refine ⟨fun part issues h => hparse.error _ h, fun hfrontmatter hnumbers => ?_⟩
  cases hresult : (parse limits now document).result with
  | ok layout => exact .inl ⟨layout, rfl, hparse.ok layout hresult⟩
  | error e =>
    have hexplained := hparse.error e hresult
    cases e with
    | rejected part issues => cases hexplained
    | frontmatter error =>
      obtain ⟨hforeign, opened, block, hfound, hload⟩ := hexplained
      obtain ⟨problem, mark?, heq, -⟩ := hfrontmatter opened block error hfound hload
      exact absurd heq (hforeign problem mark?)
    | tooLong n =>
      obtain ⟨hlong, full, hfull, digits, hrun, hlength⟩ := hexplained
      have hshort := hnumbers digits (hrun.mono (infix_of_mem_splitLinesFrom hfull))
      omega
    | located e =>
      obtain ⟨hpos, hline⟩ := hexplained
      refine .inr ⟨e, rfl, hpos, ?_⟩
      rcases hline with hline | ⟨opened, block, problem, mark, hfound, hload, hline⟩
      · exact hline
      · -- the mark lies in the frontmatter, which ends before the document does
        obtain ⟨_, _, heq, hmark⟩ := hfrontmatter opened block _ hfound hload
        cases heq
        have hinside := hmark mark rfl
        have hbounds := length_of_frontmatter? hfound
        omega

def located? : Except ReadError Layout → Option Located
  | .error (.located e) => some e
  | _ => none

theorem eq_of_located? {result : Except ReadError Layout} {e : Located}
    (h : located? result = some e) : result = .error (.located e) := by
  unfold located? at h
  split at h <;> cases h
  rfl

/-- A document with a table behind its frontmatter in which a cell is not closed. -/
def brokenDocument : String :=
  "---\nname: Demo\n---\n## Layer 0: Base\n| A | B |\n|--|--|\n| KC_A | LT(1, KC_B |\n"

theorem parse_fails_at_line_brokenDocument :
    located? (parse {} { date := ⟨2024, 1, 2⟩ } brokenDocument).result =
      some ⟨.cell .unclosed, 7, some 12⟩ ∧
    ∃ e, (parse {} { date := ⟨2024, 1, 2⟩ } brokenDocument).result = .error (.located e) ∧
      1 ≤ e.line ∧ e.line ≤ 7 := by
  have hfound : frontmatter? (splitLinesFrom [] brokenDocument.toList) =
      some (1, ["name: Demo".toList]) := by decide +kernel
  have hload : (Frontmatter.load { date := ⟨2024, 1, 2⟩ } ["name: Demo".toList]).toOption.isSome =
      true := by decide +kernel
  have hbroken : located? (parse {} { date := ⟨2024, 1, 2⟩ } brokenDocument).result =
      some ⟨.cell .unclosed, 7, some 12⟩ := by decide +kernel
  have hnumbers : ∀ digits, IsRun digits brokenDocument.toList →
      digits.length ≤ Number.digitLimit := fun digits hdigits =>
    hdigits.isInfix.length_le.trans (by decide +kernel)
  obtain ⟨-, hparse⟩ := parse_fails_at_line {} { date := ⟨2024, 1, 2⟩ } brokenDocument
  have hresult := hparse (fun opened block error hblock herror => by
    rw [hfound] at hblock
    cases hblock
    rw [herror] at hload
    cases hload) hnumbers
  rcases hresult with ⟨layout, hlayout, -⟩ | ⟨e, he, hpos, hline⟩
  · rw [hlayout] at hbroken
    cases hbroken
  · exact ⟨hbroken, e, he, hpos, hline.trans (by decide +kernel)⟩

/-- **Problems with cells point at them.** A malformed cell is the first one in the row of the line,
and the problem is at its start and the offset in it; a category of a key that is not defined is
reported at the start of the cell of the key. -/
theorem cell_errors_point_at_cell {document : String} {e : Located}
    (h : (parse limits now document).result = .error (.located e)) :
    (∀ cause, e.problem = .cell cause → ∃ full raws cs column malformed,
      StandsAt (splitLinesFrom [] document.toList) e.line full ∧ CellAt full raws cs column ∧
      cs ≠ [] ∧ Cell.read cs = .error malformed ∧ malformed.cause = cause ∧
      e.column? = some (column + malformed.offset) ∧
      ∀ raw ∈ raws, trim raw = [] ∨ ∃ cell, Cell.read (trim raw) = .ok cell) ∧
    ∀ id, e.problem = .undefinedCategory id → ∃ full,
      StandsAt (splitLinesFrom [] document.toList) e.line full ∧
      (Line.isRow (trim full) = true → ∃ raws cs column cell, CellAt full raws cs column ∧
        Cell.read cs = .ok cell ∧ cell.category? = some id ∧ e.column? = some column) := by
  have hshows : e.Shows (splitLinesFrom [] document.toList) :=
    ((traced_parse limits now document).error _ h).2
  obtain ⟨problem, line, column?⟩ := e
  refine ⟨?_, ?_⟩
  · rintro cause ⟨⟩
    obtain ⟨full, hline, raws, cs, column, malformed, hcell⟩ := hshows
    exact ⟨full, raws, cs, column, malformed, hline, hcell⟩
  · rintro id ⟨⟩
    obtain ⟨full, hline, hcell, -⟩ := hshows
    exact ⟨full, hline, hcell⟩

/-- An indented row whose last cell, behind a blank one, has a letter in its color that is no digit. -/
def misspeltDocument : String :=
  "---\nname: Demo\n---\n## Layer 0: Base\n| A | B | C |\n|--|--|--|\n" ++
  "  |KC_A||\t KC_B \x7b#00FG00\x7d|\n"

theorem cell_errors_point_at_cell_misspeltDocument :
    located? (parse {} { date := ⟨2024, 1, 2⟩ } misspeltDocument).result =
      some ⟨.cell (.color "#00FG00"), 7, some 18⟩ ∧
    ∃ full raws cs column malformed, StandsAt (splitLinesFrom [] misspeltDocument.toList) 7 full ∧
      CellAt full raws cs column ∧ Cell.read cs = .error malformed ∧ 18 = column + malformed.offset := by
  have hresult : located? (parse {} { date := ⟨2024, 1, 2⟩ } misspeltDocument).result =
      some ⟨.cell (.color "#00FG00"), 7, some 18⟩ := by decide +kernel
  obtain ⟨full, raws, cs, column, malformed, hline, hcell, -, hread, -, hcolumn, -⟩ :=
    (cell_errors_point_at_cell (eq_of_located? hresult)).1 _ rfl
  exact ⟨hresult, full, raws, cs, column, malformed, hline, hcell, hread, Option.some.inj hcolumn⟩

/-- A problem with a property of a layer: with its value, or as its category is not defined. -/
def Located.OfProperty (lines : List (List Char)) : Located → Prop
  | ⟨.layerId _, _, _⟩ | ⟨.layerColor _, _, _⟩ | ⟨.layerCategory _, _, _⟩ => True
  | ⟨.undefinedCategory _, line, _⟩ =>
    ∀ full, StandsAt lines line full → ¬Line.isRow (trim full) = true
  | _ => False

/-- **Problems with properties point at their values up to the indentation.** They are at the line of
the value, and the column counts from behind the indentation. So the line starts there with the value
exactly if it is not indented, the value is empty, or the value overlaps itself. -/
theorem property_errors_point_behind_indent {document : String} {e : Located}
    (h : (parse limits now document).result = .error (.located e))
    (hproperty : e.OfProperty (splitLinesFrom [] document.toList)) :
    ∃ full indent front value property, StandsAt (splitLinesFrom [] document.toList) e.line full ∧
      PropertyAt full indent front value property ∧ e.problem.Concerns property value ∧
      e.column? = some (size front + 1) ∧
      (StartsAt full (size front + 1) value ↔ indent = [] ∨ value = [] ∨
        ∃ first last, front = first ++ last ∧ size last = indent.length ∧ value <+: last ++ value) := by
  have hshows : e.Shows (splitLinesFrom [] document.toList) :=
    ((traced_parse limits now document).error _ h).2
  obtain ⟨problem, line, column?⟩ := e
  have hvalue : ∃ full, StandsAt (splitLinesFrom [] document.toList) line full ∧
      Located.ShowsValue full ⟨problem, line, column?⟩ := by
    cases problem with
    | layerId | layerColor | layerCategory => exact hshows
    | undefinedCategory id =>
      obtain ⟨full, hline, -, hvalue⟩ := hshows
      exact ⟨full, hline, hvalue (hproperty full hline)⟩
    | _ => cases hproperty
  obtain ⟨full, hline, indent, front, value, property, hat, hproblem, hcolumn⟩ := hvalue
  exact ⟨full, indent, front, value, property, hline, hat, hproblem, hcolumn, hat.startsAt_iff⟩

/-- A layer whose id, in an indented line, has a blank in it. -/
def indentedDocument : String := "---\nname: Demo\n---\n## Layer 0: Base\n  **ID**: a b\n"

theorem property_errors_point_behind_indent_indentedDocument :
    located? (parse {} { date := ⟨2024, 1, 2⟩ } indentedDocument).result =
      some ⟨.layerId "a b", 5, some 9⟩ ∧
    ∃ full indent front value property, StandsAt (splitLinesFrom [] indentedDocument.toList) 5 full ∧
      PropertyAt full indent front value property ∧ "a b" = String.ofList value ∧
      9 = size front + 1 := by
  have hresult : located? (parse {} { date := ⟨2024, 1, 2⟩ } indentedDocument).result =
      some ⟨.layerId "a b", 5, some 9⟩ := by decide +kernel
  obtain ⟨full, indent, front, value, property, hline, hat, hproblem, hcolumn, -⟩ :=
    property_errors_point_behind_indent (eq_of_located? hresult) trivial
  exact ⟨hresult, full, indent, front, value, property, hline, hat, hproblem.2.1,
    Option.some.inj hcolumn⟩

end Keyforge.Document
