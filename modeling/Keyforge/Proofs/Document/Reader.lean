import Keyforge.Document.Parse
import Keyforge.Proofs.Result
import Keyforge.Proofs.Text.Lines

/-!
# What a line does

One equation for each kind of line, in every region it can stand in, and what a line has to keep so
that an invariant of the reader holds (`Keeps`).
-/

namespace Keyforge.Document

open Keyforge.Text

variable {limits : Limits} {now : Time.Stamp} {s : State} {line : Nat} {full : List Char}
  {rest : List (List Char)}

/-! ### Single lines -/

theorem readLine_of_done {t : State} (h : consume limits now line full s = .ok (.done t)) :
    readLine limits now line full s = .ok t := by
  rw [readLine]
  split <;> simp_all

theorem readLine_of_again {t : State} (h : consume limits now line full s = .ok (.again t)) :
    readLine limits now line full s = readLine limits now line full t := by
  rw [readLine]
  split <;> simp_all

theorem readLine_of_error {e : ReadError} (h : consume limits now line full s = .error e) :
    readLine limits now line full s = .error e := by
  rw [readLine]
  split <;> simp_all

theorem readLine_of_map_done {result : Except ReadError State}
    (h : consume limits now line full s = result.map .done) :
    readLine limits now line full s = result := by
  cases result with
  | ok t => exact readLine_of_done h
  | error e => exact readLine_of_error h

theorem readDigits_eq_ok_iff {digits : List Char} {n : Nat} :
    readDigits digits = .ok n ↔ Number.ofDigits digits = .ok n :=
  mapError_eq_ok_iff

/-! ### Kinds of lines -/

theorem isRow_eq_false_of_isHeading {cs : List Char} (h : Line.isHeading cs = true) :
    Line.isRow cs = false := by
  obtain ⟨rest, rfl⟩ := List.isPrefixOf_iff_prefix.mp h
  rfl

theorem readLine_table_end (h : Line.isRow (trim full) = false) (c : Content) (draft : Draft)
    (columns rows : Nat) (keys : List (Position × Key)) :
    readLine limits now line full (.inside c (.table draft columns rows keys)) =
      closeLayer c draft keys >>= fun c => readLine limits now line full (.inside c .body) := by
  have hend : consume limits now line full (.inside c (.table draft columns rows keys)) =
      (closeLayer c draft keys).map fun c => .again (.inside c .body) := by
    simp only [consume, readContent, h, Bool.false_eq_true, if_false, endTable]
  cases hclose : closeLayer c draft keys with
  | error e =>
    rw [hclose] at hend
    exact readLine_of_error hend
  | ok c' =>
    rw [hclose] at hend
    exact readLine_of_again hend

/-- A heading ends the region before it and opens the next one. -/
theorem readLine_heading (h : Line.isHeading (trim full) = true) (c : Content) (region : Region) :
    readLine limits now line full (.inside c region) =
      finishContent line (.inside c region) >>= fun c =>
        (openRegion c line (trim full)).map (.inside c) := by
  have hrow := isRow_eq_false_of_isHeading h
  have hplain : ∀ (c : Content) (region : Region),
      consume limits now line full (.inside c region) =
        (readHeading c region line (trim full)).map .done →
      readLine limits now line full (.inside c region) =
        closeRegion c region >>= fun c => (openRegion c line (trim full)).map (.inside c) := by
    intro c region hread
    rw [readLine_of_map_done hread, readHeading]
    cases closeRegion c region with
    | error e => rfl
    | ok c' =>
      show (openRegion c' line (trim full) >>= fun region => pure (State.inside c' region)) =
        (openRegion c' line (trim full)).map (.inside c')
      cases openRegion c' line (trim full) <;> rfl
  have hbody : ∀ c, readLine limits now line full (.inside c .body) =
      (openRegion c line (trim full)).map (.inside c) := fun c =>
    hplain c .body (by simp only [consume, readContent, h, if_true])
  cases region with
  | body | skipped | categories | descriptions | settings | tapDances | layer =>
    exact hplain c _ (by simp only [consume, readContent, h, if_true])
  | tableHeader | tableSeparator =>
    refine readLine_of_error (e := problemAt .tableEnded line) ?_
    simp only [consume, readContent, hrow, Bool.false_eq_true, if_false, endTable]
  | table draft columns rows keys =>
    simp only [readLine_table_end hrow, hbody]
    rfl

/-- A blank line ends a table and changes nothing elsewhere. -/
theorem readLine_blank (h : trim full = []) (c : Content) (region : Region) :
    readLine limits now line full (.inside c region) =
      if region.rank = 1 then
        (finishContent line (.inside c region)).map fun c => .inside c .body
      else .ok (.inside c region) := by
  have hbody : ∀ c, readLine limits now line full (.inside c .body) = .ok (.inside c .body) := by
    intro c
    refine readLine_of_done ?_
    simp only [consume, readContent, h]
    rfl
  cases region with
  | body => exact hbody c
  | skipped | categories | descriptions | settings | tapDances | layer =>
    refine readLine_of_done ?_
    simp only [consume, readContent, h]
    rfl
  | tableHeader | tableSeparator =>
    refine readLine_of_error ?_
    simp only [consume, readContent, h]
    rfl
  | table draft columns rows keys =>
    have hrow : Line.isRow (trim full) = false := by
      rw [h]
      rfl
    have hfinish : finishContent line (.inside c (.table draft columns rows keys)) =
        closeLayer c draft keys := rfl
    rw [hfinish, if_pos (show Region.rank (.table draft columns rows keys) = 1 from rfl)]
    simp only [readLine_table_end hrow, hbody]
    cases closeLayer c draft keys <;> rfl

theorem readLine_blank_table (h : trim full = []) (c : Content) (draft : Draft) (columns rows : Nat)
    (keys : List (Position × Key)) :
    readLine limits now line full (.inside c (.table draft columns rows keys)) =
      (closeLayer c draft keys).map fun c => .inside c .body := by
  rw [readLine_blank h]
  rfl

def Line.Section.region : Line.Section → Region
  | .categories => .categories
  | .descriptions => .descriptions
  | .settings => .settings
  | .tapDances => .tapDances

def Line.Section.read : Line.Section → Content → Nat → List Char → Except ReadError Content
  | .categories => readCategory
  | .descriptions => readDescription
  | .settings => readSetting
  | .tapDances => readTapDance

theorem readLine_entry (hheading : Line.isHeading (trim full) = false) (hne : trim full ≠ [])
    (sec : Line.Section) (c : Content) :
    readLine limits now line full (.inside c sec.region) =
      (sec.read c line (trim full)).map fun c => .inside c sec.region := by
  have hempty : (trim full).isEmpty = false := by simpa using hne
  refine readLine_of_map_done ?_
  cases sec <;>
    simp only [consume, readContent, Line.Section.region, Line.Section.read, hheading, readPlain,
      continueIn, hempty, Bool.false_eq_true, if_false, map_map]

theorem readLine_property (h : (trim full).head? = some '*') (c : Content) (draft : Draft) :
    readLine limits now line full (.inside c (.layer draft)) =
      readProperty c draft line (trim full) := by
  obtain ⟨rest, hrest⟩ := List.head?_eq_some_iff.mp h
  refine readLine_of_map_done ?_
  simp only [consume, readContent, hrest]
  rfl

theorem readLine_rule_layer (h : trim full = ['-', '-', '-']) (c : Content) (draft : Draft) :
    readLine limits now line full (.inside c (.layer draft)) =
      (closeLayer c draft []).map fun c => .inside c .body := by
  have hread : consume limits now line full (.inside c (.layer draft)) =
      continueIn .body (closeLayer c draft []) := by
    simp only [consume, readContent, h]
    rfl
  rw [readLine_of_map_done]
  rw [hread, continueIn, map_map]

theorem readLine_body (hheading : Line.isHeading (trim full) = false)
    (hrow : Line.isRow (trim full) = false) (c : Content) :
    readLine limits now line full (.inside c .body) = .ok (.inside c .body) := by
  refine readLine_of_done ?_
  simp only [consume, readContent, hheading, readPlain, hrow, Bool.false_eq_true, if_false]

/-! ### Rows of tables -/

section Rows

variable {cells : List (List Char × Nat)}

theorem isHeading_eq_false_of_isRow {cs : List Char} (h : Line.isRow cs = true) :
    Line.isHeading cs = false := by
  cases hh : Line.isHeading cs with
  | false => rfl
  | true =>
    rw [isRow_eq_false_of_isHeading hh] at h
    cases h

variable (hrow : Line.isRow (trim full) = true)

include hrow

theorem readLine_layer_row (c : Content) (draft : Draft) :
    readLine limits now line full (.inside c (.layer draft)) =
      readLine limits now line full (.inside c (.tableHeader draft)) := by
  refine readLine_of_again ?_
  simp only [consume, readContent, isHeading_eq_false_of_isRow hrow, readPlain, hrow,
    Bool.false_eq_true, if_false, if_true]

variable (hcells : Line.cells? (full.length - (trimLeft full).length) (trim full) = some cells)

include hcells

theorem readLine_header (c : Content) (draft : Draft) :
    readLine limits now line full (.inside c (.layer draft)) =
      .ok (.inside c (.tableSeparator draft cells.length)) := by
  rw [readLine_layer_row hrow]
  refine readLine_of_done ?_
  simp only [consume, readContent, hrow, if_true, readRow, hcells]
  rfl

theorem readLine_separator (c : Content) (draft : Draft) (columns : Nat) :
    readLine limits now line full (.inside c (.tableSeparator draft columns)) =
      readSeparator c draft columns line cells := by
  refine readLine_of_map_done ?_
  simp only [consume, readContent, hrow, if_true, readRow, hcells]
  rfl

theorem readLine_keys (c : Content) (draft : Draft) (columns rows : Nat)
    (keys : List (Position × Key)) :
    readLine limits now line full (.inside c (.table draft columns rows keys)) =
      readKeys c draft columns rows line keys cells := by
  refine readLine_of_map_done ?_
  simp only [consume, readContent, hrow, if_true, readRow, hcells]
  rfl

end Rows

/-! ### Runs of lines -/

theorem result_readLines_cons (line : Nat) (full : List Char) (rest : List (List Char)) (s : State) :
    (readLines limits now line (full :: rest) s).result =
      readLine limits now line full s >>= fun t => (readLines limits now (line + 1) rest t).result := by
  rw [readLines]
  cases readLine limits now line full s <;> rfl

theorem result_readLines_append (line : Nat) (first rest : List (List Char)) (s : State) :
    (readLines limits now line (first ++ rest) s).result =
      (readLines limits now line first s).result >>= fun t =>
        (readLines limits now (line + first.length) rest t).result := by
  induction first generalizing line s with
  | nil => rfl
  | cons full first ih =>
    rw [List.cons_append, result_readLines_cons, result_readLines_cons, bind_assoc]
    congr 1
    funext t
    rw [ih, List.length_cons, Nat.add_assoc, Nat.add_comm 1]

theorem readLines_cons_eq_ok_iff {t : State} :
    (readLines limits now line (full :: rest) s).result = .ok t ↔
      ∃ u, readLine limits now line full s = .ok u ∧
        (readLines limits now (line + 1) rest u).result = .ok t := by
  rw [result_readLines_cons, bind_eq_ok_iff]

theorem readLines_append_eq_ok_iff {first : List (List Char)} {t : State} :
    (readLines limits now line (first ++ rest) s).result = .ok t ↔
      ∃ u, (readLines limits now line first s).result = .ok u ∧
        (readLines limits now (line + first.length) rest u).result = .ok t := by
  rw [result_readLines_append, bind_eq_ok_iff]

/-- What every line keeps, all lines together keep. -/
theorem invariant_readLines {P : State → Prop} {lines : List (List Char)}
    (hstep : ∀ full ∈ lines, ∀ line s t, P s → readLine limits now line full s = .ok t → P t)
    {t : State} (hs : P s) (h : (readLines limits now line lines s).result = .ok t) : P t := by
  induction lines generalizing line s with
  | nil =>
    cases h
    exact hs
  | cons full lines ih =>
    obtain ⟨u, hu, h⟩ := readLines_cons_eq_ok_iff.mp h
    exact ih (List.forall_mem_cons.mp hstep).2
      (hstep full List.mem_cons_self line s u hs hu) h

variable (limits now) in
/-- The lines are read from a state, whatever their numbers, and lead to a state that satisfies
`Q`. -/
def Reads (lines : List (List Char)) (s : State) (Q : State → Prop) : Prop :=
  ∀ line, ∃ t, (readLines limits now line lines s).result = .ok t ∧ Q t

theorem Reads.nil {Q : State → Prop} (h : Q s) : Reads limits now [] s Q :=
  fun _ => ⟨s, rfl, h⟩

theorem Reads.mono {lines : List (List Char)} {Q R : State → Prop} (h : Reads limits now lines s Q)
    (hQ : ∀ t, Q t → R t) : Reads limits now lines s R := by
  intro line
  obtain ⟨t, ht, hq⟩ := h line
  exact ⟨t, ht, hQ t hq⟩

theorem Reads.append {first : List (List Char)} {Q R : State → Prop}
    (h : Reads limits now first s Q) (hrest : ∀ t, Q t → Reads limits now rest t R) :
    Reads limits now (first ++ rest) s R := by
  intro line
  obtain ⟨t, ht, hq⟩ := h line
  obtain ⟨u, hu, hr⟩ := hrest t hq (line + first.length)
  exact ⟨u, readLines_append_eq_ok_iff.mpr ⟨t, ht, hu⟩, hr⟩

theorem Reads.cons {Q R : State → Prop}
    (h : ∀ line, ∃ t, readLine limits now line full s = .ok t ∧ Q t)
    (hrest : ∀ t, Q t → Reads limits now rest t R) : Reads limits now (full :: rest) s R := by
  intro line
  obtain ⟨t, ht, hq⟩ := h line
  obtain ⟨u, hu, hr⟩ := hrest t hq (line + 1)
  exact ⟨u, readLines_cons_eq_ok_iff.mpr ⟨t, ht, hu⟩, hr⟩

theorem Reads.single {Q : State → Prop}
    (h : ∀ line, ∃ t, readLine limits now line full s = .ok t ∧ Q t) :
    Reads limits now [full] s Q :=
  Reads.cons h fun _ ht => Reads.nil ht

theorem Reads.of_append {first : List (List Char)} {u : State} {Q : State → Prop}
    (h : Reads limits now first s Q)
    (hread : (readLines limits now line (first ++ rest) s).result = .ok u) :
    ∃ t line, Q t ∧ (readLines limits now line rest t).result = .ok u := by
  obtain ⟨t, ht, hQ⟩ := h line
  rw [result_readLines_append, ht] at hread
  exact ⟨t, line + first.length, hQ, hread⟩

/-! ### The end of the document -/

/-- The content of a document that ends in a state. -/
def Settles (s : State) (c : Content) : Prop := ∀ count, finishContent count s = .ok c

theorem settles_of_finishContent {count : Nat} {c : Content} (h : finishContent count s = .ok c) :
    Settles s c := by
  intro other
  cases s with
  | start => cases h
  | frontmatter => cases h
  | inside c region => cases region <;> first | exact h | cases h

theorem Settles.exists_inside {c : Content} (h : Settles s c) :
    ∃ inner region, s = .inside inner region := by
  cases s with
  | start => cases h 0
  | frontmatter => cases h 0
  | inside inner region => exact ⟨inner, region, rfl⟩

theorem Settles.heading {c : Content} (hs : Settles s c) (h : Line.isHeading (trim full) = true) :
    readLine limits now line full s = (openRegion c line (trim full)).map (.inside c) := by
  obtain ⟨inner, region, rfl⟩ := hs.exists_inside
  rw [readLine_heading h, hs line]
  rfl

/-- A blank line does not change what the document ends with. -/
theorem readLine_blank_eq_ok (h : trim full = []) {inner : Content} {region : Region} {t : State}
    (ht : readLine limits now line full (.inside inner region) = .ok t) (c : Content) :
    Settles t c ↔ Settles (.inside inner region) c := by
  rw [readLine_blank h] at ht
  split at ht
  · obtain ⟨c', hc', rfl⟩ := map_eq_ok_iff.mp ht
    have hbody : ∀ count, finishContent count (.inside c' .body) = .ok c' := fun count => rfl
    have hs := settles_of_finishContent hc'
    constructor
    · intro h count
      rw [hs count, ← hbody count, h count]
    · intro h count
      rw [hbody count, ← hs count, h count]
  · cases ht
    exact Iff.rfl

theorem Settles.blank {c : Content} (hs : Settles s c) (line : Nat) (h : trim full = []) :
    ∃ t, readLine limits now line full s = .ok t ∧ Settles t c := by
  obtain ⟨inner, region, rfl⟩ := hs.exists_inside
  have hok : ∃ t, readLine limits now line full (.inside inner region) = .ok t := by
    rw [readLine_blank h, hs line]
    split
    · exact ⟨_, rfl⟩
    · exact ⟨_, rfl⟩
  obtain ⟨t, ht⟩ := hok
  exact ⟨t, ht, (readLine_blank_eq_ok h ht c).mpr hs⟩

/-- What is required of a document's content, and the layout it makes. -/
structure Content.Gives (c : Content) (l : Layout) : Prop where
  layers_ne : c.layers ≠ []
  uses : ∀ use ∈ c.uses, use.id ∈ c.categories.map (·.id)
  ids : (c.layers.filterMap (·.id?)).Nodup
  metadata : l.metadata = c.metadata
  layers : l.layers = (describe c.descriptions c.layers).1
  categories : l.categories = c.categories
  tapDances : makeTapDances c.tapDances [] = .ok l.tapDances
  settings : l.settings = c.settings
  fits : l.problem? = none

theorem checkContent_eq_ok_iff {count : Nat} {c : Content} :
    checkContent count c = .ok () ↔ c.layers ≠ [] ∧
      (∀ use ∈ c.uses, use.id ∈ c.categories.map (·.id)) ∧ (c.layers.filterMap (·.id?)).Nodup := by
  unfold checkContent
  split
  next h => simp [List.isEmpty_iff.mp h]
  next h =>
    have hne : c.layers ≠ [] := by simpa using h
    dsimp only
    split
    next use hfind =>
      have hmem := List.mem_of_find?_eq_some hfind
      have hnot := List.find?_some hfind
      simp only [Bool.not_eq_true', List.contains_eq_mem, decide_eq_false_iff_not] at hnot
      exact ⟨nofun, fun h => absurd (h.2.1 use hmem) hnot⟩
    next hfind =>
      have huses : ∀ use ∈ c.uses, use.id ∈ c.categories.map (·.id) := by
        intro use huse
        have := List.find?_eq_none.mp hfind use huse
        simpa using this
      rw [← allDistinct_iff_nodup]
      split
      next hd => exact ⟨fun _ => ⟨hne, huses, hd⟩, fun _ => rfl⟩
      next hd => exact ⟨nofun, fun h => absurd h.2.2 hd⟩

theorem assemble_eq_ok_iff {c : Content} {layers : List Layer} {l : Layout} :
    assemble c layers = .ok l ↔ ∃ tapDances, makeTapDances c.tapDances [] = .ok tapDances ∧
      l = ⟨c.metadata, layers, c.categories, tapDances, c.settings⟩ ∧ l.problem? = none := by
  unfold assemble
  rw [bind_eq_ok_iff]
  refine exists_congr fun tapDances => and_congr_right fun _ => ?_
  simp only [Layout.check]
  cases hproblem : Layout.problem? ⟨c.metadata, layers, c.categories, tapDances, c.settings⟩ with
  | none =>
    constructor
    · intro h
      cases h
      exact ⟨rfl, hproblem⟩
    · rintro ⟨rfl, -⟩
      rfl
  | some text =>
    constructor
    · intro h
      cases h
    · rintro ⟨rfl, h⟩
      rw [hproblem] at h
      cases h

theorem finish_eq_ok_iff {count : Nat} {l : Layout} :
    (finish count s).result = .ok l ↔ ∃ c, Settles s c ∧ c.Gives l := by
  unfold finish
  constructor
  · intro h
    split at h
    · cases h
    next c hfinish =>
      split at h
      · cases h
      next hcheck =>
        obtain ⟨hne, huses, hids⟩ := checkContent_eq_ok_iff.mp hcheck
        obtain ⟨tapDances, htap, rfl, hfits⟩ := assemble_eq_ok_iff.mp h
        exact ⟨c, settles_of_finishContent hfinish, hne, huses, hids, rfl, rfl, rfl, htap, rfl, hfits⟩
  · rintro ⟨c, hs, hg⟩
    have hcheck : checkContent count c = .ok () :=
      checkContent_eq_ok_iff.mpr ⟨hg.layers_ne, hg.uses, hg.ids⟩
    have hl : l = ⟨c.metadata, (describe c.descriptions c.layers).1, c.categories, l.tapDances,
        c.settings⟩ := by
      rw [← hg.metadata, ← hg.layers, ← hg.categories, ← hg.settings]
    simp only [hs count, hcheck]
    exact assemble_eq_ok_iff.mpr ⟨l.tapDances, hg.tapDances, hl, hg.fits⟩

/-- A document is read by its lines, and then finished. -/
theorem result_parse (document : String) :
    (parse limits now document).result =
      (readLines limits now 1 (splitLinesFrom [] document.toList) .start).result >>= fun s =>
        (finish (splitLinesFrom [] document.toList).length s).result := by
  unfold parse
  dsimp only
  cases readLines limits now 1 (splitLinesFrom [] document.toList) .start with
  | mk warnings result => cases result <;> rfl

/-- A document is accepted if all its lines are read and their content makes a layout. -/
theorem parse_eq_ok_iff {document : String} {l : Layout} :
    (parse limits now document).result = .ok l ↔
      ∃ s c, (readLines limits now 1 (splitLinesFrom [] document.toList) .start).result = .ok s ∧
        Settles s c ∧ c.Gives l := by
  simp only [result_parse, bind_eq_ok_iff, finish_eq_ok_iff, exists_and_left]

/-! ### Invariants -/

/-- A state behind the frontmatter, with a property of its content and its open region. -/
def State.Inside (P : Content → Region → Prop) (s : State) : Prop :=
  ∃ c region, s = .inside c region ∧ P c region

theorem State.Inside.and {P Q : Content → Region → Prop} (hP : s.Inside P) (hQ : s.Inside Q) :
    s.Inside fun c region => P c region ∧ Q c region := by
  obtain ⟨c, region, rfl, hP⟩ := hP
  obtain ⟨_, _, ⟨⟩, hQ⟩ := hQ
  exact ⟨c, region, rfl, hP, hQ⟩

def Step.state : Step → State
  | .done s | .again s => s

/-- Whatever a line is read as, it keeps `P` or is refused for a reason in `E`. -/
structure Keeps (E : ReadError → Prop) (P : Content → Region → Prop) (line : Nat)
    (full : List Char) : Prop where
  refused : ∀ column?, E (problemAt .unbalancedRow line column?) ∧
    E (problemAt .strayTable line column?) ∧ E (problemAt .tableEnded line column?)
  close : ∀ {c region}, P c region → Ensures E (P · .body) (closeRegion c region)
  opens : ∀ {c}, P c .body → Ensures E (P c) (openRegion c line (trim full))
  table : ∀ {c draft}, P c (.layer draft) → P c (.tableHeader draft)
  header : ∀ {c draft} columns, P c (.tableHeader draft) → P c (.tableSeparator draft columns)
  separator : ∀ {c draft columns} cells, P c (.tableSeparator draft columns) →
    Ensures E (State.Inside P) (readSeparator c draft columns line cells)
  keys : ∀ {c draft columns rows keys cells}, P c (.table draft columns rows keys) →
    Line.isRow (trim full) = true →
    Line.cells? (full.length - (trimLeft full).length) (trim full) = some cells →
    Ensures E (State.Inside P) (readKeys c draft columns rows line keys cells)
  property : ∀ {c draft}, P c (.layer draft) → ¬Line.isRow (trim full) = true →
    Ensures E (State.Inside P) (readProperty c draft line (trim full))
  entry : ∀ {c} (sec : Line.Section), P c sec.region →
    Ensures E (P · sec.region) (sec.read c line (trim full))

namespace Keeps

variable {E : ReadError → Prop} {P : Content → Region → Prop} (k : Keeps E P line full)
  {c : Content} {region : Region}

include k

theorem ensures_readHeading (h : P c region) :
    Ensures E (State.Inside P) (readHeading c region line (trim full)) := by
  refine (k.close h).bind fun c' hc' => ?_
  exact (k.opens hc').bind fun region' hregion' => .of_ok ⟨c', region', rfl, hregion'⟩

theorem ensures_endTable (h : P c region) :
    Ensures E (fun step => step.state.Inside P) (endTable c region line) := by
  unfold endTable
  split
  · exact (k.close h).map fun c' hc' => ⟨c', .body, rfl, hc'⟩
  · exact .of_error (k.refused none).2.2

theorem ensures_entry (sec : Line.Section) (h : P c sec.region) :
    Ensures E (fun step => step.state.Inside P) (continueIn sec.region
      (if (trim full).isEmpty then .ok c else sec.read c line (trim full))) := by
  have hread : Ensures E (P · sec.region)
      (if (trim full).isEmpty then .ok c else sec.read c line (trim full)) := by
    split
    · exact .of_ok h
    · exact k.entry sec h
  exact hread.map fun c' hc' => ⟨c', sec.region, rfl, hc'⟩

theorem ensures_readPlain (indent : Nat) (h : P c region) :
    Ensures E (fun step => step.state.Inside P) (readPlain c region line indent (trim full)) := by
  cases region with
  | layer draft =>
    simp only [readPlain]
    split
    · exact .of_ok ⟨c, _, rfl, k.table h⟩
    next hplain =>
      split
      · exact (k.close h).map fun c' hc' => ⟨c', .body, rfl, hc'⟩
      · split
        · exact .of_ok ⟨c, _, rfl, h⟩
        · exact (k.property h hplain).map fun s hs => hs
  | body | skipped =>
    simp only [readPlain]
    split
    · exact .of_error (k.refused _).2.1
    · exact .of_ok ⟨c, _, rfl, h⟩
  | categories => exact k.ensures_entry .categories h
  | descriptions => exact k.ensures_entry .descriptions h
  | settings => exact k.ensures_entry .settings h
  | tapDances => exact k.ensures_entry .tapDances h
  | tableHeader | tableSeparator | table => exact .of_ok ⟨c, _, rfl, h⟩

theorem ensures_readContent (h : P c region) :
    Ensures E (fun step => step.state.Inside P) (readContent c region line full) := by
  have hrow : Ensures E
      (fun cells => Line.cells? (full.length - (trimLeft full).length) (trim full) = some cells)
      (readRow line (full.length - (trimLeft full).length) (size full) (trim full)) := by
    unfold readRow
    split
    next hfound => exact .of_ok hfound
    next => exact .of_error (k.refused _).1
  cases region with
  | tableHeader draft =>
    simp only [readContent]
    split
    · exact hrow.bind fun cells _ => .of_ok ⟨c, _, rfl, k.header _ h⟩
    · exact k.ensures_endTable h
  | tableSeparator draft columns =>
    simp only [readContent]
    split
    · exact hrow.bind fun cells _ => (k.separator cells h).bind fun s hs => .of_ok hs
    · exact k.ensures_endTable h
  | table draft columns rows keys =>
    simp only [readContent]
    split
    next hisRow =>
      exact hrow.bind fun cells hcells => (k.keys h hisRow hcells).bind fun s hs => .of_ok hs
    next => exact k.ensures_endTable h
  | layer | body | skipped | categories | descriptions | settings | tapDances =>
    simp only [readContent]
    split
    · exact (k.ensures_readHeading h).map fun s hs => hs
    · exact k.ensures_readPlain _ h

/-- A line keeps what it keeps at each reading, however often it is seen again. -/
theorem ensures_readLine (hs : s.Inside P) :
    Ensures E (State.Inside P) (readLine limits now line full s) := by
  fun_induction readLine limits now line full s with
  | case1 s e hconsume =>
    obtain ⟨c, region, rfl, h⟩ := hs
    exact .of_error ((k.ensures_readContent h).error e hconsume)
  | case2 s t hconsume =>
    obtain ⟨c, region, rfl, h⟩ := hs
    exact .of_ok ((k.ensures_readContent h).ok _ hconsume)
  | case3 s t hconsume ih =>
    obtain ⟨c, region, rfl, h⟩ := hs
    exact ih ((k.ensures_readContent h).ok _ hconsume)

end Keeps

end Keyforge.Document
