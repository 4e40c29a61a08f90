import Keyforge.Document.Reader

/-!
# Reading documents

The lines of a document are read one after the other; then what the lines left open is settled:
references to categories, descriptions of keys and tap dances.
-/

namespace Keyforge.Document

variable {region : Region} {line : Nat} {s : State}

/-! ### Seeing a line again -/

/-- How a line comes to be seen again: it starts the table of a layer, or it ends a table. -/
inductive SeenAgain : State → State → Prop where
  | starts (c : Content) (draft : Draft) :
    SeenAgain (.inside c (.layer draft)) (.inside c (.tableHeader draft))
  | ends (c c' : Content) (draft : Draft) (columns rows : Nat) (keys : List (Position × Key)) :
    SeenAgain (.inside c (.table draft columns rows keys)) (.inside c' .body)

theorem SeenAgain.rank_lt {t : State} (h : SeenAgain s t) : t.rank < s.rank := by
  cases h <;> simp [State.rank, Region.rank]

theorem bind_ne_again {α : Type} {x : Except ReadError α} {f : α → Except ReadError Step}
    (h : ∀ a, f a ≠ .ok (.again s)) : x >>= f ≠ .ok (.again s) := by
  cases x with
  | error e => exact nofun
  | ok a => exact h a

theorem pure_ne_again {t : State} : (pure (.done t) : Except ReadError Step) ≠ .ok (.again s) := nofun

theorem map_ne_again {α : Type} {x : Except ReadError α} {f : α → State} :
    (x.map fun a => Step.done (f a)) ≠ .ok (.again s) :=
  bind_ne_again fun _ => pure_ne_again

theorem seenAgain_of_endTable {c : Content} (h : endTable c region line = .ok (.again s)) :
    SeenAgain (.inside c region) s := by
  unfold endTable at h
  split at h
  next draft columns rows keys =>
    cases hclose : closeLayer c draft keys with
    | error e =>
      rw [hclose] at h
      cases h
    | ok c' =>
      rw [hclose] at h
      cases h
      exact .ends c c' draft columns rows keys
  next => cases h

theorem seenAgain_of_readPlain {c : Content} {indent : Nat} {cs : List Char}
    (h : readPlain c region line indent cs = .ok (.again s)) : SeenAgain (.inside c region) s := by
  cases region with
  | layer draft =>
    simp only [readPlain] at h
    split at h
    · cases h
      exact .starts c draft
    · split at h
      · exact absurd h map_ne_again
      · split at h
        · cases h
        · exact absurd h map_ne_again
  | body | skipped => simp only [readPlain] at h; split at h <;> cases h
  | categories | descriptions | settings | tapDances => exact absurd h map_ne_again
  | tableHeader | tableSeparator | table => cases h

theorem seenAgain_of_readContent {c : Content} {full : List Char}
    (h : readContent c region line full = .ok (.again s)) : SeenAgain (.inside c region) s := by
  cases region with
  | tableHeader draft =>
    simp only [readContent] at h
    split at h
    · exact absurd h (bind_ne_again fun _ => pure_ne_again)
    · exact seenAgain_of_endTable h
  | tableSeparator draft columns =>
    simp only [readContent] at h
    split at h
    · exact absurd h (bind_ne_again fun _ => bind_ne_again fun _ => pure_ne_again)
    · exact seenAgain_of_endTable h
  | table draft columns rows keys =>
    simp only [readContent] at h
    split at h
    · exact absurd h (bind_ne_again fun _ => bind_ne_again fun _ => pure_ne_again)
    · exact seenAgain_of_endTable h
  | layer | body | skipped | categories | descriptions | settings | tapDances =>
    simp only [readContent] at h
    split at h
    · exact absurd h map_ne_again
    · exact seenAgain_of_readPlain h

theorem seenAgain_of_consume {limits : Limits} {now : Time.Stamp} {full : List Char} {t : State}
    (h : consume limits now line full s = .ok (.again t)) : SeenAgain s t := by
  cases s with
  | start =>
    simp only [consume] at h
    split at h
    · cases h
    · split at h <;> cases h
  | frontmatter opened lines =>
    simp only [consume] at h
    split at h
    · exact absurd h map_ne_again
    · cases h
  | inside c region => exact seenAgain_of_readContent h

def readLine (limits : Limits) (now : Time.Stamp) (line : Nat) (full : List Char) (s : State) :
    Except ReadError State :=
  match _h : consume limits now line full s with
  | .error e => .error e
  | .ok (.done t) => .ok t
  | .ok (.again t) => readLine limits now line full t
termination_by s.rank
decreasing_by exact (seenAgain_of_consume _h).rank_lt

/-- A result together with what was odd on the way to it. -/
structure Outcome (α : Type) where
  warnings : List Warning
  result : Except ReadError α

/-- Reads lines, the first of which has the number `line`. -/
def readLines (limits : Limits) (now : Time.Stamp) : (line : Nat) → List (List Char) → State →
    Outcome State
  | _, [], s => ⟨s.warnings, .ok s⟩
  | line, full :: rest, s =>
    match readLine limits now line full s with
    | .error e => ⟨s.warnings, .error e⟩
    | .ok t => readLines limits now (line + 1) rest t

/-! ### The end of the document -/

/-- The content at the end of a document of `count` lines. -/
def finishContent (count : Nat) : State → Except ReadError Content
  | .start => .error (problemAt .empty (max count 1))
  | .frontmatter opened _ => .error (problemAt .unterminatedFrontmatter opened)
  | .inside _ (.tableHeader _) | .inside _ (.tableSeparator _ _) =>
    .error (problemAt .tableEnded count)
  | .inside c region => closeRegion c region

/-- Checks that there are layers, that references name categories and that ids are unique. -/
def checkContent (count : Nat) (c : Content) : Except ReadError Unit :=
  if c.layers.isEmpty then .error (problemAt .noLayers count)
  else
    let ids := c.categories.map (·.id)
    match c.uses.find? (fun use => !ids.contains use.id) with
    | some use => .error (problemAt (.undefinedCategory use.id) use.line (some use.column))
    | none =>
      if allDistinct (c.layers.filterMap (·.id?)) then .ok ()
      else .error (problemAt .repeatedLayerId count)

def describeKey (position : Position) (text : String) (keys : List (Position × Key)) :
    List (Position × Key) :=
  keys.map fun (p, key) =>
    if p == position then
      (p, { key with description? := if text == "" then none else some text })
    else (p, key)

/-- Gives descriptions to the keys they are for; for those of missing keys there are warnings. -/
def describe : List DescriptionNote → List Layer → List Layer × List Warning
  | [], layers => (layers, [])
  | note :: rest, layers =>
    match layers[note.layer]?.bind fun layer => (layer.keyAt? note.position).map fun _ => layer with
    | some layer =>
      let keys := describeKey note.position note.text layer.keys
      describe rest (layers.set note.layer { layer with keys })
    | none =>
      let (layers, warnings) := describe rest layers
      (layers, .missingKey note.layer note.position note.line :: warnings)

/-- Makes the tap dances of the drafts, after those that are made already. -/
def makeTapDances : List TapDanceDraft → (made : List TapDance) → Except ReadError (List TapDance)
  | [], made => .ok made
  | draft :: rest, made =>
    match draft.actions.lookup "single_tap" with
    | none => .error (problemAt (.noSingleTap draft.name) draft.line)
    | some single =>
      let tapDance : TapDance :=
        { name := draft.name, single, double? := draft.actions.lookup "double_tap",
          hold? := draft.actions.lookup "hold" }
      match tapDance.make with
      | .faults issues => .error (problemAt (.tapDanceInvalid issues) draft.line)
      | .ok tapDance =>
        if made.any (·.enumerator == tapDance.enumerator) then
          .error (problemAt (.repeatedTapDance draft.name) draft.line)
        else makeTapDances rest (made ++ [tapDance])

def assemble (c : Content) (layers : List Layer) : Except ReadError Layout := do
  let tapDances ← makeTapDances c.tapDances []
  let layout : Layout :=
    { metadata := c.metadata, layers, categories := c.categories, tapDances,
      settings := c.settings }
  match layout.check with
  | .ok layout => return layout
  | .faults issues => .error (.rejected .layout issues)

/-- The layout at the end of a document of `count` lines. -/
def finish (count : Nat) (s : State) : Outcome Layout :=
  match finishContent count s with
  | .error e => ⟨s.warnings, .error e⟩
  | .ok c =>
    match checkContent count c with
    | .error e => ⟨s.warnings, .error e⟩
    | .ok () =>
      let (layers, warnings) := describe c.descriptions c.layers
      ⟨c.warnings ++ warnings, assemble c layers⟩

/-- Reads a document. Times that its frontmatter does not give are `now`. -/
def parse (limits : Limits) (now : Time.Stamp) (document : String) : Outcome Layout :=
  let lines := Text.splitLinesFrom [] document.toList
  match readLines limits now 1 lines .start with
  | ⟨warnings, .error e⟩ => ⟨warnings, .error e⟩
  | ⟨_, .ok s⟩ => finish lines.length s

end Keyforge.Document
