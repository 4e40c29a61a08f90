import Keyforge.Document.Frontmatter
import Keyforge.Document.Line
import Keyforge.Document.State

/-!
# Reading lines

What each line of a document means in the region it is found in.
-/

namespace Keyforge.Document

/-! ### Frontmatter -/

/-- Reads the metadata from the lines of the frontmatter and checks them against the limits. -/
def readMetadata (limits : Limits) (now : Time.Stamp) (opened : Nat) (lines : List (List Char)) :
    Except ReadError Metadata :=
  match Frontmatter.load now lines with
  | .error (.unloadable (.malformed _ line?)) =>
    .error (problemAt .frontmatterSyntax
      (match line? with
        | some line => opened + 1 + line
        | none => opened))
  | .error (.unloadable error) => .error (.frontmatter error)
  | .error .noMapping => .error (problemAt .frontmatterNoMapping opened)
  | .error (.refused issues) => .error (problemAt (.frontmatterInvalid issues) opened)
  | .ok metadata =>
    if !limits.versions.contains metadata.version then
      .error (problemAt (.unsupportedVersion metadata.version limits.versions) opened)
    else if limits.maxNameLength < Text.size metadata.name.toList then
      .error (problemAt (.nameTooLong limits.maxNameLength) opened)
    else .ok metadata

/-! ### Layers -/

def closeLayer (c : Content) (draft : Draft) (keys : List (Position × Key)) :
    Except ReadError Content :=
  let layer : Layer :=
    { index := (c.layers.length : Nat), name := draft.name, id? := draft.id?,
      color? := draft.color?, category? := draft.category?,
      colorsEnabled := draft.colorsEnabled, keys }
  match layer.make with
  | .ok layer => .ok { c with layers := c.layers ++ [layer] }
  | .faults issues => .error (.rejected .layer issues)

/-- Ends the region of a layer, if it is one. -/
def closeRegion (c : Content) : Region → Except ReadError Content
  | .layer draft | .tableHeader draft | .tableSeparator draft _ => closeLayer c draft []
  | .table draft _ _ keys => closeLayer c draft keys
  | _ => .ok c

def readDigits (digits : List Char) : Except ReadError Nat :=
  (Number.ofDigits digits).mapError fun _ => .tooLong digits.length

def openRegion (c : Content) (line : Nat) (cs : List Char) : Except ReadError Region :=
  match Line.layerHeading? cs with
  | some (digits, name) => do
    let number ← readDigits digits
    if number = c.layers.length then .ok (.layer { name })
    else .error (problemAt (.layerNumber c.layers.length number) line)
  | none =>
    match Line.section? cs with
    | some .categories => .ok .categories
    | some .descriptions => .ok .descriptions
    | some .settings => .ok .settings
    | some .tapDances => .ok .tapDances
    | none => .ok .skipped

/-- Reads a heading: it ends the region before it and opens the next one. -/
def readHeading (c : Content) (region : Region) (line : Nat) (cs : List Char) :
    Except ReadError State := do
  let c ← closeRegion c region
  let region ← openRegion c line cs
  return .inside c region

inductive PropertyName where
  | id
  | color
  | category
  | colors
  | unknown
  deriving Repr, DecidableEq

/-- The property with a name; names are compared in small letters. -/
def PropertyName.of (name : List Char) : PropertyName :=
  match Text.lower (String.ofList (Text.trim name)) with
  | "id" => .id
  | "color" => .color
  | "category" => .category
  | "layer colors" => .colors
  | _ => .unknown

def readProperty (c : Content) (draft : Draft) (line : Nat) (cs : List Char) :
    Except ReadError State :=
  match Line.property? cs with
  | none => .error (problemAt (.noProperty (String.ofList cs)) line)
  | some (name, chars) =>
    let column := Text.size cs - Text.size chars + 1
    let value := String.ofList chars
    match PropertyName.of name with
    | .id =>
      if Name.isLayerId chars then .ok (.inside c (.layer { draft with id? := some value }))
      else .error (problemAt (.layerId value) line (some column))
    | .color =>
      match Color.ofHex value with
      | .ok color => .ok (.inside c (.layer { draft with color? := some color }))
      | .error error => .error (problemAt (.layerColor error) line (some column))
    | .category =>
      if Name.isCategoryId chars then
        .ok (.inside { c with uses := c.uses ++ [⟨value, line, column⟩] }
          (.layer { draft with category? := some value }))
      else .error (problemAt (.layerCategory value) line (some column))
    | .colors =>
      let colorsEnabled := ["true", "yes", "1"].contains (Text.lower value)
      .ok (.inside c (.layer { draft with colorsEnabled }))
    | .unknown =>
      let warning := Warning.unknownProperty (String.ofList name) line
      .ok (.inside { c with warnings := c.warnings ++ [warning] } (.layer draft))

/-! ### Tables -/

/-- The cells of the row in a line, which `indent` characters precede. -/
def readRow (line indent length : Nat) (cs : List Char) :
    Except ReadError (List (List Char × Nat)) :=
  match Line.cells? indent cs with
  | some cells => .ok cells
  | none => .error (problemAt .unbalancedRow line (some length))

/-- The keys and category references of a row's cells, added to those before them. Blank cells hold
no key. -/
def readCells (line row : Nat) : (col : Nat) → List (List Char × Nat) →
    List (Position × Key) → List CategoryNote →
    Except ReadError (List (Position × Key) × List CategoryNote)
  | _, [], keys, uses => .ok (keys, uses)
  | col, (cs, column) :: rest, keys, uses =>
    if cs.isEmpty then readCells line row (col + 1) rest keys uses
    else
      match Cell.read cs with
      | .error e => .error (problemAt (.cell e.cause) line (some (column + e.offset)))
      | .ok cell =>
        let position : Position := ⟨(row : Nat), (col : Nat)⟩
        let key : Key :=
          { keycode := cell.keycode, position, slot := (keys.length : Nat),
            color? := cell.color?, category? := cell.category? }
        match key.make with
        | .faults issues => .error (.rejected .key issues)
        | .ok key =>
          let use := cell.category?.toList.map fun id => ⟨id, line, column⟩
          readCells line row (col + 1) rest (Pairs.put position key keys) (uses ++ use)

def checkCount (line : Nat) (cells : List (List Char × Nat)) (columns : Nat) :
    Except ReadError Unit :=
  if cells.length = columns then .ok () else .error (problemAt (.cellCount cells.length columns) line)

def readSeparator (c : Content) (draft : Draft) (columns line : Nat)
    (cells : List (List Char × Nat)) : Except ReadError State :=
  match cells.find? (fun (cs, _) => !Line.isSeparator cs) with
  | some (_, column) => .error (problemAt .noSeparator line (some column))
  | none => do
    checkCount line cells columns
    return .inside c (.table draft columns 0 [])

/-- Reads a row of keys, which has a cell for each column. -/
def readKeys (c : Content) (draft : Draft) (columns rows line : Nat) (keys : List (Position × Key))
    (cells : List (List Char × Nat)) : Except ReadError State := do
  checkCount line cells columns
  let (keys, uses) ← readCells line rows 0 cells keys c.uses
  return .inside { c with uses } (.table draft columns (rows + 1) keys)

/-! ### Sections -/

def readCategory (c : Content) (line : Nat) (cs : List Char) : Except ReadError Content :=
  match Line.category? cs with
  | none => .error (problemAt (.noCategory (String.ofList cs)) line)
  | some entry =>
    if c.categories.any (·.id == entry.id) then
      .error (problemAt (.repeatedCategory entry.id) line)
    else
      match Category.make entry.id entry.name entry.color entry.description? with
      | .ok category => .ok { c with categories := c.categories ++ [category] }
      | .faults issues => .error (problemAt (.categoryInvalid issues) line)

def readDescription (c : Content) (line : Nat) (cs : List Char) : Except ReadError Content :=
  match Line.description? cs with
  | none => .error (problemAt (.noDescription (String.ofList cs)) line)
  | some entry => do
    let layer ← readDigits entry.layer
    let row ← readDigits entry.row
    let col ← readDigits entry.col
    let note := ⟨line, layer, ⟨(row : Nat), (col : Nat)⟩, entry.text⟩
    .ok { c with descriptions := c.descriptions ++ [note] }

def readSetting (c : Content) (line : Nat) (cs : List Char) : Except ReadError Content :=
  match Line.property? cs with
  | none => .error (problemAt (.noSetting (String.ofList cs)) line)
  | some (name, value) =>
    let name := String.ofList (Text.trim name)
    .ok { c with settings := Pairs.put name (String.ofList value) c.settings }

/-- The key of an action: its word in small letters with an underscore for the blank. -/
def actionKey (word : String) : String :=
  String.ofList ((Text.lower word).toList.map fun c => if c == ' ' then '_' else c)

def readAction (drafts : List TapDanceDraft) (line : Nat) (word keycode : String) :
    Except ReadError (List TapDanceDraft) :=
  match drafts.getLast? with
  | none => .error (problemAt .actionWithoutName line)
  | some draft =>
    if Pairs.has (actionKey word) draft.actions then
      .error (problemAt (.repeatedAction draft.name word) line)
    else
      .ok (drafts.dropLast ++
        [{ draft with actions := draft.actions ++ [(actionKey word, keycode)] }])

def readTapDance (c : Content) (line : Nat) (cs : List Char) : Except ReadError Content :=
  match Line.action? cs with
  | some (word, keycode) => do
    let tapDances ← readAction c.tapDances line word keycode
    return { c with tapDances }
  | none =>
    match Line.tapDance? cs with
    | some name => .ok { c with tapDances := c.tapDances ++ [{ line, name }] }
    | none => .error (problemAt (.noTapDance (String.ofList cs)) line)

/-! ### Lines -/

def continueIn (region : Region) (result : Except ReadError Content) : Except ReadError Step :=
  result.map fun c => .done (.inside c region)

def endTable (c : Content) (region : Region) (line : Nat) : Except ReadError Step :=
  match region with
  | .table draft _ _ keys => (closeLayer c draft keys).map fun c => .again (.inside c .body)
  | _ => .error (problemAt .tableEnded line)

/-- Reads a line that is no heading in a region that is no table. -/
def readPlain (c : Content) (region : Region) (line indent : Nat) (cs : List Char) :
    Except ReadError Step :=
  match region with
  | .layer draft =>
    if Line.isRow cs then .ok (.again (.inside c (.tableHeader draft)))
    else if cs == ['-', '-', '-'] then continueIn .body (closeLayer c draft [])
    else if cs.isEmpty then .ok (.done (.inside c region))
    else (readProperty c draft line cs).map .done
  | .body | .skipped =>
    if Line.isRow cs then .error (problemAt .strayTable line (some (indent + 1)))
    else .ok (.done (.inside c region))
  | .categories =>
    continueIn region (if cs.isEmpty then .ok c else readCategory c line cs)
  | .descriptions =>
    continueIn region (if cs.isEmpty then .ok c else readDescription c line cs)
  | .settings =>
    continueIn region (if cs.isEmpty then .ok c else readSetting c line cs)
  | .tapDances =>
    continueIn region (if cs.isEmpty then .ok c else readTapDance c line cs)
  | _ => .ok (.done (.inside c region))

def readContent (c : Content) (region : Region) (line : Nat) (full : List Char) :
    Except ReadError Step :=
  let cs := Text.trim full
  let indent := full.length - (Text.trimLeft full).length
  match region with
  | .tableHeader draft =>
    if Line.isRow cs then do
      let cells ← readRow line indent (Text.size full) cs
      return .done (.inside c (.tableSeparator draft cells.length))
    else endTable c region line
  | .tableSeparator draft columns =>
    if Line.isRow cs then do
      let cells ← readRow line indent (Text.size full) cs
      let state ← readSeparator c draft columns line cells
      return .done state
    else endTable c region line
  | .table draft columns rows keys =>
    if Line.isRow cs then do
      let cells ← readRow line indent (Text.size full) cs
      let state ← readKeys c draft columns rows line keys cells
      return .done state
    else endTable c region line
  | _ =>
    if Line.isHeading cs then (readHeading c region line cs).map .done
    else readPlain c region line indent cs

/-- Reads one line. `line` is its number, counted from one. -/
def consume (limits : Limits) (now : Time.Stamp) (line : Nat) (full : List Char) :
    State → Except ReadError Step
  | .start =>
    let cs := Text.trim full
    if cs.isEmpty then .ok (.done .start)
    else if cs == ['-', '-', '-'] then .ok (.done (.frontmatter line []))
    else .error (problemAt .noFrontmatter line)
  | .frontmatter opened lines =>
    -- A line that is indented belongs to a text of several lines.
    if Text.trimRight full == ['-', '-', '-'] then
      (readMetadata limits now opened lines).map fun metadata =>
        .done (.inside { metadata } .body)
    else .ok (.done (.frontmatter opened (lines ++ [full])))
  | .inside c region => readContent c region line full

end Keyforge.Document
