import Keyforge.Document.Cell
import Keyforge.Document.Frontmatter

/-!
# Writing documents

A layout as a document: the frontmatter, a heading with the name, a block for each layer with its
properties and its table, and the sections that have entries.
-/

namespace Keyforge.Document

def rowText (cells : List String) : String := "| " ++ String.intercalate " | " cells ++ " |"

def columnName (col : Int) : String := "C" ++ Text.intText col

/-- One more than the greatest of some numbers, zero if there are none. -/
def beyond (ns : List Int) : Int :=
  match ns with
  | [] => 0
  | n :: rest => rest.foldl max n + 1

def cellText (layer : Layer) (p : Position) : String :=
  match layer.keyAt? p with
  | some key => (Cell.ofKey key).text
  | none => ""

/-- The table of a layer, large enough for its keys. -/
def tableLines (layer : Layer) : List String :=
  let rows := Position.indices (beyond (layer.keys.map fun (p, _) => p.row))
  let cols := Position.indices (beyond (layer.keys.map fun (p, _) => p.col))
  let dashes := cols.map fun col => String.ofList (List.replicate ((columnName col).length + 2) '-')
  rowText (cols.map columnName) :: ("|" ++ String.intercalate "|" dashes ++ "|") ::
    rows.map fun row => rowText (cols.map fun col => cellText layer ⟨row, col⟩)

def propertyLines (layer : Layer) : List String :=
  ["## Layer " ++ Text.intText layer.index ++ ": " ++ layer.name] ++
    (layer.id?.toList.map fun id => "**ID**: " ++ id) ++
    (layer.color?.toList.map fun color => "**Color**: " ++ color.hex) ++
    (layer.category?.toList.map fun id => "**Category**: " ++ id) ++
    (if layer.colorsEnabled then [] else ["**Layer Colors**: false"])

def layerLines (layer : Layer) : List String :=
  propertyLines layer ++ [""] ++
    if layer.keys.isEmpty then [] else tableLines layer ++ [""]

def descriptionLine? (layer : Layer) (key : Key) : Option String :=
  match key.description? with
  | none | some "" => none
  | some text =>
    some ("- " ++ Text.intText layer.index ++ ":" ++ Text.intText key.position.row ++ ":" ++
      Text.intText key.position.col ++ ": " ++ text)

def descriptionLines (l : Layout) : List String :=
  l.layers.flatMap fun layer => layer.keys.filterMap fun (_, key) => descriptionLine? layer key

def categoryLine (c : Category) : String :=
  "- " ++ c.id ++ ": " ++ c.name ++ " (" ++ c.color.hex ++ ")" ++
    match c.description? with
    | none | some "" => ""
    | some text => " - " ++ text

def tapDanceLines (t : TapDance) : List String :=
  ["- **" ++ t.name ++ "**:", "  - Single Tap: " ++ t.single] ++
    (t.double?.toList.map fun code => "  - Double Tap: " ++ code) ++
    (t.hold?.toList.map fun code => "  - Hold: " ++ code)

def settingLine (setting : String × String) : String :=
  "**" ++ setting.1 ++ "**: " ++ setting.2

/-- A section, left out if it has no lines. -/
def sectionLines (title : String) (lines : List String) : List String :=
  if lines.isEmpty then [] else ["## " ++ title, ""] ++ lines ++ [""]

def sections (l : Layout) : List String :=
  sectionLines "Key Descriptions" (descriptionLines l) ++
    sectionLines "Categories" (l.categories.map categoryLine) ++
    sectionLines "Tap Dances" (l.tapDances.flatMap tapDanceLines) ++
    sectionLines "Settings" (l.settings.map settingLine)

def sectionsWithRule (l : Layout) : List String :=
  if (sections l).isEmpty then [] else ["---", ""] ++ sections l

def lines (l : Layout) : List String :=
  ["---"] ++ Frontmatter.lines l.metadata ++ ["---", "", "# " ++ l.metadata.name, ""] ++
    l.layers.flatMap layerLines ++ sectionsWithRule l

/-- The text of lines, with one line end at its end. -/
def textOfLines (lines : List String) : String :=
  String.ofList (Text.dropWhileEnd (· == '\n') (Text.joinLines lines).toList ++ ['\n'])

/-- The document of a layout. -/
def write (l : Layout) : String := textOfLines (lines l)

end Keyforge.Document
