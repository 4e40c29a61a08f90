import Keyforge.Layout.Decode
import Keyforge.Yaml.Load
import Keyforge.Yaml.Write

/-!
# Frontmatter

The head of a document: the metadata of the layout as YAML.
-/

namespace Keyforge.Document.Frontmatter

inductive Invalid where
  | unloadable (error : Yaml.LoadError)
  | noMapping
  | refused (issues : List Datum.Issue)
  deriving Repr, DecidableEq

/-- Reads metadata from the lines of a frontmatter. Times that are not given are `now`. -/
def load (now : Time.Stamp) (lines : List (List Char)) : Except Invalid Metadata :=
  match Yaml.load (Text.joinLines (lines.map String.ofList)) with
  | .error error => .error (.unloadable error)
  | .ok (.map es) =>
    match Metadata.ofEntries now es with
    | .ok metadata => .ok metadata
    | .faults issues => .error (.refused issues)
  | .ok _ => .error .noMapping

/-- Metadata as the entries of a mapping; what is absent has no entry. -/
def entries (m : Metadata) : List (String × Datum) :=
  [("name", .text m.name), ("description", .text m.description), ("author", .text m.author),
    ("created", .text m.created.text), ("modified", .text m.modified.text),
    ("tags", .texts m.tags), ("is_template", .bool m.isTemplate), ("version", .text m.version)] ++
    (m.keyboard?.toList.map fun s => ("keyboard", .text s)) ++
    (m.layoutVariant?.toList.map fun s => ("layout_variant", .text s)) ++
    (m.keymapName?.toList.map fun s => ("keymap_name", .text s))

/-- Lines are long, and texts of several lines are written as blocks. -/
def options : Yaml.WriteOptions := ⟨1000, true⟩

def lines (m : Metadata) : List String :=
  Text.splitLines <| Yaml.writeDocument options <|
    (entries m).map fun (name, value) => (.text name, value)

end Keyforge.Document.Frontmatter
