import Keyforge.Board.Coordinates
import Keyforge.Build.Workshop
import Keyforge.Layout.Basic

/-!
# Everything as data

What layouts, boards, reports, sources and builds hold, for programs that read them.
-/

/-!
## Layouts as data

What a layout holds, for programs that read it.
-/

namespace Keyforge

def Datum.optionalText (s? : Option String) : Datum := .ofOption .text s?

def Datum.optionalInt (n? : Option Int) : Datum := .ofOption .int n?

def Datum.pairs (items : List (String × String)) : Datum :=
  .list (items.map fun (a, b) => .texts [a, b])

def Position.toDatum (p : Position) : Datum := .list [.int p.row, .int p.col]

def Color.toDatum (c : Color) : Datum := .text c.hex

def Key.toDatum (k : Key) : Datum :=
  .list [.int k.position.row, .int k.position.col, .text k.keycode, .int k.slot,
    .optionalInt k.light?, .ofOption (·.toDatum) k.color?, .optionalText k.category?,
    .optionalText k.description?]

def Layer.toDatum (l : Layer) : Datum :=
  .record [("index", .int l.index), ("name", .text l.name), ("id", .optionalText l.id?),
    ("default_color", .ofOption (·.toDatum) l.color?), ("category_id", .optionalText l.category?),
    ("colors_enabled", .bool l.colorsEnabled),
    ("keys", .list (l.keys.map fun (_, k) => k.toDatum))]

def Category.toDatum (c : Category) : Datum :=
  .record [("id", .text c.id), ("name", .text c.name), ("color", c.color.toDatum),
    ("description", .optionalText c.description?)]

def TapDance.toDatum (t : TapDance) : Datum :=
  .record [("name", .text t.name), ("single_tap", .text t.single),
    ("double_tap", .optionalText t.double?), ("hold", .optionalText t.hold?),
    ("enum_name", .text t.enumerator), ("keycodes", .texts t.keycodes)]

def Metadata.toDatum (m : Metadata) : Datum :=
  .record [("name", .text m.name), ("description", .text m.description), ("author", .text m.author),
    ("created", .text m.created.text), ("modified", .text m.modified.text),
    ("tags", .texts m.tags), ("is_template", .bool m.isTemplate), ("version", .text m.version),
    ("keyboard", .optionalText m.keyboard?), ("layout_variant", .optionalText m.layoutVariant?),
    ("keymap_name", .optionalText m.keymapName?)]

def Layout.toDatum (l : Layout) : Datum :=
  .record [("metadata", l.metadata.toDatum), ("layers", .list (l.layers.map (·.toDatum))),
    ("categories", .list (l.categories.map (·.toDatum))),
    ("tap_dances", .list (l.tapDances.map (·.toDatum))), ("settings", .pairs l.settings)]

def Layout.CategoryUse.toDatum (u : CategoryUse) : Datum :=
  .list [.int u.layer.index, .ofOption (fun k => k.position.toDatum) u.key?, .text u.id]

def Layout.TapDanceUse.toDatum (u : TapDanceUse) : Datum :=
  .list [.int u.layer.index, u.key.position.toDatum, .text u.name]

/-!
## Boards as data

What a board holds and how its coordinates go together, for programs that read them.
-/

def KeyShape.toDatum (k : KeyShape) : Datum :=
  .list [.int k.position.row, .int k.position.col, .optionalInt k.light?, .float k.x, .float k.y,
    .float k.width, .float k.height, .float k.rotation, .float k.centerX]

def Split.toDatum (s : Split) : Datum :=
  .list [.bool s.reverseColumns, .text s.axis.name, .optionalInt s.boundary?]

def Half.toDatum : Half → Datum
  | .left => .int 0
  | .right => .int 1

def Geometry.toDatum (g : Geometry) : Datum :=
  .record [("keys", .list (g.keys.map (·.toDatum))), ("matrix", .list [.int g.rows, .int g.cols]),
    ("encoder_count", .int g.encoderCount), ("split", .ofOption (·.toDatum) g.split?),
    ("has_lighting", .bool g.hasLighting), ("light_count", .optionalInt g.lightCount?),
    ("decorative_lights", .int g.decorativeLights), ("total_lights", .int g.totalLights),
    ("keyed_lights", .int g.keyedLights), ("halves", .list (g.halves.map (·.toDatum)))]

def Board.toDatum (b : Board) : Datum :=
  .record [("keyboard", b.keyboard), ("layout_name", .optionalText b.layoutName?),
    ("base_config", .text b.baseConfig),
    ("split_light_counts", .ofOption (fun (x, y) => .list [.int x, .int y]) b.splitLightCounts?),
    ("geometry", b.geometry.toDatum)]

namespace Coordinates

def optionalPosition (p? : Option Position) : Datum := .ofOption (·.toDatum) p?

def optionalCount (n? : Option Nat) : Datum := .ofOption (fun n => .int (n : Nat)) n?

def describePosition (c : Coordinates) (p : Position) : Datum :=
  .list [.bool (c.has p), optionalCount (c.slotOf? p), .optionalInt (c.lightOf? p),
    optionalCount (c.argumentOf? p)]

/-- What is known of a number, as a slot and as a light. -/
def describeNumber (c : Coordinates) (n : Int) : Datum :=
  .list [optionalPosition (c.atSlot? n), .optionalInt (c.lightAtSlot? n),
    optionalPosition (c.overLight? n)]

def toDatum (c : Coordinates) : Datum :=
  let slots := List.range c.keyCount
  let lights := List.range c.lightCount.toNat
  .record [("key_count", .int (c.keyCount : Nat)), ("light_count", .int c.lightCount),
    ("visual", .list (c.slots.map (·.toDatum))),
    ("visual_lights", .list (slots.map fun n => .optionalInt (c.lightAtSlot? (n : Nat)))),
    ("emission", .list (c.arguments.map (·.toDatum))),
    ("emission_visual", .list (c.arguments.map fun p => optionalCount (c.slotOf? p))),
    ("lights", .list (lights.map fun n => optionalPosition (c.overLight? (n : Nat))))]

end Coordinates

end Keyforge

/-!
## Builds as data

The messages of builds and the state of the workshop, for programs that read them.
-/

namespace Keyforge.Build

def Failure.toDatum (f : Failure) : Datum :=
  .list [.text f.cause.phase.name, .text f.cause.message, .optionalInt f.cause.code?, .texts f.log]

def Message.toDatum : Message → Datum
  | .progress id status text =>
    .list [.text "progress", .int (id : Nat), .text status.name, .text text]
  | .output id level line => .list [.text "log", .int (id : Nat), .text level.name, .text line]
  | .complete id c =>
    .list [.text "complete", .int (id : Nat), .text c.status.name, .optionalInt c.code?,
      .ofOption (fun p => .text p.text) c.firmware?, .ofOption (·.toDatum) c.failure?,
      .bool (c.status == .success)]

def Workshop.toDatum (w : Workshop) : Datum :=
  .list [.text w.status.name, .ofOption (fun n => .int (n : Nat)) w.active?,
    .ofOption (fun s => .text s.name) w.lastStatus?]

end Keyforge.Build

/-!
## Reports and artifacts as data

What checking a layout found and what was generated from it, for programs that read them.
-/

namespace Keyforge.Firmware

def Finding.toDatum (f : Finding) : Datum :=
  .record [("kind", .text f.kind.name), ("severity", .text f.severity.name),
    ("message", .text f.message), ("layer", .optionalInt f.layer?),
    ("position", .ofOption (·.toDatum) f.position?), ("keycode", .optionalText f.keycode?),
    ("suggestion", .optionalText f.suggestion?)]

def Report.toDatum (r : Report) : Datum :=
  .record [("valid", .bool r.isValid), ("errors", .list (r.errors.map (·.toDatum))),
    ("warnings", .list (r.warnings.map (·.toDatum))), ("text", .text r.text)]

def Artifacts.toDatum (a : Artifacts) : Datum :=
  .record [("keyboard", .optionalText a.keyboard?), ("keymap", .text a.keymap), ("files", .pairs a.files),
    ("report", a.report.toDatum)]

end Keyforge.Firmware
