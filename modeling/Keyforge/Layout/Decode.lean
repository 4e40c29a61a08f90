import Keyforge.Layout.Check

/-!
# Decoding layouts

The parts of a layout as the entries of mappings, checked as they are made. `Layout.ofGeometry`
makes a layout for a board to start from.
-/

namespace Keyforge

open Datum

def Datum.Decoder.checked (d : Decoder α) (f : α → Verdict β) : Decoder β :=
  fun value => (d value).andThen f

/-- A text that may be null, checked if it is not. -/
def Datum.Decoder.checkedSome (f : String → Verdict String) : Decoder (Option String) :=
  Decoder.checked (.optional .text) (checkSome f)

/-- A text that may be null, absent by default. -/
def optionalText (es : List (Datum × Datum)) (name : String) : Verdict (Option String) :=
  withDefault es name none (.optional .text)

def Category.ofEntries (es : List (Datum × Datum)) : Verdict Category :=
  Category.mk <$> required es "id" (.checked .text Category.checkId) <*>
    required es "name" (.checked .text Category.checkName) <*>
    required es "color" Color.decode <*>
    optionalText es "description"

def Key.ofFields (position : Verdict Position) (es : List (Datum × Datum)) : Verdict Key :=
  (fun keycode position slot light? color? category? description? =>
      { keycode, position, slot, light?, color?, category?,
        description? := Key.tidyDescription description? }) <$>
    required es "keycode" (.checked .text Key.checkKeycode) <*>
    position <*>
    withDefault es "visual_slot" 0 .integer <*>
    withDefault es "light_index" none (.optional .integer) <*>
    withDefault es "color_override" none (.optional Color.decode) <*>
    optionalText es "category_id" <*>
    optionalText es "description"

def Key.ofEntries (position : Position) (es : List (Datum × Datum)) : Verdict Key :=
  Key.ofFields (.ok position) es

def Key.decode : Decoder Key :=
  .ofEntries .notModel fun es => Key.ofFields (required es "position" Position.decode) es

/-- A layer whose keys are still to be checked. -/
def Layer.draft (keys : Verdict (List (Position × Key))) (es : List (Datum × Datum)) :
    Verdict Layer :=
  (fun index name id? color? category? colorsEnabled keys =>
      { index, name, id?, color?, category?, colorsEnabled, keys : Layer }) <$>
    required es "index" .integer <*>
    required es "name" (.checked .text Layer.checkName) <*>
    withDefault es "id" none (.checkedSome Layer.checkId) <*>
    withDefault es "default_color" none (.optional Color.decode) <*>
    optionalText es "category_id" <*>
    withDefault es "colors_enabled" true .flag <*>
    keys

def Layer.ofEntries (keys : List (Position × Key)) (es : List (Datum × Datum)) : Verdict Layer :=
  (Layer.draft (.ok keys) es).andThen Layer.checkKeys

def Layer.keysOf (es : List (Datum × Datum)) : Verdict (List (Position × Key)) :=
  withDefault es "keys" [] (.mapBy Position.decode Key.decode)

def TapDance.ofEntries (es : List (Datum × Datum)) : Verdict TapDance :=
  TapDance.mk <$> required es "name" (.checked .text TapDance.checkName) <*>
    required es "single_tap" (.checked .text TapDance.checkKeycode) <*>
    withDefault es "double_tap" none (.checkedSome TapDance.checkKeycode) <*>
    withDefault es "hold" none (.checkedSome TapDance.checkKeycode)

/-- Metadata. Times that are not given are `now`. -/
def Metadata.ofEntries (now : Time.Stamp) (es : List (Datum × Datum)) : Verdict Metadata :=
  let fields := Metadata.mk <$> required es "name" (.checked .text Metadata.checkName) <*>
    withDefault es "description" "" .text <*>
    withDefault es "author" "" .text <*>
    withDefault es "created" now .stamp <*>
    withDefault es "modified" now .stamp <*>
    withDefault es "tags" [] (.checked (.listOf .text) Metadata.checkTags) <*>
    withDefault es "is_template" false .flag <*>
    withDefault es "version" "1.0" .text <*>
    optionalText es "keyboard" <*>
    optionalText es "layout_variant" <*>
    optionalText es "keymap_name"
  fields.andThen Metadata.checkDates

/-- Settings, which are texts under texts. -/
def Layout.settingsOf : Decoder (List (String × String)) := .mapOf .text

end Keyforge

/-!
## New layouts

A layout for a board to start from: one layer with the same keycode on every key.
-/

namespace Keyforge.Layout

open Datum

def newKey (keycode : Datum) (shape : KeyShape) : Except Rejected (Position × Key) := do
  let key ← Part.key.accept (Key.ofEntries shape.position [(.text "keycode", keycode)])
  return (shape.position, { key with light? := shape.light? })

/-- A layout with a base layer that assigns the keycode to every key of a board. The metadata are
those of the entries; times that are not given are `now`. -/
def ofGeometry (now : Time.Stamp) (g : Geometry) (keycode : Datum)
    (metadata : List (Datum × Datum)) : Except Rejected Layout := do
  let keys ← g.keys.mapM (newKey keycode)
  let metadata ← Part.metadata.accept (Metadata.ofEntries now metadata)
  let layer ← Part.layer.accept (Layer.make { index := 0, name := "Base", keys })
  Part.layout.accept (Layout.check { metadata, layers := [layer] })

end Keyforge.Layout
