import Keyforge.Board.Coordinates
import Keyforge.Firmware.Report
import Keyforge.Keycode.Table
import Keyforge.Layout.Basic

/-!
# Validation

A layout is checked against the board it is for: its keys have to be keys of the board, its
references have to lead somewhere, and the board's account of its lights has to add up.
-/

namespace Keyforge.Firmware

/-- What is checked: a layout against a board, with a table of known keycodes if there is one. -/
structure Subject where
  layout : Layout
  board : Board
  coordinates : Coordinates
  table? : Option Keycode.Table := none

namespace Subject

/-! ### Layers -/

def layerCategoryFindings (s : Subject) (layer : Layer) : List Finding :=
  match layer.category? with
  | none => []
  | some id =>
    if (s.layout.category? id).isSome then []
    else [{
      kind := .danglingCategory
      message := "layer category \"" ++ id ++ "\" is not defined"
      layer? := some layer.index
      suggestion? := some "add the category or clear the layer's category" }]

/-- The number of keys of a layer that are keys of the board. -/
def definedCount (s : Subject) (layer : Layer) : Nat :=
  (layer.keys.filter fun (p, _) => s.coordinates.has p).length

/-- A layer should have keys, and the base layer all keys of the board. -/
def layerKeysFindings (s : Subject) (layer : Layer) : List Finding :=
  if layer.keys.isEmpty then
    [{ kind := .emptyLayer
       message := "layer \"" ++ layer.name ++ "\" has no keys, all of its keys will be transparent"
       severity := .warning
       layer? := some layer.index }]
  else if layer.index = 0 ∧ s.definedCount layer < s.coordinates.keyCount then
    [{ kind := .keyCountMismatch
       message := "only " ++ Text.natText (s.definedCount layer) ++ " of " ++
         Text.natText s.coordinates.keyCount ++ " board keys are defined on the base layer"
       severity := .warning
       layer? := some layer.index
       suggestion? := some "undefined keys will be transparent" }]
  else []

def layerFindings (s : Subject) (layer : Layer) : List Finding :=
  s.layerCategoryFindings layer ++ s.layerKeysFindings layer

/-! ### Keys -/

def keyFinding (layer : Layer) (p : Position) (key : Key) (kind : Kind) (severity : Severity)
    (message : String) (suggestion? : Option String := none) : Finding :=
  ⟨kind, message, severity, some layer.index, some p, some key.keycode, suggestion?⟩

def positionFindings (s : Subject) (layer : Layer) (p : Position) (key : Key) : List Finding :=
  if s.coordinates.has p then []
  else [keyFinding layer p key .unmappedPosition .error
    ("key " ++ key.keycode ++ " is at a position that does not exist on board \"" ++
      s.board.name ++ "\" (" ++ Text.intText s.board.geometry.rows ++ "x" ++
      Text.intText s.board.geometry.cols ++ " matrix)")
    (some "remove the key or move it to a position used by the board's layout")]

def keyCategoryFindings (s : Subject) (layer : Layer) (p : Position) (key : Key) : List Finding :=
  match key.category? with
  | none => []
  | some id =>
    if (s.layout.category? id).isSome then []
    else [keyFinding layer p key .danglingCategory .error
      ("category \"" ++ id ++ "\" of key " ++ key.keycode ++ " is not defined")
      (some "add the category or remove the @category suffix")]

def knownLayers (s : Subject) : String :=
  let ids := s.layout.layerIds.map Prod.fst
  "known layer ids: " ++
    match String.intercalate ", " ids with
    | "" => "none"
    | text => text

/-- The ids in a keycode that no layer has, each as often as it occurs. -/
def unknownLayers (s : Subject) (keycode : String) : List String :=
  (Keycode.layerReferences keycode).filter fun id => !Pairs.has id s.layout.layerIds

/-- Layer ids in a keycode have to name layers; `context` is where the keycode stands. -/
def layerReferenceFindings (s : Subject) (context : Finding → Finding) (keycode : String) :
    List Finding :=
  (s.unknownLayers keycode).map fun id =>
    context {
      kind := .unknownLayerReference
      message := "keycode " ++ keycode ++ " refers to unknown layer id \"@" ++ id ++ "\""
      keycode? := some keycode
      suggestion? := some s.knownLayers }

def keyContext (layer : Layer) (p : Position) (f : Finding) : Finding :=
  { f with layer? := some layer.index, position? := some p }

def tapDanceFindings (s : Subject) (layer : Layer) (p : Position) (key : Key) : List Finding :=
  ((Keycode.tapDanceReferences key.keycode).filter fun name =>
    (s.layout.tapDance? name).isNone).map fun name =>
      keyFinding layer p key .unknownTapDance .error
        ("keycode " ++ key.keycode ++ " refers to tap dance \"" ++ name ++
          "\" which is not defined")
        (some "add it to the tap dances block or change the keycode")

def targetFindings (s : Subject) (layer : Layer) (p : Position) (key : Key) : List Finding :=
  let count := s.layout.layers.length
  ((Keycode.numericTargets key.keycode).filter fun n => count ≤ n).map fun n =>
    keyFinding layer p key .unknownLayerReference .warning
      ("keycode " ++ key.keycode ++ " targets layer " ++ Text.natText n ++
        " but the layout has " ++ Text.natText count ++ " layers")

/-- Keycodes should be known, and those for lights need lights. -/
def keycodeFindings (s : Subject) (layer : Layer) (p : Position) (key : Key) : List Finding :=
  match s.table? with
  | none => []
  | some table =>
    if !table.isKnown key.keycode then
      [keyFinding layer p key .unknownKeycode .warning
        ("keycode " ++ key.keycode ++ " is not recognized")]
    else if table.needsLighting key.keycode && !s.board.geometry.hasLighting then
      [keyFinding layer p key .unknownKeycode .warning
        ("keycode " ++ key.keycode ++
          " controls lighting but the board has no lighting hardware")]
    else []

/-- What is found about a key, check by check. -/
def keyFindings (s : Subject) (layer : Layer) (p : Position) (key : Key) : List Finding :=
  s.positionFindings layer p key ++ s.keyCategoryFindings layer p key ++
    s.layerReferenceFindings (keyContext layer p) key.keycode ++
    s.tapDanceFindings layer p key ++ s.targetFindings layer p key ++
    s.keycodeFindings layer p key

/-! ### Tap dances -/

/-- The findings about the actions of tap dances, then about tap dances that are not used. -/
def tapDancesFindings (s : Subject) : List Finding :=
  (s.layout.tapDances.flatMap fun t =>
    t.keycodes.flatMap fun keycode => s.layerReferenceFindings id keycode) ++
    s.layout.unusedTapDances.map fun name =>
      { kind := .unusedTapDance
        message := "tap dance \"" ++ name ++ "\" is defined but never used in any layer"
        severity := .warning }

/-! ### Lights -/

/-- The lights of a board have to be those under keys, or those and the decorative ones. -/
def lightFindings (s : Subject) : List Finding :=
  let g := s.board.geometry
  let total := g.totalLights
  let keyed := g.keyedLights
  let decorative := g.decorativeLights
  if !g.hasLighting || total == keyed then []
  else if total == keyed + decorative then
    [{ kind := .lightCountMismatch
       message := "board declares " ++ Text.intText total ++ " lights, " ++
         Text.intText decorative ++ " of them have no key and will show the layer color"
       severity := .warning }]
  else
    [{ kind := .lightCountMismatch
       message := "board declares " ++ Text.intText total ++ " lights but describes " ++
         Text.intText keyed ++ " lights under keys and " ++ Text.intText decorative ++
         " decorative lights"
       suggestion? :=
         some "check rgb_matrix.split_count and rgb_matrix.layout of the board definition" }]

/-! ### Everything -/

def findings (s : Subject) : List Finding :=
  s.layout.layers.flatMap s.layerFindings ++
    (s.layout.layers.flatMap fun layer =>
      layer.keys.flatMap fun (p, key) => s.keyFindings layer p key) ++
    s.tapDancesFindings ++ s.lightFindings

/-! ### Numbers -/

/-- The numbers that are written about a key. -/
def positionNumbers (s : Subject) (p : Position) : List Int :=
  if s.coordinates.has p then []
  else s.board.keyboard.integers ++ [s.board.geometry.rows, s.board.geometry.cols]

/-- The numbers that are written about the lights, but for the number of keys that have one. -/
def lightNumbers (s : Subject) : List Int :=
  let g := s.board.geometry
  if !g.hasLighting || g.totalLights == g.keyedLights then []
  else [g.totalLights, g.decorativeLights]

def checkKey (s : Subject) (p : Position) (key : Key) : Except Number.IntegerError Unit := do
  Number.checkWritable (s.positionNumbers p)
  Keycode.checkTargets key.keycode

/-- Checks that the layers that are given by their numbers can be read, and that the numbers that
messages are about can be written. -/
def checkNumbers (s : Subject) : Except Number.IntegerError Unit := do
  s.layout.layers.forM fun layer => layer.keys.forM fun (p, key) => s.checkKey p key
  Number.checkWritable s.lightNumbers

/-- All findings, unless one cannot be told because of a number. -/
def validate (s : Subject) : Except Number.IntegerError Report := do
  s.checkNumbers
  return .ofFindings s.findings

end Subject

end Keyforge.Firmware
