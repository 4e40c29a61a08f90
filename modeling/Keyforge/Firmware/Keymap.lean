import Keyforge.Firmware.Compilation

/-!
# The keymap table

The keycodes of all layers. A board with a layout macro gets the macro's arguments, one source line
for each row of keys; another board gets the whole matrix.
-/

namespace Keyforge.Firmware

namespace Compilation

def keycodeAt (c : Compilation) (layer : Layer) (p : Position) : Except Failure String :=
  match layer.keyAt? p with
  | none => .ok c.options.transparentKeycode
  | some key =>
    match Keycode.emit c.layout.layerIds key.keycode with
    | .ok code => .ok code
    | .error e => .error (.unknownLayer e.id)

/-- The keycodes of a layer in the order of the layout macro's arguments. -/
def layerKeycodes (c : Compilation) (layer : Layer) : Except Failure (List String) :=
  c.coordinates.arguments.mapM (c.keycodeAt layer)

/-! ### Rows of the macro -/

def rowOf (key : KeyShape) : Except Failure Int :=
  match Number.view key.y with
  | .finite d => .ok d.round
  | .infinite _ => .error .tooLarge
  | .nan => .error .notNumber

def groupRows : List (Int × String) → List (List String)
  | [] => []
  | [(_, code)] => [[code]]
  | (row, code) :: (next, other) :: rest =>
    match groupRows ((next, other) :: rest) with
    | [] => [[code]]
    | group :: groups => if row = next then (code :: group) :: groups else [code] :: group :: groups

def withCommas : List String → List String
  | [] => []
  | [line] => [line]
  | line :: rest => (line ++ ",") :: withCommas rest

/-- The arguments of the macro, one line for each row. -/
def argumentLines (codes : List String) (rows : List Int) : List String :=
  withCommas ((groupRows (rows.zip codes)).map (String.intercalate ", "))

/-- A layer as the arguments of the layout macro. -/
def macroLayer (c : Compilation) (name : String) (layer : Layer) : Except Failure (List String) := do
  let codes ← c.layerKeycodes layer
  let rows ← c.board.geometry.keys.mapM rowOf
  return [indent ++ "[" ++ Text.intText layer.index ++ "] = " ++ name ++ "("] ++
    (argumentLines codes rows).map (indent2 ++ ·) ++ [indent ++ "),"]

/-! ### The matrix -/

/-- The keycode of a crossing of the matrix; where there is no key, there is no keycode. -/
def crossing (c : Compilation) (layer : Layer) (p : Position) : Except Failure String :=
  if c.coordinates.has p then c.keycodeAt layer p else .ok "KC_NO"

def matrixRow (c : Compilation) (layer : Layer) (row : Int) : Except Failure String := do
  let codes ← (Position.indices c.board.geometry.cols).mapM fun col => c.crossing layer ⟨row, col⟩
  return indent2 ++ "\x7b " ++ String.intercalate ", " codes ++ " \x7d,"

/-- A layer as the whole matrix. -/
def matrixLayer (c : Compilation) (layer : Layer) : Except Failure (List String) := do
  let rows ← (Position.indices c.board.geometry.rows).mapM (c.matrixRow layer)
  return [indent ++ "[" ++ Text.intText layer.index ++ "] = \x7b"] ++ rows ++ [indent ++ "\x7d,"]

/-! ### The table -/

def layerEntry (c : Compilation) (layer : Layer) : Except Failure (List String) := do
  let lines ←
    match c.board.layoutName? with
    | some name =>
      if c.board.geometry.keys.isEmpty then c.matrixLayer layer else c.macroLayer name layer
    | none => c.matrixLayer layer
  return (indent ++ "// Layer " ++ Text.intText layer.index ++ ": " ++ layer.name) :: lines

def keymapLines (c : Compilation) : Except Failure (List String) := do
  let layers ← c.layout.layers.mapM c.layerEntry
  return ["const uint16_t PROGMEM keymaps[][MATRIX_ROWS][MATRIX_COLS] = \x7b"] ++ layers.flatten ++
    ["\x7d;"]

end Compilation

end Keyforge.Firmware
