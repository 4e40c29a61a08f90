import Keyforge.Board.Error
import Keyforge.Board.Geometry
import Keyforge.Log

/-!
# Board definitions

The part of a keyboard's definition file that describes geometry, lights and halves, and the board
it defines. A definition may have several layout macros; one of them is chosen for the board.
-/

namespace Keyforge

namespace Info

structure Key where
  matrix : Int × Int
  x : Float
  y : Float
  width : Float := 1.0
  height : Float := 1.0
  rotation : Float := 0.0

/-- A light. Lights without a place in the matrix are decorative. -/
structure Light where
  matrix? : Option (Int × Int) := none

/-- The lights of a board in the order of their chain. -/
structure Lighting where
  lights : List Light := []
  splitCounts? : Option (Int × Int) := none

structure Halves where
  enabled : Bool := false
  columnsReversed? : Option Bool := none
  boundary? : Option Int := none
  axis : Axis := .row

end Info

structure Info where
  name? : Option String := none
  layouts : List (String × List Info.Key)
  matrix? : Option (Int × Int) := none
  lighting? : Option Info.Lighting := none
  halves? : Option Info.Halves := none
  features : List (String × Bool) := []
  encoder : List (Datum × Datum) := []

namespace Info

open Datum

/-! ### Decoding -/

def Key.decode : Decoder Key :=
  .ofEntries .notModel fun es =>
    Key.mk <$> required es "matrix" (.pairOf .integer) <*>
      required es "x" .number <*>
      required es "y" .number <*>
      withDefault es "w" 1.0 .number <*>
      withDefault es "h" 1.0 .number <*>
      withDefault es "r" 0.0 .number

def decodeLayout : Decoder (List Key) :=
  .ofEntries .notModel fun es => required es "layout" (.listOf Key.decode)

def Light.decode : Decoder Light :=
  .ofEntries .notModel fun es =>
    (fun matrix? _ _ _ => Light.mk matrix?) <$>
      withDefault es "matrix" none (.optional (.pairOf .integer)) <*>
      withDefault es "x" 0.0 .number <*>
      withDefault es "y" 0.0 .number <*>
      withDefault es "flags" 0 .integer

def Lighting.decode : Decoder Lighting :=
  .ofEntries .notModel fun es =>
    Lighting.mk <$> withDefault es "layout" [] (.listOf Light.decode) <*>
      withDefault es "split_count" none (.optional (.pairOf .integer))

def Halves.decode : Decoder Halves :=
  .ofEntries .notModel fun es =>
    Halves.mk <$> withDefault es "enabled" false .flag <*>
      withDefault es "matrix_columns_reversed" none (.optional .flag) <*>
      withDefault es "boundary" none (.optional .integer) <*>
      withDefault es "axis" .row Axis.decode

def decodeMatrix : Decoder (Int × Int) :=
  .ofEntries .notModel fun es =>
    Prod.mk <$> required es "rows" .integer <*> required es "cols" .integer

def ofEntries (es : List (Datum × Datum)) : Verdict Info :=
  Info.mk <$> withDefault es "keyboard_name" none (.optional .text) <*>
    required es "layouts" (.mapOf decodeLayout) <*>
    withDefault es "matrix_size" none (.optional decodeMatrix) <*>
    withDefault es "rgb_matrix" none (.optional Lighting.decode) <*>
    withDefault es "split" none (.optional Halves.decode) <*>
    withDefault es "features" [] (.mapOf .flag) <*>
    withDefault es "encoder" [] .anyMap

def ofDatum (keyboard : Datum) : Datum → Except Board.Error Info
  | .map es =>
    match ofEntries es with
    | .ok info => .ok info
    | .faults issues => .error (.invalid keyboard.plainText issues)
  | _ => .error (.noMapping keyboard.plainText)

/-! ### Boards -/

def position (place : Int × Int) : Position := ⟨place.1, place.2⟩

/-- Whether the board has lights: the feature decides if it is named, else whether lights are
described. -/
def hasLighting (info : Info) : Bool :=
  (info.features.lookup "rgb_matrix").getD info.lighting?.isSome

def usedLighting? (info : Info) : Option Lighting :=
  if info.hasLighting then info.lighting? else none

def lights (info : Info) : List Light := (info.usedLighting?.map (·.lights)).getD []

/-- The last light at a position, counted from `n`. -/
def lightAt? (p : Position) : (n : Nat) → List Light → Option Int
  | _, [] => none
  | n, light :: rest =>
    match lightAt? p (n + 1) rest with
    | some later => some later
    | none => if light.matrix?.map position == some p then some (n : Int) else none

/-- The number of lights: that of both halves if it is given, else that of the described ones. -/
def lightCount (lighting : Lighting) : Int :=
  match lighting.splitCounts? with
  | some (left, right) => left + right
  | none => (lighting.lights.length : Nat)

def keyShape (info : Info) (key : Key) : KeyShape :=
  let p := position key.matrix
  { position := p, light? := lightAt? p 0 info.lights, x := key.x, y := key.y,
    width := key.width, height := key.height, rotation := key.rotation }

def decorativeCount (info : Info) (ps : List Position) : Nat :=
  (info.lights.filter fun light =>
    match light.matrix? with
    | some place => !ps.contains (position place)
    | none => true).length

/-- The size of the matrix: the declared one, or what the keys need. -/
def matrixSize (info : Info) (ps : List Position) : Int × Int :=
  match info.matrix? with
  | some size => size
  | none =>
    let beyond (ns : List Int) : Int := (Geometry.greatest? ns).getD (-1) + 1
    (beyond (ps.map (·.row)), beyond (ps.map (·.col)))

/-- How the board is split. Along rows the right half has the lower half of the matrix unless the
definition says otherwise. -/
def split? (info : Info) (rows : Int) : Option Split :=
  match info.halves? with
  | none => none
  | some halves =>
    if halves.enabled then
      let boundary? :=
        match halves.boundary?, halves.axis with
        | none, .row => some (rows / 2)
        | boundary?, _ => boundary?
      some ⟨halves.columnsReversed?.getD false, halves.axis, boundary?⟩
    else none

def itemCount? : Datum → Option Nat
  | .list items | .tuple items | .set items => some items.length
  | .map es => some es.length
  | .text s => some (Text.size s.toList)
  | .bytes bs => some bs.length
  | _ => none

/-- The number of encoders, none if they are not given as a list. -/
def encoderCount? (info : Info) : Option Nat :=
  match Datum.entry? "rotary" info.encoder with
  | none => some 0
  | some value => itemCount? value

/-- The layout macro with a name, the first one if no name is given. -/
def chooseLayout (info : Info) (keyboard : Datum) (name? : Option String) :
    Except Board.Error (String × List Key) :=
  match info.layouts with
  | [] => .error (.noLayouts keyboard.plainText)
  | first :: _ =>
    match name? with
    | none => .ok first
    | some name =>
      match info.layouts.lookup name with
      | some keys => .ok (name, keys)
      | none => .error (.noLayout keyboard.plainText name (info.layouts.map Prod.fst))

/-- The geometry of a board with the given keys, before it is checked. -/
def geometry (info : Info) (keys : List Key) (encoderCount : Nat) : Geometry :=
  let shapes := keys.map info.keyShape
  let ps := shapes.map (·.position)
  let (rows, cols) := info.matrixSize ps
  { keys := shapes, rows, cols, encoderCount := (encoderCount : Nat), split? := info.split? rows,
    hasLighting := info.hasLighting, lightCount? := info.usedLighting?.map lightCount,
    decorativeLights := (info.decorativeCount ps : Nat) }

def makeBoard (info : Info) (keyboard : Datum) (name : String) (keys : List Key)
    (baseConfig : String) : Except Board.Error Board :=
  match info.encoderCount? with
  | none => .error .encoders
  | some count =>
    match (info.geometry keys count).check with
    | .faults issues => .error (.geometry keyboard.plainText issues)
    | .ok geometry =>
      .ok ⟨keyboard, geometry, some name, baseConfig, info.usedLighting?.bind (·.splitCounts?)⟩

/-- What is said of a split board that does not tell how its columns are counted. -/
def splitNote (info : Info) (keyboard : Datum) : Log :=
  match info.halves? with
  | some ⟨true, none, _, _⟩ =>
    [.warning ("split board \"" ++ keyboard.plainText ++
      "\" does not declare split.matrix_columns_reversed, assuming false")]
  | _ => []

/-- The board with the chosen layout macro, the first one if none is named. -/
def toBoard (info : Info) (keyboard : Datum) (layoutName? : Option String := none)
    (baseConfig : String := "") : Log × Except Board.Error Board :=
  match info.chooseLayout keyboard layoutName? with
  | .error e => ([], .error e)
  | .ok (name, keys) => (info.splitNote keyboard, info.makeBoard keyboard name keys baseConfig)

end Info

end Keyforge
