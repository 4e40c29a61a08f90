import Keyforge.Datum.Decode

/-!
# Geometry of boards

Where the keys of a board are: in its electrical matrix (`Position`), on its surface (`KeyShape`),
and how the two halves of a split board share them (`Split`). A `Geometry` is accepted by
`Geometry.check` only if all its keys and lights have places of their own.
-/

/-!
## Matrix positions

Every key of a board closes one crossing of the electrical matrix.
-/

namespace Keyforge

structure Position where
  row : Int
  col : Int
  deriving Repr, DecidableEq, Inhabited

namespace Position

/-- Reading order: by rows, then by columns. -/
def before (p q : Position) : Bool := p.row < q.row || (p.row == q.row && p.col < q.col)

def atMost (p q : Position) : Bool := !q.before p

def coordinates (p : Position) : List Int := [p.row, p.col]

def text (p : Position) : String := "(" ++ Text.intText p.row ++ ", " ++ Text.intText p.col ++ ")"

/-- The numbers of a count of rows or columns, from zero on. -/
def indices (count : Int) : List Int := (List.range count.toNat).map Int.ofNat

def decode : Datum.Decoder Position :=
  .ofEntries .notRecord fun es =>
    Position.mk <$> Datum.required es "row" .integer <*> Datum.required es "col" .integer

end Position

/-! ### Keys and halves -/

/-- A physical key: its position in the matrix, its light, and its top left corner, size and
rotation in key units. -/
structure KeyShape where
  position : Position
  light? : Option Int := none
  x : Float := 0.0
  y : Float := 0.0
  width : Float := 1.0
  height : Float := 1.0
  rotation : Float := 0.0

def KeyShape.centerX (k : KeyShape) : Float := k.x + k.width / 2.0

/-- The direction in which the matrix is divided between the halves of a split board. -/
inductive Axis where
  | row
  | col
  deriving Repr, DecidableEq

def Axis.name : Axis → String
  | .row => "row"
  | .col => "col"

/-- How the matrix of a split board is divided. `boundary?` is the first row or column of the right
half; without it the halves are told apart by the widest horizontal gap between keys.
`reverseColumns` says that the right half counts its columns from the outer edge. -/
structure Split where
  reverseColumns : Bool := false
  axis : Axis := .row
  boundary? : Option Int := none
  deriving Repr, DecidableEq

inductive Half where
  | left
  | right
  deriving Repr, DecidableEq

structure Geometry where
  keys : List KeyShape
  rows : Int
  cols : Int
  encoderCount : Int := 0
  split? : Option Split := none
  hasLighting : Bool := false
  /-- The number of lights the board declares, those without a key included. -/
  lightCount? : Option Int := none
  /-- The number of described lights that are under no key. -/
  decorativeLights : Int := 0

namespace Geometry

/-- The matrix positions of all keys, in the order of the layout macro. -/
def positions (g : Geometry) : List Position := g.keys.map KeyShape.position

def keyLights (g : Geometry) : List Int := g.keys.filterMap KeyShape.light?

def greatest? : List Int → Option Int
  | [] => none
  | n :: rest => some (rest.foldl max n)

/-- The number of lights: the declared one, or what the greatest light under a key implies. -/
def totalLights (g : Geometry) : Int :=
  match g.lightCount? with
  | some count => count
  | none =>
    match greatest? g.keyLights with
    | some light => light + 1
    | none => 0

def keyedLights (g : Geometry) : Int := (g.keyLights.length : Nat)

/-! ### Halves -/

/-- Puts a number into an ascending list unless it is there. -/
def insertCenter (x : Float) : List Float → List Float
  | [] => [x]
  | y :: rest =>
    if x == y then y :: rest
    else if x < y then x :: y :: rest
    else y :: insertCenter x rest

/-- The horizontal centers of all keys, ascending and each of them once. -/
def centers (g : Geometry) : List Float :=
  g.keys.foldl (fun acc k => insertCenter k.centerX acc) []

/-- The gaps between neighbours, each with its middle. -/
def gaps : List Float → List (Float × Float)
  | a :: b :: rest => (b - a, (a + b) / 2.0) :: gaps (b :: rest)
  | _ => []

/-- Whether a gap is wider than another one, or as wide and further to the right. -/
def widerGap (p q : Float × Float) : Bool := if p.1 == q.1 then q.2 < p.2 else q.1 < p.1

/-- The widest gap; of equally wide ones the rightmost. -/
def widestGap : List (Float × Float) → Option (Float × Float)
  | [] => none
  | gap :: rest => some (rest.foldl (fun best next => if widerGap next best then next else best) gap)

def half (inRight : Bool) : Half := if inRight then .right else .left

/-- The half of every key, in the order of the keys. Boards that are not split have one half. -/
def halves (g : Geometry) : List Half :=
  match g.split? with
  | none => g.keys.map fun _ => .left
  | some split =>
    match split.boundary? with
    | some boundary =>
      g.keys.map fun k =>
        match split.axis with
        | .row => half (boundary ≤ k.position.row)
        | .col => half (boundary ≤ k.position.col)
    | none =>
      match widestGap (gaps g.centers) with
      | none => g.keys.map fun _ => .left
      | some (_, place) => g.keys.map fun k => half (place < k.centerX)

/-! ### Checks -/

def inMatrix (g : Geometry) (p : Position) : Bool :=
  0 ≤ p.row && p.row < g.rows && 0 ≤ p.col && p.col < g.cols

/-- What is wrong with a geometry as a whole, if anything is. -/
def problem? (g : Geometry) : Option String :=
  if !allDistinct g.positions then some "Board geometry contains duplicate matrix positions"
  else
    match g.positions.find? (fun p => !g.inMatrix p) with
    | some p =>
      some ("Matrix position " ++ p.text ++ " is outside of the " ++ Text.intText g.rows ++ "x" ++
        Text.intText g.cols ++ " matrix")
    | none =>
      if !allDistinct g.keyLights then
        some "Board geometry assigns the same light index to multiple keys"
      else if g.keyLights.any (· < 0) then some "Light indices cannot be negative"
      else
        match g.lightCount?, greatest? g.keyLights with
        | some count, some light =>
          if light < count then none
          else some ("Light index " ++ Text.intText light ++
            " is outside of the declared light count " ++ Text.intText count)
        | _, _ => none

/-- A geometry whose positions and lights are unique and in range. -/
def check (g : Geometry) : Datum.Verdict Geometry :=
  match g.problem? with
  | none => .ok g
  | some text => .fault (.assertion text)

end Geometry

/-! ### Decoding -/

def KeyShape.decode : Datum.Decoder KeyShape :=
  .ofEntries .notRecord fun es =>
    KeyShape.mk <$> Datum.required es "position" Position.decode <*>
      Datum.withDefault es "light_index" none (.optional .integer) <*>
      Datum.withDefault es "x" 0.0 .number <*>
      Datum.withDefault es "y" 0.0 .number <*>
      Datum.withDefault es "width" 1.0 .number <*>
      Datum.withDefault es "height" 1.0 .number <*>
      Datum.withDefault es "rotation" 0.0 .number

def Axis.decode : Datum.Decoder Axis := fun value =>
  (Datum.Decoder.choice ["row", "col"] value).map fun word => if word == "row" then .row else .col

def Split.decode : Datum.Decoder Split :=
  .ofEntries .notModel fun es =>
    Split.mk <$> Datum.withDefault es "reverse_columns" false .flag <*>
      Datum.withDefault es "axis" .row Axis.decode <*>
      Datum.withDefault es "boundary" none (.optional .integer)

def Geometry.decode : Datum.Decoder Geometry :=
  .ofEntries .notModel fun es =>
    let fields := Geometry.mk <$> Datum.required es "keys" (.listOf KeyShape.decode) <*>
      Datum.required es "matrix_rows" .integer <*>
      Datum.required es "matrix_cols" .integer <*>
      Datum.withDefault es "encoder_count" 0 .integer <*>
      Datum.withDefault es "split" none (.optional Split.decode) <*>
      Datum.withDefault es "has_lighting" false .flag <*>
      Datum.withDefault es "light_count" none (.optional .integer) <*>
      Datum.withDefault es "decorative_lights" 0 .integer
    fields.andThen Geometry.check

/-! ### Boards -/

/-- A board: its keyboard as its definition names it, which need not be a text, its geometry, the
layout macro in use, the text of its configuration header and the number of lights on each half of a
split board. -/
structure Board where
  keyboard : Datum
  geometry : Geometry
  layoutName? : Option String := none
  baseConfig : String := ""
  splitLightCounts? : Option (Int × Int) := none

def Board.name (b : Board) : String := b.keyboard.plainText

/-- The keyboard, if it is named by a text. -/
def Board.text? (b : Board) : Option String :=
  match b.keyboard with
  | .text s => some s
  | _ => none

end Keyforge
