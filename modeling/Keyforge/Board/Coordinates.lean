import Keyforge.Board.Geometry

/-!
# Coordinates

A key has a place in four numberings: its visual slot, counted in reading order on the board; its
position in the electrical matrix; the number of its light in the chain of lights; and its place
among the arguments of the layout macro. `Coordinates` leads from one to another.
-/

namespace Keyforge

namespace Geometry

/-- The positions of the keys of one half. The keys are in the halves the geometry puts them into
unless others are given. -/
def members (g : Geometry) (h : Half) (halves : List Half := g.halves) : List Position :=
  ((g.positions.zip halves).filter fun (_, k) => k == h).map Prod.fst

/-- The least of a list of numbers, zero if there is none. -/
def least : List Int → Int
  | [] => 0
  | n :: rest => rest.foldl min n

def corner (ps : List Position) : Position :=
  ⟨least (ps.map Position.row), least (ps.map Position.col)⟩

def span (ps : List Position) : Int :=
  ps.foldl (fun w p => max w (p.col - (corner ps).col + 1)) 0

/-- Where one half of a split board is shown: its corner, its span and the column it starts at. -/
structure Frame where
  corner : Position
  span : Int
  start : Int
  reversed : Bool

def leftFrame (g : Geometry) (halves : List Half := g.halves) : Frame :=
  let ps := g.members .left halves
  ⟨corner ps, span ps, 0, false⟩

def rightFrame (g : Geometry) (split : Split) (halves : List Half := g.halves) : Frame :=
  let ps := g.members .right halves
  ⟨corner ps, span ps, span (g.members .left halves), split.reverseColumns⟩

/-- The visual row and the display column of a position within a frame. -/
def Frame.cell (f : Frame) (p : Position) : Int × Int :=
  let col := p.col - f.corner.col
  (p.row - f.corner.row, f.start + if f.reversed then f.span - 1 - col else col)

/-- The visual row and the display column of every key, in the order of the keys. -/
def cells (g : Geometry) (halves : List Half := g.halves) : List (Int × Int) :=
  match g.split? with
  | none => g.positions.map fun p => (p.row, p.col)
  | some split =>
    let left := g.leftFrame halves
    let right := g.rightFrame split halves
    (g.positions.zip halves).map fun (p, h) =>
      match h with
      | .left => left.cell p
      | .right => right.cell p

/-- Reading order of cells; positions decide between keys in the same cell. -/
def readsBefore (a b : (Int × Int) × Position) : Bool :=
  let ((r, c), p) := a
  let ((s, d), q) := b
  if r == s then if c == d then p.atMost q else decide (c < d) else decide (r < s)

/-- The positions of the keys in reading order. -/
def slots (g : Geometry) (halves : List Half := g.halves) : List Position :=
  (((g.cells halves).zip g.positions).mergeSort readsBefore).map Prod.snd

end Geometry

/-- The numberings of a board's keys. -/
structure Coordinates where
  geometry : Geometry
  slots : List Position

namespace Coordinates

def ofGeometry (g : Geometry) (halves : List Half := g.halves) : Coordinates := ⟨g, g.slots halves⟩

def keyCount (c : Coordinates) : Nat := c.slots.length

def lightCount (c : Coordinates) : Int := c.geometry.totalLights

def has (c : Coordinates) (p : Position) : Bool := c.slots.contains p

/-- The item of a list at a number, none below zero. -/
def itemAt? (items : List α) (n : Int) : Option α := if n < 0 then none else items[n.toNat]?

def slotOf? (c : Coordinates) (p : Position) : Option Nat := c.slots.idxOf? p

def atSlot? (c : Coordinates) (slot : Int) : Option Position := itemAt? c.slots slot

def lightOf? (c : Coordinates) (p : Position) : Option Int :=
  (c.geometry.keys.find? fun k => k.position == p).bind KeyShape.light?

def overLight? (c : Coordinates) (light : Int) : Option Position :=
  (c.geometry.keys.find? fun k => k.light? == some light).map KeyShape.position

def lightAtSlot? (c : Coordinates) (slot : Int) : Option Int := (c.atSlot? slot).bind c.lightOf?

/-- The place of a position among the arguments of the layout macro. -/
def argumentOf? (c : Coordinates) (p : Position) : Option Nat := c.geometry.positions.idxOf? p

/-- The positions in the order of the layout macro's arguments. -/
def arguments (c : Coordinates) : List Position := c.geometry.positions

end Coordinates

end Keyforge
