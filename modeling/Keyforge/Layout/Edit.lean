import Keyforge.Board.Coordinates
import Keyforge.Layout.Check

/-!
# Editing layouts

Changes of a layout that keep it fit together: layers stay numbered by their places, names stay
unique and keys stay arranged. A change that is refused leaves the layout as it is.
-/

namespace Keyforge

inductive EditError where
  | layerIdInUse (id : String)
  | baseLayer
  | noLayer (index : Int)
  | categoryExists (id : String)
  | tapDanceExists (name : String)
  /-- The new part does not meet its requirements. -/
  | rejected (issues : List Datum.Issue)
  /-- An option has the name of an argument that is given anyway. -/
  | givenTwice
  deriving Repr, DecidableEq

def EditError.message : EditError → String
  | .layerIdInUse id => "Layer id \"" ++ id ++ "\" is already in use"
  | .baseLayer => "The base layer cannot be removed"
  | .noLayer index => "There is no layer with index " ++ Text.intText index
  | .categoryExists id => "Category \"" ++ id ++ "\" already exists"
  | .tapDanceExists name => "Tap dance \"" ++ name ++ "\" already exists"
  | .rejected _ | .givenTwice => ""

namespace Layer

/-- Adds the key, or replaces the one at its position. -/
def setKey (layer : Layer) (key : Key) : Layer :=
  { layer with keys := arrange (Pairs.put key.position key layer.keys) }

def removeKey (layer : Layer) (p : Position) : Layer :=
  { layer with keys := arrange (Pairs.erase p layer.keys) }

end Layer

namespace Layout

def modifyLayer (l : Layout) (index : Nat) (f : Layer → Layer) : Layout :=
  { l with layers := l.layers.modify index f }

/-- Adds a key to the layer at a place, or replaces the one at its position there. -/
def setKey (l : Layout) (index : Nat) (key : Key) : Layout :=
  l.modifyLayer index fun layer => layer.setKey key

def removeKey (l : Layout) (index : Nat) (p : Position) : Layout :=
  l.modifyLayer index fun layer => layer.removeKey p

/-- Appends a layer, whose number becomes its place. -/
def addLayer (l : Layout) (layer : Layer) : Except EditError Layout :=
  match layer.id? with
  | some id =>
    if Pairs.has id l.layerIds then .error (.layerIdInUse id)
    else .ok { l with layers := l.layers ++ [layer] }
  | none => .ok { l with layers := l.layers ++ [layer] }

def renumber (layers : List Layer) : List Layer :=
  layers.mapIdx fun n layer => { layer with index := (n : Int) }

/-- Removes the layer at a place other than the first; the ones after it move down. -/
def removeLayer (l : Layout) (index : Int) : Except EditError (Layer × Layout) :=
  if index = 0 then .error .baseLayer
  else
    match l.layerAt? index with
    | none => .error (.noLayer index)
    | some layer =>
      .ok (layer, { l with layers := renumber (l.layers.eraseIdx index.toNat) })

/-- Adds a category with a new id. -/
def addCategory (l : Layout) (c : Category) : Except EditError Layout :=
  if (l.category? c.id).isSome then .error (.categoryExists c.id)
  else .ok { l with categories := l.categories ++ [c] }

def forget (id : String) (category? : Option String) : Option String :=
  if category? == some id then none else category?

def forgetInKey (id : String) (key : Key) : Key :=
  { key with category? := forget id key.category? }

def forgetInLayer (id : String) (layer : Layer) : Layer :=
  { layer with
    category? := forget id layer.category?
    keys := layer.keys.map fun (p, key) => (p, forgetInKey id key) }

/-- Removes a category and all references to it. -/
def removeCategory (l : Layout) (id : String) : Option Category × Layout :=
  match l.category? id with
  | none => (none, l)
  | some category =>
    (some category,
      { l with
        categories := l.categories.erase category
        layers := l.layers.map (forgetInLayer id) })

/-- Adds a tap dance with a new name; names that differ only in case are the same. -/
def addTapDance (l : Layout) (t : TapDance) : Except EditError Layout :=
  if l.tapDances.any (·.enumerator == t.enumerator) then .error (.tapDanceExists t.name)
  else .ok { l with tapDances := l.tapDances ++ [t] }

def bindLayer (c : Coordinates) (layer : Layer) : Layer :=
  { layer with
    keys := layer.keys.map fun (p, key) => (p, { key with light? := c.lightOf? key.position }) }

/-- Gives each key the light under its position. -/
def bindLights (l : Layout) (c : Coordinates) : Layout :=
  { l with layers := l.layers.map (bindLayer c) }

end Layout

end Keyforge
