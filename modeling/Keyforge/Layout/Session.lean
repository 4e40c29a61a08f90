import Keyforge.Datum.View
import Keyforge.Layout.Decode
import Keyforge.Layout.Edit

/-!
# Editing sessions

A session changes a layout step by step. Keys are objects that are changed in place, and a caller may
hand in one that a layer of the layout holds already. So a `Desk` has the keys on one side and on the
other side the sheets, which refer to them by their numbers; `Desk.view` is the layout it shows. A
step that is refused is reported, and the session goes on with what the step has left behind.

`Layout.perform` is what a step comes to if keys are values.
-/

namespace Keyforge

/-- A change of a layout, with keys that are given as a `κ` each. Layers are given by their
places. -/
inductive Edit (κ : Type) where
  /-- A new layer of a name, with all else it is to have. Its keys are among the options, or they are
  given as such. -/
  | addLayer (name : Datum) (options : List (Datum × Datum))
      (keys? : Option (List (Position × κ)) := none)
  | removeLayer (index : Int)
  | addCategory (category : Category)
  | removeCategory (id : String)
  | addTapDance (tapDance : TapDance)
  | bindLights (coordinates : Coordinates)
  | setKey (layer : Nat) (key : κ)
  | removeKey (layer : Nat) (position : Position)

/-- The same change, with other keys. -/
def Edit.map (f : κ → μ) : Edit κ → Edit μ
  | .addLayer name options keys? =>
    .addLayer name options (keys?.map fun keys => keys.map fun entry => (entry.1, f entry.2))
  | .removeLayer index => .removeLayer index
  | .addCategory category => .addCategory category
  | .removeCategory id => .removeCategory id
  | .addTapDance tapDance => .addTapDance tapDance
  | .bindLights coordinates => .bindLights coordinates
  | .setKey layer key => .setKey layer (f key)
  | .removeKey layer position => .removeKey layer position

/-- Whether an argument of a new layer is given in two ways. -/
def isGivenTwice (options : List (Datum × Datum)) (keys? : Option α) : Bool :=
  Datum.hasAny ["self", "index", "name"] options || (keys?.isSome && Datum.hasAny ["keys"] options)

/-! ### Keys as values -/

namespace Layout

/-- The layer that is made of a name and options, before its keys are checked. -/
def draftLayer (l : Layout) (name : Datum) (options : List (Datum × Datum))
    (keys? : Option (List (Position × Key))) : Datum.Verdict Layer :=
  let es := (.text "index", .int (l.layers.length : Nat)) :: (.text "name", name) :: options
  Layer.draft (match keys? with
    | some keys => .ok (Pairs.ofList keys)
    | none => Layer.keysOf es) es

/-- The layer that is made of a name and options, to be appended. -/
def newLayer (l : Layout) (name : Datum) (options : List (Datum × Datum))
    (keys? : Option (List (Position × Key))) : Datum.Verdict Layer :=
  (l.draftLayer name options keys?).andThen Layer.checkKeys

def appendLayer (l : Layout) (name : Datum) (options : List (Datum × Datum))
    (keys? : Option (List (Position × Key))) : Except EditError Layout :=
  if isGivenTwice options keys? then .error .givenTwice
  else
    match l.newLayer name options keys? with
    | .ok layer => l.addLayer layer
    | .faults issues => .error (.rejected issues)

def edited (l : Layout) : Edit Key → Except EditError Layout
  | .addLayer name options keys? => l.appendLayer name options keys?
  | .removeLayer index => (l.removeLayer index).map Prod.snd
  | .addCategory category => l.addCategory category
  | .removeCategory id => .ok (l.removeCategory id).2
  | .addTapDance tapDance => l.addTapDance tapDance
  | .bindLights coordinates => .ok (l.bindLights coordinates)
  | .setKey layer key => .ok (l.setKey layer key)
  | .removeKey layer position => .ok (l.removeKey layer position)

/-- Performs a step: the layout afterwards, and why the step was refused, if it was. -/
def perform (l : Layout) (edit : Edit Key) : Layout × Option EditError :=
  match l.edited edit with
  | .ok changed => (changed, none)
  | .error e => (l, some e)

end Layout

/-! ### Keys as objects -/

/-- A key that a caller hands in: one that is made for it, or one that was made before. -/
inductive Given where
  | fresh (key : Key)
  | held (number : Nat)

/-- A layer that refers to its keys. -/
structure Sheet where
  /-- The layer but for its keys. -/
  layer : Layer
  /-- The numbers of its keys, under their positions. -/
  cells : List (Position × Nat)

/-- A layout in which keys are objects. -/
structure Desk where
  /-- The layout but for its layers. -/
  rest : Layout
  sheets : List Sheet
  /-- All keys that were made, by their numbers. -/
  keys : List Key

def keyAt (keys : List Key) (n : Nat) : Key := keys[n]?.getD default

namespace Given

/-- What a key is like when it is handed in. -/
def value (keys : List Key) : Given → Key
  | .fresh key => key
  | .held n => keyAt keys n

/-- The number of a key that is handed in, and all keys then. A number that none of the `known` keys
has stands for a blank key. -/
def take (known : Nat) (keys : List Key) : Given → Nat × List Key
  | .fresh key => (keys.length, keys ++ [key])
  | .held n => if n < known then (n, keys) else (keys.length, keys ++ [default])

def takeAll (known : Nat) (keys : List Key) :
    List (Position × Given) → List (Position × Nat) × List Key
  | [] => ([], keys)
  | (p, given) :: others =>
    let (n, keys) := given.take known keys
    let (cells, keys) := takeAll known keys others
    ((p, n) :: cells, keys)

/-- The keys of a new layer: those that are handed in as such, or else those of its draft. -/
def ofDraft (draft : Layer) : Option (List (Position × Given)) → List (Position × Given)
  | some keys => Pairs.ofList keys
  | none => draft.keys.map fun entry => (entry.1, .fresh entry.2)

end Given

namespace Sheet

/-- The layer that a sheet shows. -/
def view (keys : List Key) (s : Sheet) : Layer :=
  { s.layer with keys := s.cells.map fun cell => (cell.1, keyAt keys cell.2) }

def refs (s : Sheet) : List Nat := s.cells.map Prod.snd

/-- Numbers the slots of keys in the order of the cells that refer to them. -/
def assignSlots : Nat → List (Position × Nat) → List Key → List Key
  | _, [], keys => keys
  | slot, (_, n) :: cells, keys =>
    assignSlots (slot + 1) cells (keys.modify n fun key => { key with slot := (slot : Int) })

def sorted (s : Sheet) : Sheet := { s with cells := s.cells.mergeSort fun a b => a.1.atMost b.1 }

/-- The keys once those of a sheet are in the order of their positions. -/
def settle (s : Sheet) (keys : List Key) : List Key := assignSlots 0 s.sorted.cells keys

/-- The sheets of layers whose keys are numbered one after the other. -/
def ofLayers : Nat → List Layer → List Sheet
  | _, [] => []
  | first, layer :: layers =>
    ⟨{ layer with keys := [] }, layer.keys.mapIdx fun i (p, _) => (p, first + i)⟩ ::
      ofLayers (first + layer.keys.length) layers

end Sheet

namespace Desk

/-- The layout that a desk shows. -/
def view (d : Desk) : Layout := { d.rest with layers := d.sheets.map (·.view d.keys) }

/-- A desk for a layout that shares no keys. -/
def ofLayout (l : Layout) : Desk where
  rest := { l with layers := [] }
  sheets := Sheet.ofLayers 0 l.layers
  keys := l.layers.flatMap fun layer => layer.keys.map Prod.snd

/-- All references to keys. -/
def refs (d : Desk) : List Nat := d.sheets.flatMap Sheet.refs

/-- Changes the cells of the sheet at a place, and brings its keys into order. -/
def changeSheet (d : Desk) (place : Nat) (f : Sheet → Sheet) : Desk :=
  match d.sheets[place]? with
  | none => d
  | some sheet =>
    { d with sheets := d.sheets.set place (f sheet).sorted, keys := (f sheet).settle d.keys }

/-- Puts a key that is handed in on a layer, under its position. -/
def setKey (d : Desk) (place : Nat) (given : Given) : Desk :=
  let taken := given.take d.keys.length d.keys
  changeSheet { d with keys := taken.2 } place fun s =>
    { s with cells := Pairs.put (keyAt taken.2 taken.1).position taken.1 s.cells }

def removeKey (d : Desk) (place : Nat) (p : Position) : Desk :=
  d.changeSheet place fun s => { s with cells := Pairs.erase p s.cells }

/-- Appends a layer; its keys are brought into order even if its id is in use. -/
def addLayer (d : Desk) (name : Datum) (options : List (Datum × Datum))
    (keys? : Option (List (Position × Given))) : Desk × Option EditError :=
  if isGivenTwice options keys? then (d, some .givenTwice)
  else
    let values? := keys?.map fun keys => keys.map fun entry => (entry.1, entry.2.value d.keys)
    match d.view.draftLayer name options values? with
    | .faults issues => (d, some (.rejected issues))
    | .ok draft =>
      match draft.checkKeys with
      | .faults issues => (d, some (.rejected issues))
      | .ok layer =>
        let taken := Given.takeAll d.keys.length d.keys (Given.ofDraft draft keys?)
        let sheet := Sheet.mk { draft with keys := [] } taken.1
        -- the keys are brought into order before the id is looked at
        let keys := sheet.settle taken.2
        match d.view.addLayer layer with
        | .error e => ({ d with keys }, some e)
        | .ok _ => ({ d with sheets := d.sheets ++ [sheet.sorted], keys }, none)

def removeLayer (d : Desk) (index : Int) : Desk × Option EditError :=
  match d.view.removeLayer index with
  | .error e => (d, some e)
  | .ok _ =>
    let sheets := (d.sheets.eraseIdx index.toNat).mapIdx fun n s =>
      { s with layer := { s.layer with index := (n : Int) } }
    ({ d with sheets }, none)

/-- Changes all keys that the layout refers to, one after the other. -/
def changeKeys (d : Desk) (f : Key → Key) : Desk :=
  { d with keys := d.refs.foldl (fun keys n => keys.modify n f) d.keys }

def removeCategory (d : Desk) (id : String) : Desk :=
  match d.rest.category? id with
  | none => d
  | some category =>
    let sheets := d.sheets.map fun s =>
      { s with layer := { s.layer with category? := Layout.forget id s.layer.category? } }
    changeKeys { d with
      rest := { d.rest with categories := d.rest.categories.erase category }, sheets }
      (Layout.forgetInKey id)

/-- Replaces what is not in the layers, unless that is refused. -/
def changeRest (d : Desk) (changed : Except EditError Layout) : Desk × Option EditError :=
  match changed with
  | .ok rest => ({ d with rest }, none)
  | .error e => (d, some e)

/-- Performs a step: what it has left, and why it was refused, if it was. -/
def perform (d : Desk) : Edit Given → Desk × Option EditError
  | .addLayer name options keys? => d.addLayer name options keys?
  | .removeLayer index => d.removeLayer index
  | .addCategory category => d.changeRest (d.rest.addCategory category)
  | .removeCategory id => (d.removeCategory id, none)
  | .addTapDance tapDance => d.changeRest (d.rest.addTapDance tapDance)
  | .bindLights coordinates =>
    (d.changeKeys fun key => { key with light? := coordinates.lightOf? key.position }, none)
  | .setKey layer given => (d.setKey layer given, none)
  | .removeKey layer position => (d.removeKey layer position, none)

/-- Performs steps one after the other, whatever comes of each. -/
def session (d : Desk) (edits : List (Edit Given)) : Desk :=
  edits.foldl (fun d edit => (d.perform edit).1) d

end Desk

end Keyforge
