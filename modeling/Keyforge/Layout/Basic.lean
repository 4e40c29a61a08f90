import Keyforge.Board.Geometry
import Keyforge.Color
import Keyforge.Keycode.Reference

/-!
# Layouts

What a keyboard does: layers of keys, with categories, tap dances and settings. Parts are referred
to by names, and `Name` gives the forms these names have.
-/

/-!
## Names in layouts

The forms of the names by which the parts of a layout are referred to. All of them are ASCII.
-/

namespace Keyforge.Name

/-- Whether a text starts with a character of one kind and goes on with those of another. -/
def startsAndGoesOn (first more : Char → Bool) : List Char → Bool
  | [] => false
  | c :: rest => first c && rest.all more

def isSmall (c : Char) : Bool := 'a' ≤ c && c ≤ 'z'

/-- Whether a character can stand in a category id after its first one. -/
def isCategoryChar (c : Char) : Bool := isSmall c || c.isDigit || c == '-'

/-- Category ids: small letters, digits and dashes, starting with a letter. -/
def isCategoryId (cs : List Char) : Bool := startsAndGoesOn isSmall isCategoryChar cs

/-- Layer ids: letters, digits and dashes, not starting with a dash. -/
def isLayerId (cs : List Char) : Bool :=
  startsAndGoesOn Char.isAlphanum (fun c => c.isAlphanum || c == '-') cs

/-- Names of tap dances: letters, digits and underscores. -/
def isTapDanceName (cs : List Char) : Bool :=
  !cs.isEmpty && cs.all fun c => c.isAlphanum || c == '_'

/-- Tags: small letters, digits and dashes. -/
def isTag (cs : List Char) : Bool := !cs.isEmpty && cs.all isCategoryChar

end Keyforge.Name

namespace Keyforge

/-- A named color that layers and keys can share. -/
structure Category where
  id : String
  name : String
  color : Color
  description? : Option String := none
  deriving Repr, DecidableEq, Inhabited

/-- The assignment of a keycode to a position on one layer. -/
structure Key where
  keycode : String
  position : Position
  /-- The place of the key among the keys of its layer. -/
  slot : Int := 0
  light? : Option Int := none
  color? : Option Color := none
  category? : Option String := none
  description? : Option String := none
  deriving Repr, DecidableEq, Inhabited

/-- A named set of keys, stored under their positions. -/
structure Layer where
  index : Int
  name : String
  id? : Option String := none
  color? : Option Color := none
  category? : Option String := none
  /-- Whether the color of the layer's category is used. -/
  colorsEnabled : Bool := true
  keys : List (Position × Key) := []
  deriving Repr, DecidableEq, Inhabited

/-- The keycodes of a key that tells a single tap, a double tap and a hold apart. -/
structure TapDance where
  name : String
  single : String
  double? : Option String := none
  hold? : Option String := none
  deriving Repr, DecidableEq, Inhabited

/-- What a layout says about itself. -/
structure Metadata where
  name : String
  description : String := ""
  author : String := ""
  created : Time.Stamp
  modified : Time.Stamp
  tags : List String := []
  isTemplate : Bool := false
  version : String := "1.0"
  keyboard? : Option String := none
  layoutVariant? : Option String := none
  keymapName? : Option String := none
  deriving Repr, DecidableEq

structure Layout where
  metadata : Metadata
  layers : List Layer
  categories : List Category := []
  tapDances : List TapDance := []
  settings : List (String × String) := []
  deriving Repr, DecidableEq

/-! ### Looking things up -/

def Layer.keyAt? (layer : Layer) (p : Position) : Option Key := layer.keys.lookup p

def TapDance.enumerator (t : TapDance) : String := Keycode.enumerator t.name

/-- The keycodes of the actions that are defined, the single tap first. -/
def TapDance.keycodes (t : TapDance) : List String :=
  t.single :: (t.double?.toList ++ t.hold?.toList)

namespace Layout

def layerAt? (l : Layout) (index : Int) : Option Layer :=
  if index < 0 then none else l.layers[index.toNat]?

def category? (l : Layout) (id : String) : Option Category := l.categories.find? (·.id == id)

def tapDance? (l : Layout) (name : String) : Option TapDance := l.tapDances.find? (·.name == name)

/-- The ids of layers with the numbers of the layers; of layers with one id the last counts. -/
def layerIds (l : Layout) : List (String × Int) :=
  l.layers.foldl (fun ids layer =>
    match layer.id? with
    | some id => Pairs.put id layer.index ids
    | none => ids) []

/-- A reference to a category from a layer, or from one of its keys. -/
structure CategoryUse where
  layer : Layer
  key? : Option Key
  id : String

/-- The references to categories from one layer: its own, then those of its keys. -/
def layerCategoryUses (layer : Layer) : List CategoryUse :=
  (layer.category?.toList.map fun id => ⟨layer, none, id⟩) ++
    layer.keys.filterMap fun (_, key) => key.category?.map fun id => ⟨layer, some key, id⟩

def categoryUses (l : Layout) : List CategoryUse := l.layers.flatMap layerCategoryUses

structure TapDanceUse where
  layer : Layer
  key : Key
  name : String

def layerTapDanceUses (layer : Layer) : List TapDanceUse :=
  layer.keys.flatMap fun (_, key) =>
    (Keycode.tapDanceReferences key.keycode).map fun name => ⟨layer, key, name⟩

def tapDanceUses (l : Layout) : List TapDanceUse := l.layers.flatMap layerTapDanceUses

def unusedTapDances (l : Layout) : List String :=
  let used := l.tapDanceUses.map (·.name)
  (l.tapDances.map (·.name)).filter fun name => !used.contains name

end Layout

end Keyforge
