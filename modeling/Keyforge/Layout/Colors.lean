import Keyforge.Board.Coordinates
import Keyforge.Layout.Basic

/-!
# Colors of keys and lights

The color of a key on a layer is the first there is of: the key's own color, its category's color,
the layer category's color if the layer's colors are enabled, the layer's own color, and the color
to fall back to.
-/

namespace Keyforge.Layout

def categoryColor? (l : Layout) (id? : Option String) : Option Color :=
  (id?.bind l.category?).map Category.color

def layerColor (l : Layout) (layer : Layer) (fallback : Color := .white) : Color :=
  ((if layer.colorsEnabled then l.categoryColor? layer.category? else none) <|>
    layer.color?).getD fallback

def keyColor? (l : Layout) (key : Key) : Option Color :=
  key.color? <|> l.categoryColor? key.category?

/-- The color of the key at a position, or else that of the layer. -/
def colorIn (l : Layout) (layer : Layer) (p : Position) (fallback : Color := .white) : Color :=
  ((layer.keyAt? p).bind l.keyColor?).getD (l.layerColor layer fallback)

/-- The color at a position of the layer with a number; the color to fall back to if there is no
such layer. -/
def colorAt (l : Layout) (index : Int) (p : Position) (fallback : Color := .white) : Color :=
  match l.layerAt? index with
  | some layer => l.colorIn layer p fallback
  | none => fallback

/-- The color of a light on a layer. A light without a key has the color of the layer. -/
def lightColor (l : Layout) (c : Coordinates) (layer : Layer) (fallback : Color) (light : Nat) :
    Color :=
  match c.overLight? (light : Nat) with
  | some p =>
    if (layer.keyAt? p).isSome then l.colorAt layer.index p fallback
    else l.layerColor layer fallback
  | none => l.layerColor layer fallback

def lightColors (l : Layout) (c : Coordinates) (fallback : Color) (layer : Layer) : List Color :=
  (List.range c.lightCount.toNat).map (l.lightColor c layer fallback)

/-- The colors of all lights, one row for each number of a layer. -/
def lightTable (l : Layout) (c : Coordinates) (fallback : Color := .white) :
    List (Int × List Color) :=
  Pairs.ofList (l.layers.map fun layer => (layer.index, l.lightColors c fallback layer))

end Keyforge.Layout
