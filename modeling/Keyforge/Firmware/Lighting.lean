import Keyforge.Firmware.Compilation
import Keyforge.Layout.Colors

/-!
# The light table

The color of every light on every layer, and the code that shows the colors of the layer in use.
-/

namespace Keyforge.Firmware

namespace Compilation

def colorEntry (color : Color) : String :=
  "\x7b" ++ Text.natText color.red ++ ", " ++ Text.natText color.green ++ ", " ++
    Text.natText color.blue ++ "\x7d"

def colorRow (table : List (Int × List Color)) (layer : Layer) : String :=
  let colors := (table.lookup layer.index).getD []
  indent ++ "[" ++ Text.intText layer.index ++ "] = \x7b " ++
    String.intercalate ", " (colors.map colorEntry) ++ " \x7d,"

def hasLights (c : Compilation) : Bool :=
  c.board.geometry.hasLighting && c.coordinates.lightCount != 0

/-- The table and the code that uses it; nothing for a board without lights. -/
def lightingLines (c : Compilation) : List String :=
  if !c.hasLights then []
  else
    let table := c.layout.lightTable c.coordinates c.fallback
    let layers := Text.natText c.layout.layers.length
    let lights := Text.intText c.coordinates.lightCount
    ["#ifdef RGB_MATRIX_ENABLE",
      "const uint8_t PROGMEM ledmap[" ++ layers ++ "][" ++ lights ++ "][3] = \x7b"] ++
    c.layout.layers.map (colorRow table) ++
    ["\x7d;",
      "",
      "bool rgb_matrix_indicators_advanced_user(uint8_t led_min, uint8_t led_max) \x7b",
      indent ++ "uint8_t layer = get_highest_layer(layer_state | default_layer_state);",
      indent ++ "if (layer >= " ++ layers ++ ") \x7b",
      indent2 ++ "return false;",
      indent ++ "\x7d",
      indent ++ "for (uint8_t i = led_min; i < led_max && i < " ++ lights ++ "; i++) \x7b",
      indent2 ++ "rgb_matrix_set_color(i, pgm_read_byte(&ledmap[layer][i][0]), " ++
        "pgm_read_byte(&ledmap[layer][i][1]), pgm_read_byte(&ledmap[layer][i][2]));",
      indent ++ "\x7d",
      indent ++ "return false;",
      "\x7d",
      "#endif"]

/-- The numbers of lights in the light table. -/
def tableLights (c : Compilation) : List Int :=
  if c.hasLights then [c.coordinates.lightCount] else []

end Compilation

end Keyforge.Firmware
