import Keyforge.Firmware.Validation
import Keyforge.Header.Merge

/-!
# Compilations

A layout that is to be turned into firmware sources for a board (`Compilation`), what can be chosen
about the sources (`Options`), and what can go wrong with them (`Failure`).
-/

/-!
## Options for firmware sources

What can be chosen about the sources that are generated.
-/

namespace Keyforge.Firmware

structure Options where
  /-- The color of lights that have no other. -/
  fallbackColor : String := "#FFFFFF"
  /-- The keycode of board keys a layer does not define. -/
  transparentKeycode : String := "KC_TRNS"
  defaultKeycode : String := "KC_TRNS"
  /-- Definitions to drop from the board's header, by name. -/
  deprecatedDefines : List String :=
    ["DRIVER_LED_TOTAL", "RGBLIGHT_ANIMATIONS", "VIAL_KEYBOARD_UID", "VIAL_UNLOCK_COMBO_ROWS",
      "VIAL_UNLOCK_COMBO_COLS"]
  /-- Definitions to drop from the board's header, by patterns of whole names. -/
  deprecatedPatterns : List String := ["VIAL_\\w+", "DISABLE_RGB_MATRIX_\\w+"]
  lightCountDefine : String := "RGB_MATRIX_LED_COUNT"
  keymapFile : String := "keymap.c"
  configFile : String := "config.h"
  rulesFile : String := "rules.mk"
  /-- The text of the first line of every file. -/
  banner : String := "Generated by keymap-compiler. Do not edit, changes will be overwritten."
  deriving Repr, DecidableEq

/-- The rules for the board's header, unless one of the patterns is malformed. -/
def Options.headerRules (o : Options) : Except Header.Pattern.Fault Header.Rules := do
  return ⟨o.banner, o.deprecatedDefines, ← o.deprecatedPatterns.mapM Header.Pattern.read⟩

/-- Everything sources are generated from. -/
structure Compilation extends Subject where
  options : Options := {}
  baseConfig : String
  /-- The color of lights that have no other. -/
  fallback : Color

inductive Failure where
  | invalid (report : Report)
  | unknownLayer (id : String)
  /-- A number has too many digits. -/
  | number (error : Number.IntegerError)
  | tooLarge
  | notNumber
  | pattern (fault : Header.Pattern.Fault)
  deriving Repr, DecidableEq

/-- What is written with some numbers, unless one of them has too many digits. -/
def written (numbers : List Int) (value : α) : Except Failure α :=
  match Number.checkWritable numbers with
  | .ok _ => .ok value
  | .error e => .error (.number e)

/-- What is needed to compile a layout. The board's own header is used unless another one is
given. -/
def Compilation.make (layout : Layout) (board : Board) (options : Options := {})
    (table? : Option Keycode.Table := none) (baseConfig? : Option String := none) :
    Except Color.Invalid Compilation := do
  let fallback ← Color.ofHex options.fallbackColor
  return {
    layout, board, coordinates := .ofGeometry board.geometry, table?, options,
    baseConfig := baseConfig?.getD board.baseConfig, fallback }

def indent : String := "    "

def indent2 : String := indent ++ indent

def Compilation.keymapName (c : Compilation) : String :=
  match c.layout.metadata.keymapName? with
  | none | some "" => "default"
  | some name => name

end Keyforge.Firmware
