import Keyforge.Firmware.Compilation

/-!
# Declarations

What the configuration header is to define: facts about the board, and the settings of the layout
that have a meaning for the firmware. A setting whose value cannot be used is passed over with a
warning.
-/

namespace Keyforge.Firmware

/-! ### Values of settings -/

inductive SettingValue (α : Type) where
  | ok (value : α)
  | unusable
  | tooLarge
  deriving Repr, DecidableEq

/-- The length of a unit of time in milliseconds; no unit means milliseconds. -/
def unitScale? (word : List Char) : Option Nat :=
  match String.ofList word with
  | "" | "ms" => some 1
  | "s" | "sec" => some 1000
  | "min" => some 60000
  | _ => none

/-- Digits and, if a digit follows it, a point and a fraction at the front: all digits as a number,
how many of them follow the point, and the text behind them. -/
def takeNumber? (cs : List Char) : Option (Nat × Nat × List Char) :=
  let whole := cs.takeWhile Text.isDigit
  let rest := cs.dropWhile Text.isDigit
  if whole.isEmpty then none
  else
    match rest with
    | '.' :: more =>
      let fraction := more.takeWhile Text.isDigit
      if fraction.isEmpty then some (Text.natOfDigits whole, 0, rest)
      else
        some (Text.natOfDigits (whole ++ fraction), fraction.length, more.dropWhile Text.isDigit)
    | _ => some (Text.natOfDigits whole, 0, rest)

/-- A number rounded to an integer, the even one of two that are equally near. -/
def roundFloat (x : Float) : SettingValue Int :=
  match Number.view x with
  | .finite d => .ok d.round
  | _ => .tooLarge

/-- A duration in milliseconds, such as `200`, `1.5 s` or `2min`. -/
def duration (value : String) : SettingValue Int :=
  let found? := do
    let (digits, places, rest) ← takeNumber? (Text.lower (Text.strip value)).toList
    let scale ← unitScale? (Text.trimLeft rest)
    return (Number.floatOfDecimal false digits (-(places : Int)), scale)
  match found? with
  | none => .unusable
  | some (x, scale) => roundFloat (x * Number.floatOfInt scale)

def isOn (value : String) : Bool :=
  ["true", "yes", "1", "on"].contains (Text.lower (Text.strip value))

def brightness (value : String) : SettingValue Int :=
  match Number.integer (Text.dropWhileEnd (· == '%') (Text.trim value.toList)) with
  | .error _ => .unusable
  | .ok n => .ok (Number.roundDiv (255 * (min (max n 0) 100).toNat) 100 : Nat)

/-! ### Settings -/

def settingDeclaration (lighting : Bool) (name value : String) :
    SettingValue (Option (String × String)) :=
  let numbered (define : String) : SettingValue Int → SettingValue (Option (String × String))
    | .ok n => .ok (some (define, Text.intText n))
    | .unusable => .unusable
    | .tooLarge => .tooLarge
  let flag (define : String) : SettingValue (Option (String × String)) :=
    .ok (if isOn value then some (define, "") else none)
  match Text.lower name with
  | "tapping term" => numbered "TAPPING_TERM" (duration value)
  | "quick tap term" => numbered "QUICK_TAP_TERM" (duration value)
  | "permissive hold" => flag "PERMISSIVE_HOLD"
  | "retro tapping" => flag "RETRO_TAPPING"
  | "rgb timeout" =>
    if lighting then
      match duration value with
      | .ok 0 => .ok none
      | other => numbered "RGB_MATRIX_TIMEOUT" other
    else .ok none
  | "rgb brightness" =>
    if lighting then numbered "RGB_MATRIX_MAXIMUM_BRIGHTNESS" (brightness value) else .ok none
  | _ => .ok none

def settingWarning (name value : String) : Log.Entry :=
  .warning ("ignoring setting \"" ++ name ++ "\" with invalid value \"" ++ value ++ "\"")

/-- The declarations of settings, added to those before them. -/
def settingsFrom (lighting : Bool) : List (String × String) → List (String × String) →
    Log × Except Failure (List (String × String))
  | [], found => ([], .ok found)
  | (name, value) :: rest, found =>
    match settingDeclaration lighting name value with
    | .ok (some (define, text)) => settingsFrom lighting rest (Pairs.put define text found)
    | .ok none => settingsFrom lighting rest found
    | .tooLarge => ([], .error .tooLarge)
    | .unusable =>
      let (log, result) := settingsFrom lighting rest found
      (settingWarning name value :: log, result)

namespace Compilation

/-- What settings declare; values that cannot be used are skipped. -/
def settingsDeclarations (c : Compilation) : Log × Except Failure (List (String × String)) :=
  settingsFrom c.board.geometry.hasLighting c.layout.settings []

/-! ### Facts about the board -/

def lightDeclarations (c : Compilation) : List (String × String) :=
  let g := c.board.geometry
  if g.hasLighting && g.totalLights != 0 then
    match c.board.splitLightCounts? with
    | some (left, right) =>
      Pairs.ofList [(c.options.lightCountDefine, Text.intText (left + right)),
        ("RGB_MATRIX_SPLIT",
          "\x7b " ++ Text.intText left ++ ", " ++ Text.intText right ++ " \x7d")]
    | none => [(c.options.lightCountDefine, Text.intText g.totalLights)]
  else []

/-- The declarations of facts about the board, and of the number of layers if it is large. -/
def derivedDeclarations (c : Compilation) : List (String × String) :=
  let count := c.layout.layers.length
  if 4 < count then Pairs.put "DYNAMIC_KEYMAP_LAYER_COUNT" (Text.natText count) c.lightDeclarations
  else c.lightDeclarations

/-- The numbers of lights that are declared. -/
def declaredLights (c : Compilation) : List Int :=
  let g := c.board.geometry
  if g.hasLighting && g.totalLights != 0 then
    match c.board.splitLightCounts? with
    | some (left, right) => [left + right, left, right]
    | none => [g.totalLights]
  else []

end Compilation

end Keyforge.Firmware
