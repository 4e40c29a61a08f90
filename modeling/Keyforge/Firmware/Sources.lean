import Keyforge.Firmware.Artifacts
import Keyforge.Firmware.Declarations
import Keyforge.Firmware.Keymap
import Keyforge.Firmware.Lighting
import Keyforge.Firmware.TapDance

/-!
# Firmware sources

The three files of a keymap: the table of keycodes with tap dances and lights, the configuration
header and the build rules. A layout with validation errors gets none.
-/

namespace Keyforge.Firmware

/-- A report with errors, if it can be written. -/
def Failure.refused (report : Report) : Failure :=
  if report.isWritable then .invalid report else .number .unwritable

namespace Compilation

/-- The source with tap dances, keycodes and lights. -/
def keymapText (c : Compilation) : Except Failure String := do
  let tapDances ← c.tapDanceLines
  let keymap ← c.keymapLines
  let lighting ← written c.tableLights c.lightingLines
  let lines := ["// " ++ c.options.banner, "", "#include QMK_KEYBOARD_H", ""] ++
    (if tapDances.isEmpty then [] else tapDances ++ [""]) ++ keymap ++
    (if lighting.isEmpty then [] else "" :: lighting)
  return Text.joinLines lines ++ "\n"

/-- The base header with the derived declarations and those of the settings. -/
def configText (c : Compilation) : Log × Except Failure String :=
  match written c.declaredLights c.derivedDeclarations with
  | .error e => ([], .error e)
  | .ok derived =>
    match c.settingsDeclarations, c.options.headerRules with
    | (log, .error e), _ => (log, .error e)
    | (log, .ok _), .error fault => (log, .error (.pattern fault))
    | (log, .ok settings), .ok rules =>
      let (more, text) := Header.merge rules c.baseConfig (Pairs.putAll derived settings)
      (log ++ more, .ok text)

def rulesText (c : Compilation) : String :=
  let lines := ["# " ++ c.options.banner] ++
    (if c.board.geometry.hasLighting then ["RGB_MATRIX_ENABLE = yes"] else []) ++
    (if c.layout.tapDances.isEmpty then [] else ["TAP_DANCE_ENABLE = yes"])
  Text.joinLines lines ++ "\n"

/-- What is said of the warnings. Those that cannot be written are passed over. -/
def warningLog (r : Report) : Log :=
  (r.warnings.filter Finding.isWritable).map fun f => .warning f.text

/-- The three files, or the first failure on the way to them. -/
def sources (c : Compilation) (report : Report) : Log × Except Failure Artifacts :=
  match c.keymapText with
  | .error e => ([], .error e)
  | .ok keymap =>
    match c.configText with
    | (log, .error e) => (log, .error e)
    | (log, .ok config) =>
      let files := Pairs.ofList [(c.options.keymapFile, keymap), (c.options.configFile, config),
        (c.options.rulesFile, c.rulesText)]
      (log, .ok ⟨c.board.text?, c.keymapName, files, report⟩)

/-- The sources of a layout that validation finds no errors in. -/
def generate (c : Compilation) : Log × Except Failure Artifacts :=
  match c.toSubject.validate with
  | .error e => ([], .error (.number e))
  | .ok report =>
    if report.isValid then
      let (log, result) := c.sources report
      (warningLog report ++ log, result)
    else (warningLog report, .error (.refused report))

end Compilation

end Keyforge.Firmware
