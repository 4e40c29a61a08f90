import Keyforge.Settings.Variables

/-!
# Loading settings

Settings are given as data and in the environment. What is given as data wins; where both give a
mapping, the two are merged.
-/

namespace Keyforge.Settings

open Datum

def isNamed (entry : Datum × Datum) : Bool :=
  match entry.1 with
  | .text _ => true
  | _ => false

def filled (env : Environment) (fields : List Field) (defaults es : List (Datum × Datum)) :
    Except Error (List (Datum × Datum)) := do
  if !es.all isNamed then .error .key
  let c ← Choices.of es
  let lower ← variableEntries c (c.seen env) fields
  if !isPaths (chosen es "_secrets_dir") then .error .choice
  let given := mergeEntries lower (es.filter fun entry => !isChoice entry)
  return if c.fillsGroups then mergeEntries defaults given else given

/-! ### Groups -/

def parseOf (es : List (Datum × Datum)) : Verdict Document.Limits :=
  let d : Document.Limits := {}
  Document.Limits.mk <$> withDefault es "schema_versions" d.versions (.listOf .text) <*>
    withDefault es "max_name_length" d.maxNameLength .integer

def generateOf (es : List (Datum × Datum)) : Verdict Firmware.Options :=
  let d : Firmware.Options := {}
  Firmware.Options.mk <$> withDefault es "fallback_color" d.fallbackColor .text <*>
    withDefault es "transparent_keycode" d.transparentKeycode .text <*>
    withDefault es "default_keycode" d.defaultKeycode .text <*>
    withDefault es "deprecated_defines" d.deprecatedDefines (.listOf .text) <*>
    withDefault es "deprecated_define_patterns" d.deprecatedPatterns (.listOf .text) <*>
    withDefault es "light_count_define" d.lightCountDefine .text <*>
    withDefault es "keymap_file" d.keymapFile .text <*>
    withDefault es "config_file" d.configFile .text <*>
    withDefault es "rules_file" d.rulesFile .text <*>
    withDefault es "banner" d.banner .text

def boardOf (es : List (Datum × Datum)) : Verdict Board.Lookup :=
  let d : Board.Lookup := {}
  Board.Lookup.mk <$> withDefault es "board_roots" d.roots (.listOf .path) <*>
    withDefault es "use_local_cache" d.useCache .flag <*>
    withDefault es "allow_remote" d.allowRemote .flag

def buildOf (es : List (Datum × Datum)) : Verdict Build.Options :=
  let d : Build.Options := {}
  Build.Options.mk <$> withDefault es "qmk_home" d.home? (.optional .path) <*>
    withDefault es "command" d.command (.listOf .text) <*>
    withDefault es "firmware_extensions" d.firmwareExtensions (.listOf .text) <*>
    withDefault es "error_markers" d.errorMarkers (.listOf .text) <*>
    withDefault es "success_markers" d.successMarkers (.listOf .text)

def loadGroup (env : Environment) (fields : List Field) (f : List (Datum × Datum) → Verdict α)
    (es : List (Datum × Datum)) : Except Error α := do
  match f (← filled env fields [] es) with
  | .ok a => return a
  | .faults issues => .error (.invalid issues)

def variableMessage (problem field : String) : String :=
  "error " ++ problem ++ " value for field \"" ++ field ++ "\" from source \"EnvSettingsSource\""

def asVerdict : Except Error α → Except Error (Verdict α)
  | .ok a => .ok (.ok a)
  | .error (.invalid issues) => .ok (.faults issues)
  | .error (.variable field) => .ok (.fault (.refused (variableMessage "parsing" field)))
  | .error (.noVariable field) => .ok (.fault (.refused (variableMessage "getting" field)))
  | .error e => .error e

def ofDatum (f : List (Datum × Datum) → Except Error α) : Datum → Except Error α
  | .map es => do
    match ← asVerdict (f es) with
    | .ok a => return a
    | .faults issues => .error (.invalid issues)
  | _ => .error (.invalid [⟨[], .notModel⟩])

def nested (name : String) (default : α) (f : List (Datum × Datum) → Except Error α)
    (es : List (Datum × Datum)) : Except Error (Verdict α) := do
  match entry? name es with
  | none => return .ok default
  | some value => return (← asVerdict (ofDatum f value)).within (.field name)

def load (env : Environment) (es : List (Datum × Datum)) : Except Error Settings := do
  let d : Settings := {}
  let es ← filled env groups (d.entries.map fun (name, value) => (.text name, value)) es
  let parse ← nested "parse_config" d.parse (loadGroup env parseFields parseOf) es
  let generate ← nested "generate_config" d.generate (loadGroup env generateFields generateOf) es
  let board ← nested "board_config" d.board (loadGroup env boardFields boardOf) es
  let build ← nested "build_config" d.build (loadGroup env buildFields buildOf) es
  match Settings.mk <$> parse <*> generate <*> board <*> build with
  | .ok settings => return settings
  | .faults issues => .error (.invalid issues)

end Keyforge.Settings
