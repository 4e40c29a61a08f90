import Keyforge.Board.Source
import Keyforge.Build.Invocation
import Keyforge.Document.State
import Keyforge.Firmware.Compilation

/-!
# Settings

All choices a user can make, in four groups, and the names under which they are given.
-/

namespace Keyforge

structure Settings where
  parse : Document.Limits := {}
  generate : Firmware.Options := {}
  board : Board.Lookup := {}
  build : Build.Options := {}

namespace Settings

inductive Form where
  | plain
  | structured
  /-- In JSON, as a mapping with these names; those of settings that are in JSON themselves are
  marked. -/
  | group (members : List (String × Bool))
  deriving Repr, DecidableEq

structure Field where
  name : String
  form : Form
  deriving Repr, DecidableEq

def parseFields : List Field :=
  [⟨"schema_versions", .structured⟩, ⟨"max_name_length", .plain⟩]

def generateFields : List Field :=
  [⟨"fallback_color", .plain⟩, ⟨"transparent_keycode", .plain⟩, ⟨"default_keycode", .plain⟩,
    ⟨"deprecated_defines", .structured⟩, ⟨"deprecated_define_patterns", .structured⟩,
    ⟨"light_count_define", .plain⟩, ⟨"keymap_file", .plain⟩, ⟨"config_file", .plain⟩,
    ⟨"rules_file", .plain⟩, ⟨"banner", .plain⟩]

def boardFields : List Field :=
  [⟨"board_roots", .structured⟩, ⟨"use_local_cache", .plain⟩, ⟨"allow_remote", .plain⟩]

def buildFields : List Field :=
  [⟨"qmk_home", .plain⟩, ⟨"command", .structured⟩, ⟨"firmware_extensions", .structured⟩,
    ⟨"error_markers", .structured⟩, ⟨"success_markers", .structured⟩]

def groupForm (fields : List Field) : Form :=
  .group (fields.map fun field => (field.name, field.form != .plain))

def groups : List Field :=
  [⟨"parse_config", groupForm parseFields⟩, ⟨"generate_config", groupForm generateFields⟩,
    ⟨"board_config", groupForm boardFields⟩, ⟨"build_config", groupForm buildFields⟩]

/-! ### Writing -/

def parseDatum (o : Document.Limits) : Datum :=
  .record [("schema_versions", .texts o.versions), ("max_name_length", .int o.maxNameLength)]

def generateDatum (o : Firmware.Options) : Datum :=
  .record [("fallback_color", .text o.fallbackColor),
    ("transparent_keycode", .text o.transparentKeycode),
    ("default_keycode", .text o.defaultKeycode),
    ("deprecated_defines", .texts o.deprecatedDefines),
    ("deprecated_define_patterns", .texts o.deprecatedPatterns),
    ("light_count_define", .text o.lightCountDefine), ("keymap_file", .text o.keymapFile),
    ("config_file", .text o.configFile), ("rules_file", .text o.rulesFile),
    ("banner", .text o.banner)]

def boardDatum (o : Board.Lookup) : Datum :=
  .record [("board_roots", .texts (o.roots.map (·.text))), ("use_local_cache", .bool o.useCache),
    ("allow_remote", .bool o.allowRemote)]

def buildDatum (o : Build.Options) : Datum :=
  .record [("qmk_home", .ofOption (fun p => .text p.text) o.home?), ("command", .texts o.command),
    ("firmware_extensions", .texts o.firmwareExtensions),
    ("error_markers", .texts o.errorMarkers), ("success_markers", .texts o.successMarkers)]

def entries (s : Settings) : List (String × Datum) :=
  [("parse_config", parseDatum s.parse), ("generate_config", generateDatum s.generate),
    ("board_config", boardDatum s.board), ("build_config", buildDatum s.build)]

end Settings

end Keyforge
