import Keyforge.Firmware.Artifacts

/-!
# Invocations

What the options for builds mean for the sources of one keymap: where they go, the command line that
builds them, what the lines of its output tell, and where the firmware is then.
-/

namespace Keyforge.Build

/-- How the firmware is built from its sources. -/
structure Options where
  /-- The root of the firmware's own sources, in which the build runs. -/
  home? : Option File.Path := none
  /-- The command line. The names of the keyboard and the keymap are put in for the words in
  braces. -/
  command : List String := ["make", "\x7bkeyboard\x7d:\x7bkeymap\x7d"]
  /-- The endings of firmware files, the preferred one first. -/
  firmwareExtensions : List String := [".uf2", ".hex", ".bin"]
  errorMarkers : List String := ["error", "Error", "ERROR", "[ERRORS]"]
  successMarkers : List String := ["[OK]", "Copying "]
  deriving Repr, DecidableEq

inductive Level where
  | info
  | success
  | error
  deriving Repr, DecidableEq

def Level.name : Level → String
  | .info => "info"
  | .success => "success"
  | .error => "error"

namespace Options

def classify (o : Options) (line : String) : Level :=
  let marked (markers : List String) := markers.any fun m => Text.occursIn m.toList line.toList
  if marked o.errorMarkers then .error
  else if marked o.successMarkers then .success
  else .info

def commandFor (o : Options) (keyboard keymap : String) : List String :=
  o.command.map fun part =>
    Text.replaceAll "\x7bkeymap\x7d" keymap (Text.replaceAll "\x7bkeyboard\x7d" keyboard part)

def firmwareCandidates (o : Options) (home : File.Path) (keyboard keymap : String) :
    List File.Path :=
  let stem := Text.replaceAll "/" "_" keyboard ++ "_" ++ keymap
  [home.child ".build", home].flatMap fun directory =>
    o.firmwareExtensions.map fun extension => directory.child (stem ++ extension)

def firstFile? (tree : File.Tree) : List File.Path → Except File.Error (Option File.Path)
  | [] => .ok none
  | p :: rest => do
    if ← tree.look p File.Tree.isFile then return some p
    firstFile? tree rest

def findFirmware (o : Options) (tree : File.Tree) (keyboard keymap : String) :
    Except File.Error (Option File.Path) :=
  match o.home? with
  | none => .ok none
  | some home => firstFile? tree (o.firmwareCandidates home keyboard keymap)

end Options

def keymapDirectory (home : File.Path) (keyboard keymap : String) : File.Path :=
  (((home.child "keyboards").child keyboard).child "keymaps").child keymap

end Keyforge.Build
