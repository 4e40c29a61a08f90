import Keyforge.Cli.Words
import Keyforge.Cli.World

/-!
# Invocations

What a command line asks the program to do. The files it names are opened while it is read, so that a
command line that turns out to be unusable may already have emptied the file for the output.
-/

namespace Keyforge.Cli

/-! ### Usages -/

def helpFlag : Flag := ⟨some "-h", "--help", false⟩

def mainUsage : Usage :=
  ⟨[helpFlag, ⟨some "-v", "--version", false⟩, ⟨some "-d", "--debug", false⟩,
    ⟨some "-c", "--config", true⟩], .rest⟩

def outputFlag : Flag := ⟨some "-o", "--output", true⟩

def boardFlags : List Flag := [⟨some "-b", "--board", true⟩, ⟨some "-l", "--layout-name", true⟩]

def keycodesFlag : Flag := ⟨some "-k", "--keycodes", true⟩

inductive Verb where
  | format
  | new
  | validate
  | generate
  | build
  | dumpSettings
  deriving Repr, DecidableEq

def verbs : List (String × Verb) :=
  [("format", .format), ("new", .new), ("validate", .validate), ("generate", .generate),
    ("build", .build), ("dump-config", .dumpSettings)]

def Verb.usage : Verb → Usage
  | .format => ⟨[helpFlag, outputFlag], .one⟩
  | .new => ⟨[helpFlag] ++ boardFlags ++ [outputFlag], .one⟩
  | .validate => ⟨[helpFlag, keycodesFlag] ++ boardFlags, .one⟩
  | .generate =>
    ⟨[helpFlag, keycodesFlag] ++ boardFlags ++ [⟨some "-o", "--output-dir", true⟩], .one⟩
  | .build =>
    ⟨[helpFlag, keycodesFlag] ++ boardFlags ++
      [⟨some "-q", "--qmk-home", true⟩, ⟨none, "--keymap", true⟩], .one⟩
  | .dumpSettings => ⟨[helpFlag, outputFlag], .none⟩

/-! ### Invocations -/

structure BoardChoice where
  name : String
  layoutName? : Option String
  deriving Repr, DecidableEq

structure Work where
  layout : Source
  keycodes? : Option File.Path
  board : BoardChoice
  deriving Repr, DecidableEq

inductive Command where
  | format (layout : Source) (output : Sink)
  | new (name : String) (board : BoardChoice) (output : Sink)
  | validate (work : Work)
  | generate (work : Work) (directory : File.Path)
  | build (work : Work) (home? : Option File.Path) (keymap? : Option String)
  | dumpSettings (output : Sink)
  deriving Repr, DecidableEq

structure Invocation where
  settings? : Option Source
  command : Command
  deriving Repr, DecidableEq

structure Given where
  name? : Option String := none
  layout? : Option Source := none
  output : Sink := .standard
  directory? : Option File.Path := none
  board? : Option String := none
  layoutName? : Option String := none
  keycodes? : Option File.Path := none
  home? : Option File.Path := none
  keymap? : Option String := none

def programName : String := "keymap-compiler"

def version : String := "0.1.0"

def help : String :=
  "usage: " ++ programName ++ " [-h] [-v] [-d] [-c CONFIG] COMMAND ...\n\ncommands: " ++
    String.intercalate ", " (verbs.map Prod.fst) ++ "\n"

def Given.take (verb : Verb) (g : Given) : Request → Action Given
  | .argument value => do
    if verb = .new then return { g with name? := some value }
    else return { g with layout? := some (← openSource value) }
  | .flag "--output" value => return { g with output := ← openSink value }
  | .flag "--output-dir" value => return { g with directory? := some (.ofString value) }
  | .flag "--board" value => return { g with board? := some value }
  | .flag "--layout-name" value => return { g with layoutName? := some value }
  | .flag "--keycodes" value => return { g with keycodes? := some (.ofString value) }
  | .flag "--qmk-home" value => return { g with home? := some (.ofString value) }
  | .flag "--keymap" value => return { g with keymap? := some value }
  | .flag _ _ => do
    print help
    exit 0
  | .rest _ _ => return g

def Given.choice? (g : Given) : Option BoardChoice := g.board?.map fun name => ⟨name, g.layoutName?⟩

def Given.work? (g : Given) : Option Work := do
  return ⟨← g.layout?, g.keycodes?, ← g.choice?⟩

def Given.command? (g : Given) : Verb → Option Command
  | .format => g.layout?.map fun layout => .format layout g.output
  | .new => do return .new (← g.name?) (← g.choice?) g.output
  | .validate => g.work?.map .validate
  | .generate => do return .generate (← g.work?) (← g.directory?)
  | .build => g.work?.map fun work => .build work g.home? g.keymap?
  | .dumpSettings => some (.dumpSettings g.output)

def checkEnding : Ending → Action Unit
  | .complete false => pure ()
  | _ => exit usageStatus

def readCommand (verb : Verb) (words : List String) : Action Command := do
  let reading := verb.usage.read words
  let given ← reading.requests.foldlM (Given.take verb) {}
  checkEnding reading.ending
  match given.command? verb with
  | some command => return command
  | none => exit usageStatus

structure Progress where
  settings? : Option Source := none
  command? : Option Command := none

def Progress.take (p : Progress) : Request → Action Progress
  | .flag "--config" value => return { p with settings? := some (← openSource value) }
  | .flag "--debug" _ => return p
  | .flag "--version" _ => do
    print (version ++ "\n")
    exit 0
  | .flag _ _ => do
    print help
    exit 0
  | .rest first words => do
    match verbs.lookup first with
    | some verb => return { p with command? := some (← readCommand verb words) }
    | none => exit usageStatus
  | .argument _ => return p

def readInvocation (words : List String) : Action Invocation := do
  let reading := mainUsage.read words
  let progress ← reading.requests.foldlM Progress.take {}
  checkEnding reading.ending
  match progress.command? with
  | some command => return ⟨progress.settings?, command⟩
  | none => exit usageStatus

end Keyforge.Cli
