import Keyforge.Build.Session
import Keyforge.Cli.Invocation
import Keyforge.Document.Writer

/-!
# Running the program

What the program does for a command line.
-/

namespace Keyforge.Cli

/-! ### Inputs -/

def loadSettings (source? : Option Source) : Action Settings := do
  let environment := (← get).environment
  match source? with
  | none => orEscape .settings (Settings.load environment [])
  | some source =>
    let data ← orEscape .yaml (Yaml.load (← source.read))
    orEscape .settings (Settings.ofDatum (Settings.load environment) data)

def readLayout (settings : Settings) (source : Source) : Action Layout := do
  let text ← source.read
  let outcome := Document.parse settings.parse (← get).now text
  note (outcome.warnings.map fun w => .warning w.message)
  match outcome.result with
  | .ok layout => return layout
  | .error (.located e) => fail e.text
  | .error e => throw (.escape (.document e))

def definitionSuffixes : List String := [".json", ".yaml", ".yml"]

def findBoard (settings : Settings) (choice : BoardChoice) : Action Board := do
  let path := File.Path.ofString choice.name
  let search :=
    if definitionSuffixes.contains path.suffix then Board.loadFile path choice.layoutName?
    else Board.load settings.board choice.name choice.layoutName?
  let w ← get
  let (result, shelf) := search.run.run { tree := w.tree, remote := w.remote }
  modify fun w => { w with tree := shelf.tree, log := w.log ++ shelf.log }
  match result with
  | .ok board => return board
  | .error e =>
    match e.kind with
    | .notFound | .invalid => fail e.message
    | .other => throw (.escape (.board e))

def hasNames (es : List (Datum × Datum)) : Bool :=
  es.all fun (key, _) => match key with
    | .text _ => true
    | _ => false

def readTable (path : File.Path) : Action Keycode.Table := do
  let content ← orEscape .file ((← get).tree.read path)
  match ← orEscape .yaml (Yaml.load content) with
  | .map es =>
    if !hasNames es then throw (.escape .noTable)
    match Keycode.Table.ofEntries es with
    | .ok table => return table
    | .faults issues => throw (.escape (.table issues))
  | _ => throw (.escape .noTable)

def prepare (settings : Settings) (work : Work) : Action Firmware.Compilation := do
  let layout ← readLayout settings work.layout
  let table? ← match work.keycodes? with
    | some path => some <$> readTable path
    | none => pure none
  let board ← findBoard settings work.board
  orEscape .color (Firmware.Compilation.make layout board settings.generate table?)

def generateSources (c : Firmware.Compilation) : Action Firmware.Artifacts := do
  let (log, result) := c.generate
  note log
  match result with
  | .ok artifacts => return artifacts
  | .error (.invalid report) => fail report.failureText
  | .error e => throw (.escape (.firmware e))

/-! ### Commands -/

def newLayout (settings : Settings) (name : String) (choice : BoardChoice) : Action String := do
  let board ← findBoard settings choice
  let layout ← orEscape .rejected <|
    Layout.ofGeometry (← get).now board.geometry (.text settings.generate.defaultKeycode)
      [(.text "name", .text name), (.text "keyboard", board.keyboard),
        (.text "layout_variant", .ofOption .text board.layoutName?)]
  return Document.write layout

def validate (c : Firmware.Compilation) : Action Nat := do
  let report ← orEscape (.firmware ∘ .number) c.toSubject.validate
  for finding in report.errors ++ report.warnings do
    if !finding.isWritable then throw (.escape (.firmware (.number .unwritable)))
    print (finding.text ++ "\n")
  print (Text.natText report.errors.length ++ " error(s), " ++
    Text.natText report.warnings.length ++ " warning(s)\n")
  return if report.isValid then 0 else 1

def writeSources (artifacts : Firmware.Artifacts) (directory : File.Path) : Action Nat := do
  let (tree, result) := artifacts.write directory (← get).tree
  modify fun w => { w with tree }
  for path in ← orEscape .write result do
    print (path.text ++ "\n")
  return 0

def relay : Build.Message → Action Unit
  | .progress _ status text => note [.info ("[" ++ status.name ++ "] " ++ text)]
  | .output _ .error line => printError line
  | .output _ _ line => print (line ++ "\n")
  | .complete _ (.succeeded firmware?) =>
    note (firmware?.toList.map fun path => .info ("firmware: " ++ path.text))
  | .complete _ (.failed failure) => note [.error failure.cause.message]

def succeeded (messages : List Build.Message) : Bool :=
  messages.any fun
    | .complete _ (.succeeded _) => true
    | _ => false

def buildFirmware (options : Build.Options) (artifacts : Firmware.Artifacts) : Action Nat := do
  let toolchain := (← get).toolchain
  let system : Build.System := { options, tree := (← get).tree }
  let (system, start) := system.start toolchain artifacts
  let leave (system : Build.System) : Action Unit := do
    let system := system.closeDown toolchain
    modify fun w => { w with tree := system.tree, log := w.log ++ system.log }
  match start with
  | .attempt id =>
    let (system, messages) := system.collect toolchain id
    for message in messages do
      relay message
    leave system
    return if succeeded messages then 0 else 1
  | .raised error =>
    leave system
    throw (.escape (.write error))
  | .rejected =>
    leave system
    return 1

def runCommand (settings : Settings) : Command → Action Nat
  | .format layout output => do
    let layout ← readLayout settings layout
    output.write (Document.write layout)
    return 0
  | .new name choice output => do
    output.write (← newLayout settings name choice)
    return 0
  | .validate work => do validate (← prepare settings work)
  | .generate work directory => do
    writeSources (← generateSources (← prepare settings work)) directory
  | .build work home? keymap? => do
    let options := { settings.build with home? := home? <|> settings.build.home? }
    let c ← prepare settings work
    let metadata := c.layout.metadata
    let keymapName? := match keymap? with
      | none | some "" => metadata.keymapName?
      | some name => some name
    let layout := { c.layout with metadata := { metadata with keymapName? } }
    buildFirmware options (← generateSources { c with layout })
  | .dumpSettings output => do
    output.write <| Yaml.writeDocument {} <|
      settings.entries.map fun (name, value) => (.text name, value)
    return 0

def run (words : List String) : Action Nat := do
  let invocation ← readInvocation words
  runCommand (← loadSettings invocation.settings?) invocation.command

inductive Result where
  | status (n : Nat)
  | escaped (error : Escape)

def perform (world : World) (words : List String) : World × Result :=
  match (run words).run.run world with
  | (.ok n, world) => (world, .status n)
  | (.error (.exit n), world) => (world, .status n)
  | (.error (.escape e), world) => (world, .escaped e)

end Keyforge.Cli
