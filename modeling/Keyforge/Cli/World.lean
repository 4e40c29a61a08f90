import Keyforge.Build.Task
import Keyforge.Document.Parse
import Keyforge.Firmware.Sources
import Keyforge.Settings.Load

/-!
# The surroundings of a run

What a run of the program works with: files, the standard streams, the environment and the log. A
part of a run may stop it with a status or with an error that nothing in the program handles.
-/

namespace Keyforge.Cli

structure World where
  tree : File.Tree := {}
  input : String := ""
  output : String := ""
  errors : String := ""
  log : Log := []
  environment : Settings.Environment := []
  now : Time.Stamp
  remote : Board.Server := Board.Remote.unreachable "no network"
  toolchain : Build.Toolchain

inductive Escape where
  | settings (error : Settings.Error)
  | yaml (error : Yaml.LoadError)
  | document (error : Document.ReadError)
  | board (error : Board.Error)
  | rejected (error : Rejected)
  | file (error : File.Error)
  | table (issues : List Datum.Issue)
  | noTable
  | color (error : Color.Invalid)
  | firmware (error : Firmware.Failure)
  | write (error : Firmware.Artifacts.WriteError)

def Escape.message : Escape → String
  | .settings _ => "the settings are not valid"
  | .yaml _ => "a file is not valid YAML"
  | .document _ => "the frontmatter of the layout is not valid"
  | .board e => e.message
  | .rejected _ => "the layout is not valid"
  | .file e => e.message
  | .table _ | .noTable => "the table of keycodes is not valid"
  | .color e => e.message
  | .firmware _ => "the sources cannot be generated"
  | .write (.file e) => e.message
  | .write (.name e) => e.message
  | .write .noKeyboard => "the keyboard has no name"

inductive Stop where
  | exit (status : Nat)
  | escape (error : Escape)

abbrev Action := ExceptT Stop (StateM World)

def exit (status : Nat) : Action α := throw (.exit status)

def usageStatus : Nat := 2

def note (entries : Log) : Action Unit := modify fun w => { w with log := w.log ++ entries }

def fail (message : String) : Action α := do
  note [.error message]
  exit 1

def print (text : String) : Action Unit := modify fun w => { w with output := w.output ++ text }

def printError (line : String) : Action Unit :=
  modify fun w => { w with errors := w.errors ++ line ++ "\n" }

def orEscape (f : ε → Escape) : Except ε α → Action α
  | .ok a => pure a
  | .error e => throw (.escape (f e))

/-! ### Files that are named on the command line -/

inductive Source where
  | standard
  | file (path : File.Path)
  deriving Repr, DecidableEq

inductive Sink where
  | standard
  | file (path : File.Path)
  deriving Repr, DecidableEq

def openSource (name : String) : Action Source := do
  if name == "-" then return .standard
  else
    let path := File.Path.ofString name
    match (← get).tree.read path with
    | .ok _ => return .file path
    | .error _ => exit usageStatus

def openSink (name : String) : Action Sink := do
  if name == "-" then return .standard
  else
    let path := File.Path.ofString name
    match (← get).tree.clear path with
    | .ok (tree, _) =>
      modify fun w => { w with tree }
      return .file path
    | .error _ => exit usageStatus

def Source.read : Source → Action String
  | .standard => do
    let w ← get
    set { w with input := "" }
    return w.input
  | .file path => do
    let content ← orEscape .file ((← get).tree.read path)
    return Text.universalNewlines content

def Sink.write (text : String) : Sink → Action Unit
  | .standard => print text
  | .file path => do
    let (tree, result) := (← get).tree.write path text
    modify fun w => { w with tree }
    orEscape .file result

end Keyforge.Cli
