import Keyforge.Board.Info
import Keyforge.Json.Writer
import Keyforge.Yaml.Load

/-!
# Finding boards

The definition of a keyboard is looked for in trees of definition files, then in a cache of answers
of a server, then on the server itself.
-/

namespace Keyforge.Board

structure Lookup where
  roots : List File.Path := []
  useCache : Bool := true
  allowRemote : Bool := false
  deriving Repr, DecidableEq

inductive Remote where
  | body (text : String)
  | httpError (code : Int)
  | unreachable (reason : String)
  deriving Repr, DecidableEq

abbrev Server := String → Remote

instance : Coe Remote Server := ⟨fun answer _ => answer⟩

/-- What looking for boards works with: files, definitions read before, the server and the log. -/
structure Shelf where
  tree : File.Tree := {}
  remembered : List (File.Path × Datum) := []
  remote : Server := Remote.unreachable "no network"
  log : Log := []

/-- A search that may fail and leaves its traces on the shelf in any case. -/
abbrev Search := ExceptT Error (StateM Shelf)

def note (entries : Log) : Search Unit := modify fun s => { s with log := s.log ++ entries }

def withFiles (result : Except File.Error α) : Search α :=
  match result with
  | .ok a => pure a
  | .error e => throw (.file e)

def seesFile (p : File.Path) : Search Bool := do withFiles ((← get).tree.look p File.Tree.isFile)

def seesDirectory (p : File.Path) : Search Bool := do
  withFiles ((← get).tree.look p File.Tree.isDirectory)

/-- The value of a JSON text. `failure` is the error if it is malformed. -/
def ofJson (failure : Error) (content : String) : Search Datum :=
  match Json.readFile content with
  | .ok value => pure value
  | .error .malformed => throw failure
  | .error (.tooLong digits) => throw (.tooLong digits)
  | .error .undecodable => throw .undecodable
  | .error .tooDeep => throw .tooDeep

def cacheDirectory : File.Path := .ofString "cache"

def definitionFiles : List String := ["info.json", "keyboard.json"]

def headerFile : String := "config.h"

def address (keyboard : String) : String :=
  "https://keyboards.qmk.fm/v1/keyboards/" ++ keyboard ++ "/info.json"

def memory : Nat := 128

def remember (p : File.Path) (value : Datum) : Search Unit :=
  modify fun shelf =>
    let others := shelf.remembered.filter fun (q, _) => q != p
    { shelf with remembered := ((p, value) :: others).take memory }

/-- Reads a definition file, unless it was read before. `failure` is the error if it is malformed. -/
def readDefinition (p : File.Path) (failure : Error) : Search Datum := do
  let shelf ← get
  let value ←
    match shelf.remembered.lookup p with
    | some value => pure value
    | none => ofJson failure (← withFiles (shelf.tree.read p))
  remember p value
  return value

def readText (p : File.Path) : Search String := do
  let content ← withFiles ((← get).tree.read p)
  return Text.universalNewlines content

/-! ### Trees -/

/-- What is found on the way to a keyboard. -/
structure Found where
  entries : List (Datum × Datum) := []
  headers : List String := []
  any : Bool := false

/-- Lays a definition file over what was found before, if the file exists. -/
def addDefinition (directory : File.Path) (found : Found) (name : String) : Search Found := do
  let p := directory.child name
  if ← seesFile p then
    match ← readDefinition p (.unreadableJson p) with
    | .map es =>
      return { found with entries := Datum.mergeEntries found.entries es, any := true }
    | _ => throw .partNoMapping
  else return found

def addDirectory (directory : File.Path) (found : Found) : Search Found := do
  let found ← definitionFiles.foldlM (addDefinition directory) found
  let header := directory.child headerFile
  if ← seesFile header then
    return { found with headers := found.headers ++ [← readText header] }
  else return found

/-- Adds the files of the directories on the way along some names. -/
def addDirectories : File.Path → List String → Found → Search Found
  | _, [], found => return found
  | directory, name :: rest, found => do
    let directory := directory.child name
    addDirectories directory rest (← addDirectory directory found)

/-- Looks for a keyboard in one tree: its definition and its configuration header. -/
def findLocal (root : File.Path) (keyboard : String) : Search (Option (Datum × String)) := do
  let top := root.child "keyboards"
  if ← seesDirectory (top.child keyboard) then
    let found ← addDirectories top (File.Path.ofString keyboard).parts {}
    if found.any then
      return some (.map found.entries, Text.joinLines found.headers)
    else return none
  else return none

/-- Looks for a keyboard in trees, one after the other. -/
def findInRoots : List File.Path → String → Search (Option (Datum × String))
  | [], _ => return none
  | root :: rest, keyboard => do
    match ← findLocal root keyboard with
    | some found => return some found
    | none => findInRoots rest keyboard

/-! ### Server and cache -/

def answerEntry (keyboard : String) (answer : Datum) : Search Datum := do
  match answer with
  | .map es =>
    match Datum.entry? "keyboards" es with
    | none => throw (.fetch keyboard (.noEntry "keyboards"))
    | some (.map keyboards) =>
      match Datum.entry? keyboard keyboards with
      | none => throw (.fetch keyboard (.noEntry keyboard))
      | some value => return value
    | some _ => throw .answerShape
  | _ => throw .answerShape

/-- The definition of a keyboard in what the server answers at its address. -/
def ofAnswer (keyboard : String) : Remote → Search Datum
  | .httpError _ => throw (.notOnServer keyboard)
  | .unreachable reason => throw (.fetch keyboard (.unreachable reason))
  | .body text => do answerEntry keyboard (← ofJson (.fetch keyboard .malformed) text)

def fetch (keyboard : String) : Search Datum := do
  note [.visit (address keyboard)]
  ofAnswer keyboard ((← get).remote (address keyboard))

def cacheFile (keyboard : String) : File.Path :=
  let name := keyboard.toList.map fun c => if c == '/' then '@' else c
  cacheDirectory.child (String.ofList name ++ ".json")

def store (p : File.Path) (value : Datum) : Search Unit := do
  let (tree, result) := (← get).tree.makeDirectories p.parent
  modify fun s => { s with tree }
  withFiles result
  let (tree, result) := tree.write p (Json.write value)
  modify fun s => { s with tree }
  withFiles result

def findRemote (lookup : Lookup) (keyboard : String) : Search Datum := do
  let p := cacheFile keyboard
  let isCached ← if lookup.useCache then seesFile p else pure false
  if isCached then readDefinition p .cacheSyntax
  else if lookup.allowRemote then
    let value ← fetch keyboard
    if lookup.useCache then store p value
    return value
  else throw (.notInRoots keyboard lookup.roots)

/-! ### Boards -/

def ofDefinition (value : Datum) (keyboard : Datum) (layoutName? : Option String)
    (baseConfig : String) : Search Board := do
  match Info.ofDatum keyboard value with
  | .error e => throw e
  | .ok info =>
    let (log, result) := info.toBoard keyboard layoutName? baseConfig
    note log
    match result with
    | .ok board => return board
    | .error e => throw e

def stripSlashes (s : String) : String :=
  String.ofList (Text.dropWhileEnd (· == '/') (s.toList.dropWhile (· == '/')))

/-- Looks for a board in the roots, and then in the cache and at the server. -/
def load (lookup : Lookup) (name : String) (layoutName? : Option String := none) :
    Search Board := do
  let keyboard := stripSlashes name
  match ← findInRoots lookup.roots keyboard with
  | some (value, baseConfig) => ofDefinition value (.text keyboard) layoutName? baseConfig
  | none => ofDefinition (← findRemote lookup keyboard) (.text keyboard) layoutName? ""

/-- Reads a definition file of its own, by its suffix as JSON or as YAML. -/
def readStandalone (p : File.Path) : Search Datum := do
  let content ← withFiles ((← get).tree.read p)
  if p.suffix == ".json" then
    ofJson (.unreadableFile p) content
  else
    match Yaml.load content with
    | .ok value => return value
    | .error (.malformed _ _) => throw (.unreadableFile p)
    | .error e => throw (.load e)

/-- The keyboard a definition file describes: what the definition says, or the name of the directory
it is in. -/
def standaloneName (p : File.Path) : Datum → Datum
  | .map es => (Datum.entry? "keyboard_folder" es).getD (.text p.parent.name)
  | _ => .text p.stem

/-- The board of a definition file, with the configuration header next to it. -/
def loadFile (p : File.Path) (layoutName? : Option String := none) : Search Board := do
  if !(← seesFile p) then throw (.noFile p)
  let value ← readStandalone p
  let header := p.parent.child headerFile
  let baseConfig ← if ← seesFile header then readText header else pure ""
  ofDefinition value (standaloneName p value) layoutName? baseConfig

end Keyforge.Board
