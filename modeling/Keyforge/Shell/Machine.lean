import Keyforge.File.Tree
import Keyforge.Shell.Command

/-!
# Running programs

What programs work with: a file tree, the directory they are in, variables, and open files by their
descriptors. A run changes it and may break off, which is how loops, functions and shells are left.
-/

namespace Keyforge.Shell

/-! ### State -/

structure Variable where
  value? : Option String := none
  isExported : Bool := false
  isFixed : Bool := false
  deriving Repr, DecidableEq

inductive Channel where
  | console
  | nothing
  | file (names : List String)
  | buffer (number : Nat)
  deriving Repr, DecidableEq

/-- An open file. Descriptors that stand for the same one share the place they are at. -/
structure Opening where
  channel : Channel
  offset : Nat := 0
  appends : Bool := false
  deriving Repr, DecidableEq

structure Job where
  process : Nat
  status : Nat
  pauses : Bool
  written : List (Nat × List UInt8)
  isOver : Bool := false
  deriving Repr

structure Aside where
  limit : Nat
  written : List (Nat × List UInt8) := []
  deriving Repr

abbrev Options := List Char

structure Machine where
  tree : File.Tree := {}
  directory : List String := []
  name : String := "sh"
  line : Nat := 1
  command? : Option String := none
  bindings : List (String × Variable) := []
  arguments : List String := []
  functions : List (String × Command) := []
  documents : List (Nat × Word) := []
  options : Options := []
  status : Nat := 0
  outputStatus : Nat := 0
  traps : List (Nat × String) := []
  signals : List Nat := []
  openings : List Opening := []
  descriptors : List (Nat × Nat) := []
  buffers : List (List UInt8) := []
  output : List (List UInt8) := []
  held : List String := []
  locals? : Option (List (String × Option Variable)) := none
  functionDepth : Nat := 0
  loopDepth : Nat := 0
  process : Nat := 1000
  isMain : Bool := true
  ancestors : List Nat := [999]
  sent : List (Nat × Nat) := []
  nextProcess : Nat := 1001
  jobs : List Job := []
  aside? : Option Aside := none
  modes : List (List String × Nat) := []
  mask : Nat := 18
  paused? : Option File.Tree := none
  hasPaused : Bool := false

inductive Escape where
  | exit (status : Nat)
  | failure
  | killed (signal : Nat)
  | leave (loops : Nat)
  | again (loops : Nat)
  | back (status : Nat)
  deriving Repr, DecidableEq

abbrev Run := ExceptT Escape (StateM Machine)

def attempt {α : Type} (body : Run α) : Run (Except Escape α) := ExceptT.lift body.run

def resume {α : Type} : Except Escape α → Run α
  | .ok a => return a
  | .error e => throw e

def Escape.status (last : Nat) : Escape → Nat
  | .exit status | .back status => status % 256
  | .failure => 2
  | .killed signal => 128 + signal
  | .leave _ | .again _ => last

/-! ### Places -/

def treeRoot : List String := ["work"]

def systemDirectories : List (List String) :=
  [[], ["bin"], ["dev"], ["etc"], ["home"], ["lib"], ["opt"], ["proc"], ["root"], ["sbin"], ["tmp"],
    ["usr"], ["usr", "bin"], ["usr", "lib"], ["usr", "local"], ["usr", "local", "bin"],
    ["usr", "share"], ["var"], ["var", "tmp"], treeRoot]

def systemFiles : List (List String) :=
  [["bin", "sh"], ["dev", "null"], ["etc", "passwd"], ["etc", "hosts"]]

def pathNames (s : String) : List String :=
  (File.Path.ofString s).parts

def withoutDots (names : List String) : List String :=
  names.foldl (fun done name => if name == ".." then done.dropLast else done ++ [name]) []

def treePath? (names : List String) : Option File.Path :=
  if treeRoot.isPrefixOf names then some ⟨"", names.drop treeRoot.length⟩ else none

def Machine.namesOf (m : Machine) (path : String) : List String :=
  if path.startsWith "/" then pathNames path else m.directory ++ pathNames path

def Machine.place (m : Machine) (path : String) : File.Place :=
  if path == "" then .refused .missing
  else
    let names := m.namesOf (gather path)
    match treePath? names with
    | some p =>
      match m.tree.place p with
      | .found _ (.file _) => if path.endsWith "/" then .refused .notDirectory else m.tree.place p
      | place => place
    | none =>
      let names := withoutDots names
      match treePath? names with
      | some p => m.tree.place p
      | none =>
        if systemDirectories.contains names then .found ("" :: names) .directory
        else if systemFiles.contains names then .found ("" :: names) (.file "")
        else if systemDirectories.contains names.dropLast then .vacant ("" :: names)
        else .refused .missing

def isInTree (names : List String) : Bool := names.head? != some ""

def Machine.isFile (m : Machine) (path : String) : Bool :=
  match m.place path with
  | .found _ (.file _) => true
  | _ => false

def Machine.isDirectory (m : Machine) (path : String) : Bool :=
  match m.place path with
  | .found _ .directory => true
  | _ => false

def Machine.mode (m : Machine) (names : List String) : Nat :=
  (Pairs.get? names m.modes).getD (if m.tree.entryAt? names == some .directory then 493 else 420)

def Machine.isExecutable (m : Machine) (names : List String) : Bool :=
  Nat.land (m.mode names) 73 != 0

def Machine.content (m : Machine) (names : List String) : List UInt8 :=
  match m.tree.entryAt? names with
  | some (.file content) => Text.encode content
  | _ => []

/-! ### Writing and reading -/

def Machine.held? (m : Machine) : Channel → List UInt8
  | .console | .nothing => []
  | .file names => m.content names
  | .buffer n => m.buffers.getD n []

def Machine.opening? (m : Machine) (descriptor : Nat) : Option (Nat × Opening) :=
  (m.descriptors.lookup descriptor).bind fun n => (m.openings[n]?).map fun o => (n, o)

def splice (old : List UInt8) (offset : Nat) (new : List UInt8) : List UInt8 :=
  let front := old.take offset
  front ++ List.replicate (offset - front.length) 0 ++ new ++ old.drop (offset + new.length)

def Machine.writeTo (m : Machine) (n : Nat) (bytes : List UInt8) : Machine :=
  match m.openings[n]? with
  | none => m
  | some o =>
    match o.channel with
    | .nothing => m
    | .console => { m with output := bytes :: m.output }
    | .buffer b => { m with buffers := m.buffers.set b (m.buffers.getD b [] ++ bytes) }
    | .file names =>
      let old := m.content names
      let offset := if o.appends then old.length else o.offset
      let content := Text.decodeExact (splice old offset bytes)
      { m with
        tree := if (m.tree.entryAt? names).isSome then m.tree.put names (.file content) else m.tree
        openings := m.openings.set n { o with offset := offset + bytes.length } }

def emit (descriptor : Nat) (bytes : List UInt8) : Run Bool := do
  let m ← get
  match m.opening? descriptor with
  | none => return false
  | some (n, _) =>
    match m.aside?.filter fun aside => n < aside.limit with
    | some aside => set { m with aside? := some { aside with written := (n, bytes) :: aside.written } }
    | none => set (m.writeTo n bytes)
    return true

def say (text : String) : Run Unit := modify fun m => { m with held := text :: m.held }

def flush : Run Bool := do
  let m ← get
  if m.held.isEmpty then return true
  else
    set { m with held := [] }
    emit 1 (m.held.reverse.flatMap octets)

def complain (text : String) : Run Unit := do
  let _ ← emit 2 (octets (text ++ "\n"))

def report (text : String) : Run Unit := do
  let m ← get
  let command := (m.command?.map (· ++ ": ")).getD ""
  complain (m.name ++ ": " ++ Text.natText m.line ++ ": " ++ command ++ text)

def refuse {α : Type} (text : String) : Run α := do
  report text
  modify fun m => { m with status := 2 }
  throw .failure

def readAll (descriptor : Nat) : Run (List UInt8) := do
  let m ← get
  match m.opening? descriptor with
  | none => return []
  | some (n, o) =>
    let bytes := m.held? o.channel
    set { m with openings := m.openings.set n { o with offset := max o.offset bytes.length } }
    return bytes.drop o.offset

def unread (descriptor count : Nat) : Run Unit := do
  let m ← get
  match m.opening? descriptor with
  | none => return ()
  | some (n, o) => set { m with openings := m.openings.set n { o with offset := o.offset - count } }

def lineOf (bytes : List UInt8) : List UInt8 × Bool :=
  let line := bytes.takeWhile (· != 10)
  (line, line.length < bytes.length)

def readLine (descriptor : Nat) : Run (List UInt8 × Bool) := do
  let bytes ← readAll descriptor
  let (line, isWhole) := lineOf bytes
  unread descriptor (bytes.length - line.length - (if isWhole then 1 else 0))
  return (line, isWhole)

def addOpening (o : Opening) : Run Nat := do
  let m ← get
  set { m with openings := m.openings ++ [o] }
  return m.openings.length

def bindDescriptor (descriptor n : Nat) : Run Unit := modify fun m =>
  { m with descriptors := Pairs.put descriptor n m.descriptors }

def addBuffer (bytes : List UInt8) : Run Nat := do
  let m ← get
  set { m with buffers := m.buffers ++ [bytes] }
  return m.buffers.length

/-! ### Variables -/

def Machine.value? (m : Machine) (name : String) : Option String :=
  (Pairs.get? name m.bindings).bind (·.value?)

def Machine.value (m : Machine) (name : String) : String := (m.value? name).getD ""

def Machine.assign (m : Machine) (name value : String) : Machine :=
  let v := (Pairs.get? name m.bindings).getD {}
  let v := { v with value? := some value, isExported := v.isExported || m.options.contains 'a' }
  { m with bindings := Pairs.put name v m.bindings }

def assign (name value : String) : Run Unit := do
  let m ← get
  if (Pairs.get? name m.bindings).any (·.isFixed) then refuse (name ++ ": is read only")
  else set (m.assign name value)

def restoreVariables (before : List (String × Option Variable)) : Run Unit := modify fun m =>
  { m with bindings := before.foldl (fun vs (name, v?) =>
      match v? with
      | some v => Pairs.put name v vs
      | none => Pairs.erase name vs) m.bindings }

/-! ### Signals -/

def signalNames : List (String × Nat) :=
  [("EXIT", 0), ("HUP", 1), ("INT", 2), ("QUIT", 3), ("ILL", 4), ("TRAP", 5), ("ABRT", 6), ("BUS", 7),
    ("FPE", 8), ("KILL", 9), ("USR1", 10), ("SEGV", 11), ("USR2", 12), ("PIPE", 13), ("ALRM", 14),
    ("TERM", 15), ("STKFLT", 16), ("CHLD", 17), ("CONT", 18), ("STOP", 19), ("TSTP", 20), ("TTIN", 21),
    ("TTOU", 22), ("URG", 23), ("XCPU", 24), ("XFSZ", 25), ("VTALRM", 26), ("PROF", 27), ("WINCH", 28),
    ("IO", 29), ("PWR", 30), ("SYS", 31)]

def signalLimit : Nat := 65

def harmlessSignals : List Nat := [0, 17, 18, 23, 28]

def signalName (n : Nat) : String :=
  ((signalNames.find? fun (_, k) => k == n).map (·.1)).getD (Text.natText n)

def signal? (name : String) : Option Nat :=
  if name != "" && name.toList.all Char.isDigit then
    let n := Text.natOfDigits name.toList
    if n < signalLimit then some n else none
  else
    let upper := String.ofList (name.toList.map Char.toUpper)
    signalNames.lookup upper

def signalMessages : List (Nat × String) :=
  [(1, "Hangup"), (3, "Quit"), (4, "Illegal instruction"), (6, "Aborted"), (9, "Killed"),
    (10, "User defined signal 1"), (11, "Segmentation fault"), (12, "User defined signal 2"),
    (14, "Alarm clock"), (15, "Terminated")]

end Keyforge.Shell
