import Keyforge.Shell.Condition
import Keyforge.Shell.Tool.Calculation
import Keyforge.Shell.Tool.Search

/-!
# The tools by their names

What can be run besides scripts. Tools are in directories of the system, and a name without a slash
is looked for in the directories that the variable `PATH` lists.
-/

namespace Keyforge.Shell.Tool

def test : Tool := fun arguments => do
  match Condition.eval (← get) arguments with
  | .ok holds => return if holds then 0 else 1
  | .error e =>
    grumble "test" e.message
    return 2

def bracketTest : Tool := fun arguments => do
  if arguments.getLast? == some "]" then test arguments.dropLast
  else
    grumble "[" "missing ‘]’"
    return 2

def showDirectory : Tool := fun _ => do
  say ("/" ++ spread (String.intercalate "/" (← get).directory) ++ "\n")
  return 0

def table : List (String × Tool) :=
  [("true", fun _ => return 0), ("false", fun _ => return 1), ("sleep", sleep), ("echo", echo),
    ("printf", printFormatted), ("cat", concatenate), ("head", head), ("tail", tail), ("wc", count),
    ("sort", sort), ("ls", list), ("mkdir", makeDirectories), ("touch", touch),
    ("rm", remove), ("cp", transfer "cp" true),
    ("mv", transfer "mv" false), ("chmod", changeMode), ("test", test), ("[", bracketTest),
    ("pwd", showDirectory), ("expr", calculate), ("sed", edit), ("grep", search []),
    ("fgrep", search [('F', "")])]

def starters : List String := ["sh", "dash", "env"]

def isTool (name : String) : Bool := (table.lookup name).isSome || starters.contains name

def directories : List String := ["/usr/bin", "/bin"]

end Tool

/-! ### Programs -/

inductive Program where
  | tool (name : String)
  | script (path : String)
  deriving Repr, DecidableEq

inductive NoProgram where
  | missing
  | forbidden
  deriving Repr, DecidableEq

def NoProgram.message : NoProgram → String
  | .missing => "not found"
  | .forbidden => "Permission denied"

def NoProgram.status : NoProgram → Nat
  | .missing => 127
  | .forbidden => 126

def Machine.programAt (m : Machine) (path : String) : Except NoProgram Program :=
  let tool? := Tool.directories.findSome? fun directory =>
    if path.startsWith (directory ++ "/") then
      some (String.ofList (path.toList.drop (directory.length + 1)))
    else none
  match tool?.filter Tool.isTool with
  | some name => .ok (.tool name)
  | none =>
    match m.place path with
    | .found names (.file _) =>
      if m.isExecutable names then .ok (.script path) else .error .forbidden
    | .found _ .directory => .error .forbidden
    | .vacant _ => .error .missing
    | .refused .forbidden => .error .forbidden
    | .refused _ => .error .missing

def Machine.searchPaths (m : Machine) (name : String) : List String :=
  ((m.value "PATH").splitOn ":").map fun directory =>
    if directory == "" then name else directory ++ "/" ++ name

def Machine.findProgram (m : Machine) (name : String) : Except NoProgram (String × Program) :=
  if name.contains '/' then (m.programAt name).map fun program => (name, program)
  else
    let found := (m.searchPaths name).map fun path => (path, m.programAt path)
    match found.findSome? fun (path, program) => program.toOption.map fun p => (path, p) with
    | some result => .ok result
    | none =>
      .error (if name == "" || found.any fun (_, p) => p matches .error .forbidden then .forbidden
        else .missing)

end Keyforge.Shell
