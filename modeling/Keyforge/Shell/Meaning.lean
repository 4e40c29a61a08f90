import Keyforge.Shell.Builtin
import Keyforge.Shell.Tool

/-!
# What the name of a command means

A name at the front of a command can be that of a function, of a command of the shell or of a
program, in this order.
-/

namespace Keyforge.Shell

inductive Meaning where
  | keyword
  | function
  | builtin (isSpecial : Bool)
  | program (path : String)
  deriving Repr, DecidableEq

def Machine.meaning? (m : Machine) (name : String) : Option Meaning :=
  if keywords.contains name then some .keyword
  else if (Pairs.get? name m.functions).isSome then some .function
  else if Builtin.isBuiltin name then some (.builtin (specialCommands.contains name))
  else (m.findProgram name).toOption.map fun (path, _) => .program path

def Meaning.sentence (name : String) : Meaning → String
  | .keyword => name ++ " is a shell keyword"
  | .function => name ++ " is a shell function"
  | .builtin true => name ++ " is a special shell builtin"
  | .builtin false => name ++ " is a shell builtin"
  | .program path => name ++ " is " ++ path

def Meaning.word (name : String) : Meaning → String
  | .program path => path
  | _ => name

def describe (inSentence : Bool) (name : String) : Run Nat := do
  match (← get).meaning? name with
  | none =>
    if inSentence then say (name ++ ": not found\n")
    return 127
  | some meaning =>
    say ((if inSentence then meaning.sentence name else meaning.word name) ++ "\n")
    return 0

namespace Builtin

def describeAll : Builtin := fun arguments => do
  let (_, names) ← options "" arguments
  let statuses ← names.mapM (describe true)
  return statuses.foldl max 0

def describeOne : Builtin := fun arguments => do
  let (found, names) ← options "pvV" arguments
  match names, found.filter fun (c, _) => c != 'p' with
  | name :: _, (c, _) :: _ => describe (c == 'V') name
  | _, _ => return 0

end Builtin

end Keyforge.Shell
