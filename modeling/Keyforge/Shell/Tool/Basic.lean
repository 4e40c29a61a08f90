import Keyforge.Shell.Arithmetic
import Keyforge.Shell.Machine
import Keyforge.Shell.Word

/-!
# Tools

Programs that are not part of the shell. A tool gets its arguments, reads and writes behind the
descriptors, and ends with a status, zero for success.
-/

namespace Keyforge.Shell

abbrev Tool := List String → Run Nat

namespace Tool

def grumble (tool text : String) : Run Unit := complain (tool ++ ": " ++ spread text)

def failed (tool text : String) (status : Nat := 1) : Run Nat := do
  grumble tool text
  return status

def misuse (tool text : String) (status : Nat := 1) : Run Nat := do
  grumble tool text
  complain ("Try '" ++ tool ++ " --help' for more information.")
  return status

/-! ### Names in messages -/

def marked (name : String) : String := "'" ++ gather name ++ "'"

def curled (name : String) : String := "‘" ++ gather name ++ "’"

/-! ### Options -/

structure Knowledge where
  tool : String
  flags : String := ""
  valued : String := ""
  status : Nat := 1

inductive Misuse where
  | unknown (letter : Char)
  | unknownLong (option : String)
  | valueMissing (letter : Char)
  deriving Repr, DecidableEq

def Misuse.message : Misuse → String
  | .unknown letter => "invalid option -- '" ++ letter.toString ++ "'"
  | .unknownLong option => "unrecognized option '" ++ gather option ++ "'"
  | .valueMissing letter => "option requires an argument -- '" ++ letter.toString ++ "'"

abbrev Chosen := List (Char × String)

def Chosen.has (chosen : Chosen) (letter : Char) : Bool := chosen.any fun (c, _) => c == letter

def Chosen.values (chosen : Chosen) (letter : Char) : List String :=
  (chosen.filter fun (c, _) => c == letter).map (·.2)

def Knowledge.letters (k : Knowledge) : List Char → List String → Except Misuse (Chosen × List String)
  | [], rest => .ok ([], rest)
  | c :: cs, rest =>
    if k.valued.toList.contains c then
      match cs, rest with
      | [], value :: rest => .ok ([(c, value)], rest)
      | [], [] => .error (.valueMissing c)
      | cs, rest => .ok ([(c, String.ofList cs)], rest)
    else if k.flags.toList.contains c then
      (k.letters cs rest).map fun (more, rest) => ((c, "") :: more, rest)
    else .error (.unknown c)

def Knowledge.chosenFrom (k : Knowledge) : (fuel : Nat) → List String →
    Except Misuse (Chosen × List String)
  | 0, arguments => .ok ([], arguments)
  | _ + 1, [] => .ok ([], [])
  | fuel + 1, a :: rest => do
    match a.toList with
    | ['-', '-'] => return ([], rest)
    | '-' :: '-' :: _ => throw (.unknownLong a)
    | '-' :: c :: cs =>
      let (found, rest) ← k.letters (c :: cs) rest
      let (more, others) ← k.chosenFrom fuel rest
      return (found ++ more, others)
    | _ =>
      let (found, others) ← k.chosenFrom fuel rest
      return (found, a :: others)

def Knowledge.run (k : Knowledge) (arguments : List String)
    (body : Chosen → List String → Run Nat) : Run Nat :=
  match k.chosenFrom (arguments.length + 1) arguments with
  | .ok (chosen, others) => body chosen others
  | .error fault => misuse k.tool fault.message k.status

/-! ### Files -/

def forEach {α : Type} (f : α → Run Nat) : List α → Run Nat
  | [] => return 0
  | a :: rest => do
    let status ← f a
    return max status (← forEach f rest)

def fileBytes (name : String) : Run (Except File.Refusal (List UInt8)) := do
  if name == "-" || name == "/dev/stdin" then return .ok (← readAll 0)
  else
    let m ← get
    match m.place name with
    | .found names (.file _) => return .ok (if isInTree names then m.content names else [])
    | .found _ .directory => return .error .isDirectory
    | .vacant _ => return .error .missing
    | .refused refusal => return .error refusal

/-- The bytes of the files with some names one after the other, or of the input if there are none. A
file that cannot be read is complained about and left out. -/
def inputOf (tool : String) (status : Nat) (front behind : String) (names : List String) :
    Run (List UInt8 × Nat) := do
  let mut all : List UInt8 := []
  let mut result := 0
  for name in if names.isEmpty then ["-"] else names do
    match ← fileBytes name with
    | .ok bytes => all := all ++ bytes
    | .error refusal =>
      grumble tool (front ++ name ++ behind ++ ": " ++ refusal.message)
      result := status
  return (all, result)

def linesOf (bytes : List UInt8) : List (List UInt8) :=
  let pieces := bytes.splitOn 10
  if bytes.getLast? == some 10 || bytes.isEmpty then pieces.dropLast else pieces

def sayBytes (bytes : List UInt8) : Run Unit := say (ofOctets bytes)

def sayLines (lines : List (List UInt8)) : Run Unit := sayBytes (lines.flatMap (· ++ [10]))

end Tool

end Keyforge.Shell
