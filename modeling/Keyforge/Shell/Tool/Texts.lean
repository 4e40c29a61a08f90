import Keyforge.Shell.Format
import Keyforge.Shell.Pattern
import Keyforge.Shell.Tool.Files

/-!
# Tools for texts

Tools that write their arguments or the contents of files, select, count and order lines. Most of them take their text from files, or from the input if no file is named.
-/

namespace Keyforge.Shell.Tool

/-! ### Arguments -/

def echo : Tool := fun arguments => do
  let (lineEnd, arguments) := match arguments with
    | "-n" :: rest => ("", rest)
    | rest => ("\n", rest)
  say (String.intercalate " " arguments ++ lineEnd)
  return 0

def printFormatted : Tool := fun arguments => do
  match arguments with
  | [] => misuse "printf" "missing operand"
  | format :: rest =>
    let outcome := Format.render format rest
    outcome.complaints.forM fun c => complain ("printf: " ++ c)
    say outcome.text
    match outcome.refusal? with
    | some why =>
      complain ("printf: " ++ why)
      return 1
    | none => return if outcome.complaints.isEmpty then 0 else 1

/-! ### Files -/

def concatenate : Tool := fun arguments =>
  let k : Knowledge := { tool := "cat", flags := "u" }
  k.run arguments fun _ names => forEach (fun name => do
    let (bytes, status) ← inputOf "cat" 1 "" "" [name]
    sayBytes bytes
    let _ ← flush
    return status) (if names.isEmpty then ["-"] else names)

/-! ### Time -/

/-- Whether a time, a decimal number with a unit or without, is more than none. -/
def pauses? (argument : String) : Option Bool :=
  let cs := argument.toList
  let cs := if "smhd".toList.contains (cs.getLastD ' ') then cs.dropLast else cs
  if !cs.any Char.isDigit || !cs.all (fun c => c.isDigit || c == '.') || 1 < cs.count '.' then none
  else some (cs.any fun c => c != '0' && c != '.')

def sleep : Tool := fun arguments =>
  let k : Knowledge := { tool := "sleep", flags := "" }
  k.run arguments fun _ arguments => do
    if arguments.isEmpty then misuse "sleep" "missing operand"
    else
      let bad := arguments.filter fun a => (pauses? a).isNone
      if !bad.isEmpty then
        bad.forM fun a => grumble "sleep" ("invalid time interval " ++ curled a)
        complain "Try 'sleep --help' for more information."
        return 1
      else
        if arguments.any fun a => pauses? a == some true then
          modify fun m =>
            if m.aside?.isSome then { m with hasPaused := true }
            else { m with paused? := some (m.paused?.getD m.tree) }
        return 0

/-! ### Selecting -/

def withCountOption : List String → List String
  | a :: rest =>
    match a.toList with
    | '-' :: d :: ds => if d.isDigit then ("-n" ++ String.ofList (d :: ds)) :: rest else a :: rest
    | _ => a :: rest
  | [] => []

def cutLines (bytes : List UInt8) : List (List UInt8) :=
  let lines := linesOf bytes
  let isWhole := bytes.getLast? == some 10
  lines.mapIdx fun n line => if isWhole || n + 1 < lines.length then line ++ [10] else line

/-- A tool that writes some of the lines or bytes of its input, by a count in front of which there may
be a sign. -/
def portionTool (tool : String) (sign : Char)
    (choose : {α : Type} → (hasSign : Bool) → Nat → List α → List α) : Tool := fun arguments =>
  let k : Knowledge := { tool, valued := "nc" }
  k.run (withCountOption arguments) fun chosen names => do
    let (letter, text) := chosen.getLastD ('n', "10")
    let digits := text.toList.dropWhile (· == sign)
    if digits.isEmpty || !digits.all Char.isDigit then
      return ← failed tool ("invalid number of " ++ (if letter == 'c' then "bytes" else "lines") ++
        ": " ++ curled text)
    let (bytes, status) ← inputOf tool 1 "cannot open '" "' for reading" names
    let hasSign := digits.length < text.length
    let n := Text.natOfDigits digits
    let shown := if letter == 'c' then choose hasSign n bytes
      else (choose hasSign n (cutLines bytes)).flatten
    sayBytes shown
    if tool == "head" && names.isEmpty then unread 0 (bytes.length - shown.length)
    return status

def head : Tool := portionTool "head" '-' fun hasSign n items =>
  items.take (if hasSign then items.length - n else n)

def tail : Tool := portionTool "tail" '+' fun hasSign n items =>
  items.drop (if hasSign then n - 1 else items.length - n)

/-! ### Counting -/

def wordCount (bytes : List UInt8) : Nat :=
  let isBlank (b : UInt8) := b == 32 || (9 ≤ b && b ≤ 13)
  ((bytes.splitBy fun a b => isBlank a == isBlank b).filter fun w => !w.all isBlank).length

def measures : List (Char × (List UInt8 → Nat)) :=
  [('l', fun bytes => bytes.count 10), ('w', wordCount), ('c', List.length)]

def count : Tool := fun arguments =>
  let k : Knowledge := { tool := "wc", flags := "lwc" }
  k.run arguments fun chosen names => do
    let (bytes, status) ← inputOf "wc" 1 "" "" names
    let shown := (measures.filter fun (c, _) => chosen.isEmpty || chosen.has c).map fun (_, f) => f bytes
    let size := if shown.length == 1 then 1
      else max (if names.isEmpty then 7 else 1) (Text.natText bytes.length).length
    let cells := shown.map fun n => ({ width := size } : Format.Conversion).fill (Text.natText n)
    if status == 0 then say (String.intercalate " " (cells ++ names) ++ "\n")
    return status

/-! ### Ordering -/

def leadingNumber (line : List UInt8) : Int :=
  match (ofOctets line).toList.dropWhile fun c => c == ' ' || c == '\t' with
  | '-' :: ds => -(Text.natOfDigits (ds.takeWhile Char.isDigit) : Int)
  | ds => Text.natOfDigits (ds.takeWhile Char.isDigit)

def bytesAtMost (a b : List UInt8) : Bool :=
  File.Tree.textAtMost (ofOctets a).toList (ofOctets b).toList

def sort : Tool := fun arguments =>
  let k : Knowledge := { tool := "sort", flags := "rnu", status := 2 }
  k.run arguments fun chosen names => do
    let (bytes, status) ← inputOf "sort" 2 "cannot read: " "" names
    let isNumeric := chosen.has 'n'
    let atMost (a b : List UInt8) : Bool :=
      if isNumeric && leadingNumber a != leadingNumber b then
        decide (leadingNumber a < leadingNumber b)
      else bytesAtMost a b
    let ordered := (linesOf bytes).mergeSort atMost
    let ordered := if chosen.has 'r' then ordered.reverse else ordered
    let isSame (a b : List UInt8) : Bool :=
      if isNumeric then leadingNumber a == leadingNumber b else a == b
    if status == 0 then
      sayLines (if chosen.has 'u' then (ordered.splitBy isSame).filterMap List.head? else ordered)
    return status

end Keyforge.Shell.Tool
