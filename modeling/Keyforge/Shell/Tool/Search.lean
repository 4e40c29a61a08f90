import Keyforge.Shell.Tool.Texts
import Keyforge.Text.Case

/-!
# Searching and replacing

The tool that selects the lines which an expression fits, and the one that applies a script of commands
to every line. Of expressions there are those that are made of characters, each of which may be
repeated. The commands of a script replace what fits.
-/

namespace Keyforge.Shell.Tool

/-! ### Expressions -/

namespace Regex

inductive Atom where
  | char (c : Char)
  | any
  | oneOf (negated : Bool) (listed : List Pattern.Listed)
  | lineStart
  | lineEnd
  deriving Repr, DecidableEq

inductive Fault where
  | openBrackets
  | badRange
  | badKind
  | trailingBackslash
  deriving Repr, DecidableEq

def Fault.message : Fault → String
  | .openBrackets => "Unmatched [, [^, [:, [., or [="
  | .badRange => "Invalid range end"
  | .badKind => "Invalid character class name"
  | .trailingBackslash => "Trailing backslash"

end Regex

/-- Atoms, each with whether it may be repeated or left out. -/
abbrev Regex := List (Regex.Atom × Bool)

namespace Regex

def kindBehind (cs : List Char) : Except Fault (Pattern.Listed × List Char) :=
  let name := cs.takeWhile Char.isAlpha
  match cs.drop name.length with
  | ':' :: ']' :: rest =>
    let name := String.ofList name
    if (Pattern.kinds.lookup name).isSome then .ok (.kind name, rest) else .error .badKind
  | _ => .error .openBrackets

/-- What brackets list, and what stands behind them. A closing bracket in front is listed itself. -/
def listedBehind : (fuel : Nat) → (isFirst : Bool) → List Char →
    Except Fault (List Pattern.Listed × List Char)
  | 0, _, _ => .error .openBrackets
  | _ + 1, _, [] => .error .openBrackets
  | fuel + 1, isFirst, c :: rest => do
    if c == ']' && !isFirst then return ([], rest)
    let (item, rest) ← match c, rest with
      | '[', ':' :: rest => kindBehind rest
      | low, '-' :: high :: behind =>
        if high == ']' then .ok (.range low low, rest)
        else if high < low then .error .badRange
        else .ok (.range low high, behind)
      | low, rest => .ok (.range low low, rest)
    let (more, rest) ← listedBehind fuel false rest
    return (item :: more, rest)

def atomAt (isStart : Bool) : List Char → Except Fault (Atom × List Char)
  | ['\\'] => .error .trailingBackslash
  | '\\' :: c :: rest => .ok (.char c, rest)
  | '.' :: rest => .ok (.any, rest)
  | '[' :: '^' :: rest => do
    let (listed, rest) ← listedBehind (rest.length + 1) true rest
    return (.oneOf true listed, rest)
  | '[' :: rest => do
    let (listed, rest) ← listedBehind (rest.length + 1) true rest
    return (.oneOf false listed, rest)
  | '^' :: rest => .ok (if isStart then .lineStart else .char '^', rest)
  | ['$'] => .ok (.lineEnd, [])
  | c :: rest => .ok (.char c, rest)
  | [] => .ok (.lineEnd, [])

def readFrom : (fuel : Nat) → (isStart : Bool) → List Char → Except Fault Regex
  | 0, _, _ => .ok []
  | _ + 1, _, [] => .ok []
  | fuel + 1, isStart, cs => do
    match ← atomAt isStart cs with
    | (atom, '*' :: rest) =>
      if atom == .lineStart then return (atom, false) :: (.char '*', false) :: (← readFrom fuel false rest)
      else return (atom, true) :: (← readFrom fuel false rest)
    | (atom, rest) => return (atom, false) :: (← readFrom fuel false rest)

def read (text : List Char) : Except Fault Regex := readFrom (text.length + 1) true text

def ofText (text : List Char) : Regex := text.map fun c => (.char c, false)

structure Field where
  text : Array Char
  ignoresCase : Bool := false

/-- The place behind an atom that fits at a place. -/
def Field.behind? (f : Field) (place : Nat) : Atom → Option Nat
  | .lineStart => if place = 0 then some place else none
  | .lineEnd => if place = f.text.size then some place else none
  | atom => do
    let c ← f.text[place]?
    let isFit (c : Char) : Bool := match atom with
      | .char d => c == d
      | .oneOf negated listed => listed.any (·.has c) != negated
      | _ => (Text.half? c).isNone
    if isFit c || (f.ignoresCase && (isFit c.toLower || isFit c.toUpper)) then some (place + 1) else none

/-- The places up to which an expression fits behind a place. -/
def fits (f : Field) : (fuel : Nat) → Regex → (place : Nat) → List Nat
  | 0, _, _ => []
  | _ + 1, [], place => [place]
  | fuel + 1, (atom, isRepeated) :: rest, place =>
    let more := match f.behind? place atom with
      | some next => fits f fuel (if isRepeated then (atom, true) :: rest else rest) next
      | none => []
    if isRepeated then more ++ fits f fuel rest place else more

structure Found where
  first : Nat
  last : Nat
  deriving Repr, DecidableEq

/-- The first place where an expression fits, and the last one up to which it does. -/
def find? (f : Field) (r : Regex) (start : Nat := 0) : Option Found :=
  (List.range' start (f.text.size + 1 - start)).findSome? fun first =>
    ((fits f (f.text.size + r.length + 1) r first).max?).map fun last => ⟨first, last⟩

end Regex

def chars (line : List UInt8) : Array Char := (Text.decodeExact line).toList.toArray

/-! ### Selecting lines -/

def searchKnowledge : Knowledge where
  tool := "grep"
  flags := "Fivcnlqsx"
  valued := "e"

def searchMisuse : Run Nat := do
  complain "Usage: grep [OPTION]... PATTERNS [FILE]..."
  complain "Try 'grep --help' for more information."
  return 2

def searchedRegexes (isFixed : Bool) (texts : List String) : Except Regex.Fault (List Regex) :=
  (texts.flatMap fun text => Text.splitAt '\n' (gather text).toList).mapM fun line =>
    if isFixed then .ok (Regex.ofText line) else Regex.read line

/-- The numbers and texts of the lines that one of some expressions fits, or of the others. -/
def selected (chosen : Chosen) (rs : List Regex) (bytes : List UInt8) : List (List UInt8 × Nat) :=
  let whole (r : Regex) : Regex :=
    if chosen.has 'x' then (.lineStart, false) :: r ++ [(.lineEnd, false)] else r
  (linesOf bytes).zipIdx 1 |>.filter fun (line, _) =>
    let field : Regex.Field := { text := chars line, ignoresCase := chosen.has 'i' }
    (rs.any fun r => (Regex.find? field (whole r)).isSome) != chosen.has 'v'

def searchFile (chosen : Chosen) (rs : List Regex) (hasNames : Bool) (name : String)
    (bytes : List UInt8) : Run Bool := do
  let lines := selected chosen rs bytes
  let front := if hasNames then name ++ ":" else ""
  if chosen.has 'q' then pure ()
  else if chosen.has 'l' then
    if !lines.isEmpty then say (name ++ "\n")
  else if chosen.has 'c' then say (front ++ Text.natText lines.length ++ "\n")
  else if !lines.isEmpty && bytes.contains 0 then
    let _ ← flush
    grumble "grep" (name ++ ": binary file matches")
  else
    lines.forM fun (line, number) =>
      let place := if chosen.has 'n' then Text.natText number ++ ":" else ""
      say (front ++ place ++ ofOctets line ++ "\n")
  let _ ← flush
  return !lines.isEmpty

def searchWith (chosen : Chosen) (operands : List String) : Run Nat := do
  let (texts, names) := match operands, chosen.has 'e' with
    | first :: rest, false => ([first], rest)
    | _, _ => (chosen.values 'e', operands)
  if texts.isEmpty then searchMisuse
  else
    match searchedRegexes (chosen.has 'F') texts with
    | .error fault =>
      failed "grep" fault.message 2
    | .ok rs =>
      let mut isFound := false
      let mut isFailed := false
      for name in if names.isEmpty then ["-"] else names do
        let shown := if name == "-" then "(standard input)" else name
        match ← fileBytes name with
        | .ok bytes => if ← searchFile chosen rs (1 < names.length) shown bytes then isFound := true
        | .error refusal =>
          isFailed := true
          if !chosen.has 's' then grumble "grep" (shown ++ ": " ++ refusal.message)
      return if isFound && chosen.has 'q' then 0 else if isFailed then 2 else if isFound then 0 else 1

def search (chosen : Chosen) : Tool := fun arguments => do
  match searchKnowledge.chosenFrom (arguments.length + 1) arguments with
  | .ok (more, operands) => searchWith (chosen ++ more) operands
  | .error fault =>
    grumble "grep" fault.message
    searchMisuse

/-! ### Scripts that edit lines -/

namespace Edit

inductive Piece where
  | text (c : Char)
  | found
  deriving Repr, DecidableEq

structure Substitution where
  regex : Regex
  replacement : List Piece
  ignoresCase : Bool
  isGlobal : Bool
  prints : Bool

inductive Fault where
  | extraCharacters
  | openSubstitution
  | unknownOption
  | unknownCommand (c : Char)
  | regex (fault : Regex.Fault)

def mentioned (text : String) : String := graveAccent.toString ++ text ++ "'"

def Fault.message : Fault → String
  | .extraCharacters => "extra characters after command"
  | .openSubstitution => "unterminated " ++ mentioned "s" ++ " command"
  | .unknownOption => "unknown option to " ++ mentioned "s"
  | .unknownCommand c => "unknown command: " ++ mentioned c.toString
  | .regex fault => fault.message

def isSpace (c : Char) : Bool := " \t\n\x0b\x0c\r".toList.contains c

/-- The text up to a delimiter that is not behind a backslash, and what stands behind it. -/
def delimited (delimiter : Char) : List Char → Option (List Char × List Char)
  | [] => none
  | '\\' :: c :: rest =>
    let kept := if c == delimiter then [c] else if c == 'n' then ['\n'] else ['\\', c]
    (delimited delimiter rest).map fun (found, rest) => (kept ++ found, rest)
  | c :: rest =>
    if c == delimiter then some ([], rest)
    else (delimited delimiter rest).map fun (found, rest) => (c :: found, rest)

def regexOf (text : List Char) : Except Fault Regex := (Regex.read text).mapError .regex

def piecesOf : List Char → List Piece
  | [] => []
  | '\\' :: c :: rest =>
    .text (if c == 't' then '\t' else c) :: piecesOf rest
  | '&' :: rest => .found :: piecesOf rest
  | c :: rest => .text c :: piecesOf rest

def substitutionAt (cs : List Char) : Except Fault (Substitution × List Char) := do
  let delimiter := cs.headD '/'
  let some (text, rest) := delimited delimiter (cs.drop 1) | throw .openSubstitution
  let some (replacement, rest) := delimited delimiter rest | throw .openSubstitution
  let options := rest.takeWhile "gpiI".toList.contains
  let rest := rest.drop options.length
  if rest.head?.any fun c => !isSpace c && c != ';' then throw .unknownOption
  let regex ← regexOf text
  return ({ regex, replacement := piecesOf replacement, ignoresCase := options.any (·.toLower == 'i')
            isGlobal := options.contains 'g', prints := options.contains 'p' }, rest)

def commandAt : List Char → Except Fault (Substitution × List Char)
  | 's' :: rest => do
    let (s, rest) ← substitutionAt rest
    match rest.dropWhile (· == ' ') with
    | [] => return (s, [])
    | c :: rest => if c == ';' || c == '\n' then return (s, rest) else throw .extraCharacters
  | c :: _ => throw (.unknownCommand c)
  | [] => throw .openSubstitution

def commandsFrom : (fuel : Nat) → List Char → Except Fault (List Substitution)
  | 0, _ => .ok []
  | fuel + 1, cs => do
    match cs.dropWhile fun c => isSpace c || c == ';' with
    | [] => return []
    | cs =>
      let (c, rest) ← commandAt cs
      return c :: (← commandsFrom fuel rest)

/-! ### Editing lines -/

def replacedBy (text : Array Char) (found : Regex.Found) (pieces : List Piece) : List Char :=
  pieces.flatMap fun
    | .text c => [c]
    | .found => (text.extract found.first found.last).toList

/-- The text behind a place with what is found there replaced, and whether anything was. Nothing is
found again right behind a find. -/
def Substitution.replaceFrom (s : Substitution) (f : Regex.Field) : (fuel place : Nat) →
    (behind? : Option Nat) → List Char × Bool
  | 0, place, _ => ((f.text.extract place f.text.size).toList, false)
  | fuel + 1, place, behind? =>
    let upTo (first last : Nat) : List Char := (f.text.extract first last).toList
    match Regex.find? f s.regex place with
    | none => (upTo place f.text.size, false)
    | some found =>
      let isEmpty := found.first = found.last
      let isSkipped := isEmpty && behind? == some found.first
      let put := if isSkipped then [] else replacedBy f.text found s.replacement
      let next := if isEmpty then found.last + 1 else found.last
      let before := upTo place found.first ++ put
      if !isSkipped && !s.isGlobal then (before ++ upTo found.last f.text.size, true)
      else if f.text.size < next then (before, !isSkipped)
      else
        let (rest, isDone) := s.replaceFrom f fuel next (if isEmpty then none else some found.last)
        (before ++ upTo found.last next ++ rest, !isSkipped || isDone)

/-- What a line has become, and what was printed before. -/
def Substitution.apply (st : List Char × List (List Char)) (s : Substitution) :
    List Char × List (List Char) :=
  let f : Regex.Field := { text := st.1.toArray, ignoresCase := s.ignoresCase }
  let (text, isDone) := s.replaceFrom f (2 * f.text.size + 2) 0 none
  if isDone then (text, if s.prints then text :: st.2 else st.2) else st

/-- What is written for a line. -/
def editedLine (commands : List Substitution) (isQuiet : Bool) (line : List Char) : List (List Char) :=
  let (text, printed) := commands.foldl Substitution.apply (line, [])
  (if isQuiet then printed else text :: printed).reverse

end Edit

def editKnowledge : Knowledge where
  tool := "sed"
  flags := "n"
  valued := "e"

def edit : Tool := fun arguments => editKnowledge.run arguments fun chosen operands => do
  let (scripts, names) := match operands, chosen.has 'e' with
    | first :: rest, false => ([first], rest)
    | _, _ => (chosen.values 'e', operands)
  let script := (gather (String.intercalate "\n" scripts)).toList
  if scripts.isEmpty then
    complain "Usage: sed [OPTION]... \x7bscript-only-if-no-other-script\x7d [input-file]..."
    return 1
  match Edit.commandsFrom (script.length + 1) script with
  | .error fault =>
    failed "sed" ("-e expression #1, char " ++ Text.natText script.length ++ ": " ++
      spread fault.message)
  | .ok commands =>
    let (bytes, status) ← inputOf "sed" 2 "can't read " "" names
    let lines := (linesOf bytes).map fun line => (chars line).toList
    let edited := lines.map (Edit.editedLine commands (chosen.has 'n'))
    say (String.intercalate "\n" (edited.flatten.map fun line => spread (String.ofList line)))
    -- only what is written for the last line may lack an end, as that line does
    if !edited.flatten.isEmpty && ((edited.getLastD []).isEmpty || bytes.getLast? == some 10) then say "\n"
    return status

end Keyforge.Shell.Tool
