import Keyforge.Shell.Command
import Keyforge.Text.Lines

/-!
# Sources of scripts

The text of a script while it is read. Readers take characters from its front and know the line they
are in. A backslash at the end of a line joins it with the next one.
-/

namespace Keyforge.Shell

/-! ### Errors -/

inductive SyntaxFault where
  | unexpected (what : String) (expected? : Option String)
  | openQuote
  | openBrace
  | openExpression
  | openGraveAccent
  | loopVariable
  | functionName
  | descriptor
  deriving Repr, DecidableEq

def SyntaxFault.message : SyntaxFault → String
  | .unexpected what none => what ++ " unexpected"
  | .unexpected what (some expected) => what ++ " unexpected (expecting " ++ expected ++ ")"
  | .openQuote => "Unterminated quoted string"
  | .openBrace => "Missing '\x7d'"
  | .openExpression => "Missing '))'"
  | .openGraveAccent => "EOF in backquote substitution"
  | .loopVariable => "Bad for loop variable"
  | .functionName => "Bad function name"
  | .descriptor => "Bad fd number"

/-- Why a script cannot be read, and the line in which that shows. -/
structure SyntaxError where
  fault : SyntaxFault
  line : Nat
  deriving Repr, DecidableEq

def SyntaxError.message (e : SyntaxError) : String := "Syntax error: " ++ e.fault.message

/-! ### Tokens -/

inductive Arrow where
  | direction (d : Direction)
  | document (stripsTabs : Bool)
  deriving Repr, DecidableEq

inductive Token where
  | word (w : Word)
  | keyword (text : String)
  | operator (symbol : String)
  | newline
  | arrow (descriptor : Nat) (arrow : Arrow)
  | finish

def Token.name : Token → String
  | .word _ => "word"
  | .keyword text | .operator text => "\"" ++ text ++ "\""
  | .newline => "newline"
  | .arrow _ _ => "redirection"
  | .finish => "end of file"

/-! ### Sources -/

structure Awaited where
  number : Nat
  delimiter : List Char
  stripsTabs : Bool
  isPlain : Bool

structure Source where
  chars : List Char
  line : Nat := 1
  awaited : List Awaited := []
  documents : List (Nat × Word) := []
  nextDocument : Nat := 0
  pushed? : Option Token := none

abbrev Reader := StateT Source (Except SyntaxError)

def fail {α : Type} (fault : SyntaxFault) : Reader α := do throw ⟨fault, (← get).line⟩

def skipJoints : List Char → List Char × Nat
  | '\\' :: '\n' :: rest =>
    let (rest, n) := skipJoints rest
    (rest, n + 1)
  | cs => (cs, 0)

def rawChar? : Reader (Option Char) := do
  let s ← get
  match s.chars with
  | [] => return none
  | c :: rest =>
    set { s with chars := rest, line := if c == '\n' then s.line + 1 else s.line }
    return some c

def peekChar? : Reader (Option Char) := do
  let s ← get
  let (cs, joints) := skipJoints s.chars
  set { s with chars := cs, line := s.line + joints }
  return cs.head?

def nextChar? : Reader (Option Char) := do
  let _ ← peekChar?
  rawChar?

def takeChar (c : Char) : Reader Bool := do
  if (← peekChar?) == some c then
    let _ ← rawChar?
    return true
  else return false

def takeCharsFrom (p : Char → Bool) : (fuel : Nat) → Reader (List Char)
  | 0 => return []
  | fuel + 1 => do
    match ← peekChar? with
    | some c =>
      if p c then
        let _ ← rawChar?
        return c :: (← takeCharsFrom p fuel)
      else return []
    | none => return []

def takeChars (p : Char → Bool) : Reader (List Char) := do
  takeCharsFrom p (← get).chars.length

def takeUpTo? (stop : Char) : Reader (Option (List Char)) := do
  let s ← get
  match s.chars.dropWhile (· != stop) with
  | [] => return none
  | _ :: rest =>
    let inner := s.chars.takeWhile (· != stop)
    set { s with chars := rest, line := s.line + inner.count '\n' + (if stop == '\n' then 1 else 0) }
    return some inner

def pushBack (t : Token) : Reader Unit := modify fun s => { s with pushed? := some t }

def reading {α : Type} (chars : List Char) (line : Nat) (body : Reader α) : Reader α := do
  let outer ← get
  set { outer with chars, line, pushed? := none }
  let result ← body
  modify fun s =>
    { s with chars := outer.chars, line := outer.line, pushed? := outer.pushed? }
  return result

end Keyforge.Shell
