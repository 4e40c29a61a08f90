import Keyforge.Text.CodePoint
import Keyforge.Time.Calendar

/-!
# Reading positions in YAML text

A cursor is a place in a text together with its line and column, both counted from zero. Lines end
at the usual line ends and at the separators of Unicode; a byte order mark takes no column.
-/

namespace Keyforge.Yaml

inductive LoadError where
  /-- The text is no YAML, or uses a feature no value is made for. The line is that of the problem,
  if there is a definite one. -/
  | malformed (problem : String) (line : Option Nat)
  | unreadable (message : String)
  | noStamp
  | stampMapping
  | noFlag (word : String)
  | emptyNumber
  | hugeCode
  | hugeScale
  | tooDeep
  deriving Repr, DecidableEq

def isBreak (c : Char) : Bool :=
  c == '\n' || c == '\r' || c == '\x85' || c == '\u2028' || c == '\u2029'

def endMark : Char := '\x00'

def endsLine (c : Char) : Bool := c == endMark || isBreak c

def endsWord (c : Char) : Bool := c == ' ' || endsLine c

def isGap (c : Char) : Bool := c == '\t' || endsWord c

/-- A place in a text: what is left of it, and where that starts. -/
structure Cursor where
  rest : List Char
  index : Nat := 0
  line : Nat := 0
  column : Nat := 0
  deriving Repr

namespace Cursor

def peek (c : Cursor) (k : Nat := 0) : Char := c.rest.getD k endMark

def next (c : Cursor) : Cursor :=
  match c.rest with
  | [] => c
  | ch :: rest =>
    if isBreak ch && !(ch == '\r' && rest.head? == some '\n') then
      ⟨rest, c.index + 1, c.line + 1, 0⟩
    else if ch == Text.mark then ⟨rest, c.index, c.line, c.column⟩
    else if ch == '\ufeff' then ⟨rest, c.index + 1, c.line, c.column⟩
    else ⟨rest, c.index + 1, c.line, c.column + 1⟩

def advance : Nat → Cursor → Cursor
  | 0, c => c
  | n + 1, c => advance n c.next

def takeWhile (c : Cursor) (p : Char → Bool) : List Char × Cursor :=
  let found := c.rest.takeWhile p
  (found, c.advance found.length)

def skipWhile (c : Cursor) (p : Char → Bool) : Cursor := (c.takeWhile p).2

def skipSpaces (c : Cursor) : Cursor := c.skipWhile (· == ' ')

def skipComment (c : Cursor) : Cursor :=
  if c.peek == '#' then c.skipWhile (fun ch => !endsLine ch) else c

def lineBreak? (c : Cursor) : Option (Char × Cursor) :=
  match c.rest with
  | '\r' :: '\n' :: _ => some ('\n', c.advance 2)
  | ch :: _ =>
    if ch == '\u2028' || ch == '\u2029' then some (ch, c.next)
    else if isBreak ch then some ('\n', c.next)
    else none
  | [] => none

def atDocumentMark (c : Cursor) (mark : Char) : Bool :=
  c.peek == mark && c.peek 1 == mark && c.peek 2 == mark && isGap (c.peek 3)

def atSeparator (c : Cursor) : Bool := c.atDocumentMark '-' || c.atDocumentMark '.'

def fail (c : Cursor) (problem : String) : Except LoadError α :=
  .error (.malformed problem (some c.line))

end Cursor

def isAllowed (n : Nat) : Bool :=
  n == 0x09 || n == 0x0a || n == 0x0d || (0x20 ≤ n && n ≤ 0x7e) || n == 0x85 ||
    (0xa0 ≤ n && n ≤ 0xfffd && !Text.isHalf n) || 0x10000 ≤ n

/-!
## Tokens of YAML

A text is cut into tokens: indicators, the starts and ends of blocks that indentation implies, and
scalars. A token knows the line it starts on.
-/

inductive Scalar where
  | plain
  | quoted
  | block
  deriving Repr, DecidableEq

inductive Mark where
  | streamStart
  | streamEnd
  | version (major minor : Nat)
  | tagPrefix (handle expansion : String)
  | otherDirective
  | documentStart
  | documentEnd
  | blockListStart
  | blockMapStart
  | blockEnd
  | listStart
  | listEnd
  | mapStart
  | mapEnd
  | key
  | value
  | blockEntry
  | flowEntry
  | alias (name : String)
  | anchor (name : String)
  | tag (handle : Option String) (suffix : String)
  | scalar (text : String) (style : Scalar)
  deriving Repr, DecidableEq

structure Token where
  mark : Mark
  line : Nat
  deriving Repr, DecidableEq

end Keyforge.Yaml
