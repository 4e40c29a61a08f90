import Keyforge.Yaml.Token.Property
import Keyforge.Yaml.Token.Scalar

/-!
# The token stream of YAML

Tokens are made one step at a time, as they are asked for. Indentation opens and closes blocks.
-/

namespace Keyforge.Yaml

/-- A token that may turn out to be a key: its number, whether its place demands that it is one, and
where it stands. -/
structure Candidate where
  number : Nat
  required : Bool
  index : Nat
  line : Nat
  column : Nat
  deriving Repr

structure Stream where
  cursor : Cursor
  done : Bool := false
  depth : Nat := 0
  queue : List Token := [⟨.streamStart, 0⟩]
  taken : Nat := 0
  /-- Column of the innermost block, -1 outside of all. -/
  indent : Int := -1
  indents : List Int := []
  keyAllowed : Bool := true
  candidates : List (Nat × Candidate) := []
  deriving Repr

namespace Stream

def push (s : Stream) (mark : Mark) : Stream :=
  { s with queue := s.queue ++ [⟨mark, s.cursor.line⟩] }

def dropCandidate (s : Stream) : Except LoadError Stream :=
  match s.candidates.lookup s.depth with
  | none => .ok s
  | some key =>
    if key.required then s.cursor.fail "could not find expected ':'"
    else .ok { s with candidates := s.candidates.filter fun (depth, _) => depth != s.depth }

def dropStale (s : Stream) : Except LoadError Stream :=
  let stale (key : Candidate) : Bool :=
    key.line != s.cursor.line || 1024 < s.cursor.index - key.index
  if s.candidates.any fun (_, key) => stale key && key.required then
    s.cursor.fail "could not find expected ':'"
  else .ok { s with candidates := s.candidates.filter fun (_, key) => !stale key }

def saveCandidate (s : Stream) : Except LoadError Stream := do
  if s.keyAllowed then
    let required := s.depth == 0 && s.indent == (s.cursor.column : Int)
    let s ← s.dropCandidate
    let key : Candidate :=
      ⟨s.taken + s.queue.length, required, s.cursor.index, s.cursor.line, s.cursor.column⟩
    return { s with candidates := s.candidates ++ [(s.depth, key)] }
  else return s

def closeBlocks (s : Stream) (column : Int) : Stream :=
  if s.depth != 0 then s
  else
    let rec close (s : Stream) : List Int → Stream
      | [] => s
      | outer :: indents =>
        if column < s.indent then
          close { s.push .blockEnd with indent := outer, indents := indents } indents
        else s
    close s s.indents

def openBlock (s : Stream) (column : Int) : Option Stream :=
  if s.indent < column then some { s with indent := column, indents := s.indent :: s.indents }
  else none

def indicator (s : Stream) (mark : Mark) (length : Nat := 1) : Stream :=
  let s := s.push mark
  { s with cursor := s.cursor.advance length }

def finish (s : Stream) : Except LoadError Stream := do
  let s ← (s.closeBlocks (-1)).dropCandidate
  return { s.push .streamEnd with keyAllowed := false, candidates := [], done := true }

def takeDirective (s : Stream) : Except LoadError Stream := do
  let s ← (s.closeBlocks (-1)).dropCandidate
  let (token, cursor) ← directive s.cursor
  return { s with queue := s.queue ++ [token], cursor, keyAllowed := false }

def takeDocumentMark (s : Stream) (mark : Mark) : Except LoadError Stream := do
  let s ← (s.closeBlocks (-1)).dropCandidate
  return { s.indicator mark 3 with keyAllowed := false }

def takeOpening (s : Stream) (mark : Mark) : Except LoadError Stream := do
  let s ← s.saveCandidate
  return { s.indicator mark with depth := s.depth + 1, keyAllowed := true }

def takeClosing (s : Stream) (mark : Mark) : Except LoadError Stream := do
  let s ← s.dropCandidate
  return { s.indicator mark with depth := s.depth - 1, keyAllowed := false }

def takeComma (s : Stream) : Except LoadError Stream := do
  let s ← { s with keyAllowed := true }.dropCandidate
  return s.indicator .flowEntry

def takeBlockIndicator (s : Stream) (start mark : Mark) (keyAllowed : Bool) :
    Except LoadError Stream := do
  let s ←
    if s.depth != 0 then pure s
    else if !s.keyAllowed then s.cursor.fail "entries are not allowed here"
    else
      match s.openBlock s.cursor.column with
      | some s => pure (s.push start)
      | none => pure s
  let s ← { s with keyAllowed }.dropCandidate
  return s.indicator mark

def insertTokens (s : Stream) (number : Nat) (tokens : List Token) : Stream :=
  let place := number - s.taken
  { s with queue := s.queue.take place ++ tokens ++ s.queue.drop place }

def takeColon (s : Stream) : Except LoadError Stream := do
  match s.candidates.lookup s.depth with
  | some key =>
    let s := { s with
      candidates := s.candidates.filter (fun (depth, _) => depth != s.depth), keyAllowed := false }
    let opened := if s.depth == 0 then s.openBlock key.column else none
    let s :=
      match opened with
      | some s => s.insertTokens key.number [⟨.blockMapStart, key.line⟩, ⟨.key, key.line⟩]
      | none => s.insertTokens key.number [⟨.key, key.line⟩]
    return s.indicator .value
  | none =>
    let s ←
      if s.depth != 0 then pure s
      else if !s.keyAllowed then s.cursor.fail "mapping values are not allowed here"
      else
        match s.openBlock s.cursor.column with
        | some s => pure (s.push .blockMapStart)
        | none => pure s
    let s ← { s with keyAllowed := s.depth == 0 }.dropCandidate
    return s.indicator .value

def takeContent (s : Stream) (read : Cursor → Except LoadError (Token × Cursor)) :
    Except LoadError Stream := do
  let s ← s.saveCandidate
  let (token, cursor) ← read s.cursor
  return { s with queue := s.queue ++ [token], cursor, keyAllowed := false }

def takeBlockScalar (s : Stream) : Except LoadError Stream := do
  let s ← { s with keyAllowed := true }.dropCandidate
  let (token, cursor) ← blockScalar s.indent s.cursor
  return { s with queue := s.queue ++ [token], cursor }

def takePlain (s : Stream) : Except LoadError Stream := do
  let s ← s.saveCandidate
  let (token, cursor, broke) := plainScalar (s.depth != 0) s.indent s.cursor
  return { s with queue := s.queue ++ [token], cursor, keyAllowed := broke }

def startsPlain (s : Stream) : Bool :=
  let ch := s.cursor.peek
  let indicators := ['-', '?', ':', ',', '[', ']', '\x7b', '\x7d', '#', '&', '*', '!', '|', '>',
    '\'', '"', '%', '@', Char.ofNat 0x60]
  !(isGap ch || indicators.contains ch) ||
    (!isGap (s.cursor.peek 1) && (ch == '-' || (s.depth == 0 && (ch == '?' || ch == ':'))))

def skipToToken : Nat → Cursor → Bool → Cursor × Bool
  | 0, c, broke => (c, broke)
  | fuel + 1, c, broke =>
    let c := c.skipSpaces.skipComment
    match c.lineBreak? with
    | some (_, c) => skipToToken fuel c true
    | none => (c, broke)

def step (s : Stream) : Except LoadError Stream := do
  let start := if s.cursor.index == 0 && s.cursor.peek == '\ufeff' then s.cursor.next else s.cursor
  let (cursor, broke) := skipToToken (start.rest.length + 1) start false
  let s ← { s with cursor, keyAllowed := s.keyAllowed || (broke && s.depth == 0) }.dropStale
  let s := s.closeBlocks s.cursor.column
  let ch := s.cursor.peek
  let atLineStart := s.cursor.column == 0
  let gapAhead := isGap (s.cursor.peek 1)
  if s.cursor.rest.isEmpty then s.finish
  else if ch == '%' && atLineStart then s.takeDirective
  else if atLineStart && s.cursor.atDocumentMark '-' then s.takeDocumentMark .documentStart
  else if atLineStart && s.cursor.atDocumentMark '.' then s.takeDocumentMark .documentEnd
  else if ch == '[' then s.takeOpening .listStart
  else if ch == '\x7b' then s.takeOpening .mapStart
  else if ch == ']' then s.takeClosing .listEnd
  else if ch == '\x7d' then s.takeClosing .mapEnd
  else if ch == ',' then s.takeComma
  else if ch == '-' && gapAhead then s.takeBlockIndicator .blockListStart .blockEntry true
  else if ch == '?' && (s.depth != 0 || gapAhead) then
    s.takeBlockIndicator .blockMapStart .key (s.depth == 0)
  else if ch == ':' && (s.depth != 0 || gapAhead) then s.takeColon
  else if ch == '*' then s.takeContent (reference .alias)
  else if ch == '&' then s.takeContent (reference .anchor)
  else if ch == '!' then s.takeContent tag
  else if (ch == '|' || ch == '>') && s.depth == 0 then s.takeBlockScalar
  else if ch == '\'' || ch == '"' then s.takeContent quotedScalar
  else if s.startsPlain then s.takePlain
  else s.cursor.fail "found character that cannot start any token"

def needsMore (s : Stream) : Bool :=
  !s.done && (s.queue.isEmpty || s.candidates.any fun (_, key) => key.number == s.taken)

def settle : Nat → Stream → Except LoadError Stream
  | 0, s => .ok s
  | fuel + 1, s => do
    if s.done then return s
    else
      let s ← if s.queue.isEmpty then pure s else s.dropStale
      if s.needsMore then
        let s ← s.step
        settle fuel s
      else return s

def peek (s : Stream) : Except LoadError (Token × Stream) := do
  let s ← settle (s.cursor.rest.length + 2) s
  match s.queue with
  | token :: _ => return (token, s)
  | [] => s.cursor.fail "no more tokens"

def drop (s : Stream) : Stream := { s with queue := s.queue.drop 1, taken := s.taken + 1 }

end Stream

end Keyforge.Yaml
