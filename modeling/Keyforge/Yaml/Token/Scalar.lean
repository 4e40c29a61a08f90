import Keyforge.Json.Reader
import Keyforge.Yaml.Cursor

/-!
# Scalars of YAML

The four forms in which a piece of text can be written: plain, in single quotes, in double quotes
with escapes, and as a block of lines.
-/

namespace Keyforge.Yaml

/-! ### Folding -/

def foldBreak (first : Char) (others : List Char) : List Char :=
  if first != '\n' then first :: others
  else if others.isEmpty then [' ']
  else others

/-! ### Quoted scalars -/

def quotedBreaks : Nat → Cursor → Except LoadError (List Char × Cursor)
  | 0, c => c.fail "unfinished quoted scalar"
  | fuel + 1, c =>
    if c.atSeparator then c.fail "found unexpected document separator"
    else
      let c := c.skipWhile (fun ch => ch == ' ' || ch == '\t')
      match c.lineBreak? with
      | some (ch, c) => do
        let (others, c) ← quotedBreaks fuel c
        return (ch :: others, c)
      | none => .ok ([], c)

def escapedChar? (c : Char) : Option Char :=
  [('0', '\x00'), ('a', '\x07'), ('b', '\x08'), ('t', '\t'), ('\t', '\t'), ('n', '\n'),
    ('v', '\x0b'), ('f', '\x0c'), ('r', '\r'), ('e', '\x1b'), (' ', ' '), ('"', '"'),
    ('\\', '\\'), ('/', '/'), ('N', '\x85'), ('_', '\xa0'), ('L', '\u2028'),
    ('P', '\u2029')].lookup c

def escapeWidth? (c : Char) : Option Nat := [('x', 2), ('u', 4), ('U', 8)].lookup c

def escape (c : Cursor) : Except LoadError (List Char × Cursor) :=
  match escapedChar? c.peek with
  | some ch => .ok ([ch], c.next)
  | none =>
    match escapeWidth? c.peek with
    | some width =>
      let c := c.next
      let digits := c.rest.take width
      match (if digits.length = width then Json.hexNumber? digits else none) with
      | none => c.fail "expected hexadecimal digits in an escape"
      | some code =>
        if 0x7fffffff < code then .error .hugeCode
        else if 0x10ffff < code then .error (.unreadable "chr() arg not in range(0x110000)")
        else .ok (Text.ofCode code, c.advance width)
    | none =>
      match c.lineBreak? with
      | some (_, c) => quotedBreaks (c.rest.length + 1) c
      | none => c.fail "found unknown escape character"

def quotedText (quote : Char) : Nat → Cursor → Except LoadError (List Char × Cursor)
  | 0, c => .ok ([], c)
  | fuel + 1, c => do
    let (run, c) := c.takeWhile fun ch =>
      !(ch == '\'' || ch == '"' || ch == '\\' || isGap ch)
    let double := quote == '"'
    let ch := c.peek
    if !double && ch == '\'' && c.peek 1 == '\'' then
      let (more, c) ← quotedText quote fuel (c.advance 2)
      return (run ++ '\'' :: more, c)
    else if (double && ch == '\'') || (!double && (ch == '"' || ch == '\\')) then
      let (more, c) ← quotedText quote fuel c.next
      return (run ++ ch :: more, c)
    else if double && ch == '\\' then
      let (escaped, c) ← escape c.next
      let (more, c) ← quotedText quote fuel c
      return (run ++ escaped ++ more, c)
    else return (run, c)

def quotedSpaces (c : Cursor) : Except LoadError (List Char × Cursor) := do
  let (blanks, c) := c.takeWhile (fun ch => ch == ' ' || ch == '\t')
  if c.rest.isEmpty then c.fail "found unexpected end of stream"
  else
    match c.lineBreak? with
    | some (first, c) =>
      let (others, c) ← quotedBreaks (c.rest.length + 1) c
      return (foldBreak first others, c)
    | none => return (blanks, c)

def quotedRest (quote : Char) : Nat → Cursor → Except LoadError (List Char × Cursor)
  | 0, c => c.fail "found unexpected end of stream"
  | fuel + 1, c => do
    if c.peek == quote then return ([], c.next)
    else
      let (blanks, c) ← quotedSpaces c
      let (run, c) ← quotedText quote (c.rest.length + 1) c
      let (more, c) ← quotedRest quote fuel c
      return (blanks ++ run ++ more, c)

def quotedScalar (c : Cursor) : Except LoadError (Token × Cursor) := do
  let quote := c.peek
  let (run, rest) ← quotedText quote (c.rest.length + 1) c.next
  let (more, rest) ← quotedRest quote (rest.rest.length + 2) rest
  return (⟨.scalar (String.ofList (run ++ more)) .quoted, c.line⟩, rest)

/-! ### Plain scalars -/

def endsPlain (inFlow : Bool) (ch ahead : Char) : Bool :=
  isGap ch ||
    (ch == ':' && (isGap ahead || (inFlow && [',', '[', ']', '\x7b', '\x7d'].contains ahead))) ||
    (inFlow && [',', '?', '[', ']', '\x7b', '\x7d'].contains ch)

def plainLength (inFlow : Bool) : List Char → Nat
  | [] => 0
  | ch :: rest => if endsPlain inFlow ch (rest.headD endMark) then 0 else plainLength inFlow rest + 1

def plainBreaks : Nat → Cursor → Option (List Char) × Cursor
  | 0, c => (some [], c)
  | fuel + 1, c =>
    if c.atSeparator then (none, c)
    else
      let c := c.skipSpaces
      match c.lineBreak? with
      | some (ch, c) =>
        let (others, c) := plainBreaks fuel c
        (others.map (ch :: ·), c)
      | none => (some [], c)

def plainSpaces (c : Cursor) : List Char × Cursor × Bool :=
  let (blanks, c) := c.takeWhile (· == ' ')
  match c.lineBreak? with
  | some (first, c) =>
    match plainBreaks (c.rest.length + 1) c with
    | (none, c) => ([], c, true)
    | (some others, c) => (foldBreak first others, c, true)
  | none => (blanks, c, false)

def plainWords (inFlow : Bool) (indent : Int) : Nat → List Char → Cursor →
    List Char × Cursor × Option Bool
  | 0, _, c => ([], c, none)
  | fuel + 1, spaces, c =>
    if c.peek == '#' then ([], c, none)
    else
      let length := plainLength inFlow c.rest
      if length = 0 then ([], c, none)
      else
        let word := c.rest.take length
        let (after, c, broke) := plainSpaces (c.advance length)
        if after.isEmpty || c.peek == '#' || (!inFlow && (c.column : Int) < indent) then
          (spaces ++ word, c, some broke)
        else
          let (more, c, flag) := plainWords inFlow indent fuel after c
          (spaces ++ word ++ more, c, some (flag.getD broke))

def plainScalar (inFlow : Bool) (indent : Int) (c : Cursor) : Token × Cursor × Bool :=
  let (text, rest, broke) := plainWords inFlow (indent + 1) (c.rest.length + 1) [] c
  (⟨.scalar (String.ofList text) .plain, c.line⟩, rest, broke.getD false)

/-! ### Block scalars -/

inductive Chomp where
  | clip
  | strip
  | keep
  deriving Repr, DecidableEq

def chompSign? : Char → Option Chomp
  | '+' => some .keep
  | '-' => some .strip
  | _ => none

def blockHeader (c : Cursor) : Except LoadError (Chomp × Option Nat × Cursor) := do
  let digit (c : Cursor) : Except LoadError (Option Nat × Cursor) :=
    if c.peek == '0' then c.fail "expected indentation indicator in the range 1-9"
    else if c.peek.isDigit then .ok (some (Text.natOfDigits [c.peek]), c.next)
    else .ok (none, c)
  let (chomp, width, c) ←
    match chompSign? c.peek with
    | some chomp => do
      let (width, c) ← digit c.next
      pure (chomp, width, c)
    | none => do
      let (width, c) ← digit c
      match width, chompSign? c.peek with
      | some _, some chomp => pure (chomp, width, c.next)
      | _, _ => pure (Chomp.clip, width, c)
  if endsWord c.peek then return (chomp, width, c)
  else c.fail "expected chomping or indentation indicators"

def ignoredLine (c : Cursor) : Except LoadError Cursor :=
  let c := c.skipSpaces.skipComment
  if endsLine c.peek then .ok ((c.lineBreak?.map (·.2)).getD c)
  else c.fail "expected a comment or a line break"

def blockIndentation : Nat → Nat → Cursor → List Char × Nat × Cursor
  | 0, widest, c => ([], widest, c)
  | fuel + 1, widest, c =>
    let c := c.skipSpaces
    let widest := max widest c.column
    match c.lineBreak? with
    | some (ch, c) =>
      let (breaks, widest, c) := blockIndentation fuel widest c
      (ch :: breaks, widest, c)
    | none => ([], widest, c)

def blockBreaks (indent : Nat) : Nat → Cursor → List Char × Cursor
  | 0, c => ([], c)
  | fuel + 1, c =>
    let spaces := (c.rest.takeWhile (· == ' ')).length
    let c := c.advance (min spaces (indent - c.column))
    match c.lineBreak? with
    | some (ch, c) =>
      let (breaks, c) := blockBreaks indent fuel c
      (ch :: breaks, c)
    | none => ([], c)

def blockLines (folded : Bool) (indent : Nat) :
    Nat → List Char → Cursor → List Char × List Char × List Char × Cursor
  | 0, breaks, c => ([], [], breaks, c)
  | fuel + 1, breaks, c =>
    if c.column == indent && !c.rest.isEmpty then
      let isText (ch : Char) : Bool := ch != ' ' && ch != '\t'
      let leading := isText c.peek
      let (line, c) := c.takeWhile (fun ch => !endsLine ch)
      let (ending, c) :=
        match c.lineBreak? with
        | some (ch, c) => ([ch], c)
        | none => ([], c)
      let (after, c) := blockBreaks indent (c.rest.length + 1) c
      if c.column == indent && !c.rest.isEmpty then
        let joint :=
          if folded && ending == ['\n'] && leading && isText c.peek then
            if after.isEmpty then [' '] else []
          else ending
        let (more, last, tail, c) := blockLines folded indent fuel after c
        (breaks ++ line ++ joint ++ more, last, tail, c)
      else (breaks ++ line, ending, after, c)
    else ([], [], breaks, c)

def blockScalar (indent : Int) (c : Cursor) : Except LoadError (Token × Cursor) := do
  let folded := c.peek == '>'
  let (chomp, width, rest) ← blockHeader c.next
  let rest ← ignoredLine rest
  let least := max 1 (indent + 1).toNat
  let (breaks, column, rest) :=
    match width with
    | none =>
      let (breaks, widest, rest) := blockIndentation (rest.rest.length + 1) 0 rest
      (breaks, max least widest, rest)
    | some width =>
      let column := least + width - 1
      let (breaks, rest) := blockBreaks column (rest.rest.length + 1) rest
      (breaks, column, rest)
  let (text, ending, tail, rest) := blockLines folded column (rest.rest.length + 1) breaks rest
  let text :=
    match chomp with
    | .strip => text
    | .clip => text ++ ending
    | .keep => text ++ ending ++ tail
  return (⟨.scalar (String.ofList text) .block, c.line⟩, rest)

end Keyforge.Yaml
