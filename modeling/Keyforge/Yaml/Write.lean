import Keyforge.Yaml.Tag

/-!
# Writing YAML

Mappings and lists are written as blocks, one entry per line, lists at the indentation of the
mapping around them.
-/

namespace Keyforge.Yaml

structure WriteOptions where
  width : Nat := 80
  blocks : Bool := false

def isOutputBreak (c : Char) : Bool := c == '\n' || c == '\x85' || c == '\u2028' || c == '\u2029'

/-- What a text consists of, as far as it bears on the form it can be written in. -/
structure Traits where
  indicators : Bool
  lineBreaks : Bool
  special : Bool
  edgeBlank : Bool
  trailingSpace : Bool
  breakSpace : Bool
  spaceBreak : Bool

def isLeadingIndicator (c : Char) : Bool :=
  ['#', ',', '[', ']', '\x7b', '\x7d', '&', '*', '!', '|', '>', '\'', '"', '%', '@',
    Char.ofNat 0x60].contains c

def gapAhead : List Char → Bool
  | [] => true
  | c :: _ => isGap c

def hasInnerIndicator (afterGap : Bool) : List Char → Bool
  | [] => false
  | c :: rest =>
    (c == ':' && gapAhead rest) || (c == '#' && afterGap) || hasInnerIndicator (isGap c) rest

def hasIndicator (cs : List Char) : Bool :=
  match cs with
  | [] => false
  | c :: rest =>
    ['-', '-', '-'].isPrefixOf cs || ['.', '.', '.'].isPrefixOf cs || isLeadingIndicator c ||
      ((c == '?' || c == ':' || c == '-') && gapAhead rest) || hasInnerIndicator (isGap c) rest

def isSpecial (n : Nat) : Bool :=
  !(n == 0x0a || (0x20 ≤ n && n ≤ 0x7e) ||
    (n != 0xfeff && (n == 0x85 || (0xa0 ≤ n && n ≤ 0xfffd && !Text.isHalf n) ||
      (0x10000 ≤ n && n < 0x10ffff))))

def hasPair (p q : Char → Bool) : List Char → Bool
  | a :: b :: rest => (p a && q b) || hasPair p q (b :: rest)
  | _ => false

def Traits.of (cs : List Char) : Traits where
  indicators := hasIndicator cs
  lineBreaks := cs.any isOutputBreak
  special := (Text.codes cs).any isSpecial
  edgeBlank :=
    let isEdge (c : Char) : Bool := c == ' ' || isOutputBreak c
    cs.head?.any isEdge || cs.getLast?.any isEdge
  trailingSpace := cs.getLast? == some ' '
  breakSpace := hasPair isOutputBreak (· == ' ') cs
  spaceBreak := hasPair (· == ' ') isOutputBreak cs

def lineStart (indent : Nat) : List Char := '\n' :: List.replicate indent ' '

/-! ### Plain and single quoted texts -/

inductive Run where
  | spaces (count : Nat)
  | breaks (chars : List Char)
  | word (chars : List Char)

def runs : List Char → List Run
  | [] => []
  | c :: rest =>
    match c == ' ', isOutputBreak c, runs rest with
    | true, _, .spaces n :: more => .spaces (n + 1) :: more
    | true, _, more => .spaces 1 :: more
    | _, true, .breaks cs :: more => .breaks (c :: cs) :: more
    | _, true, more => .breaks [c] :: more
    | _, _, .word cs :: more => .word (c :: cs) :: more
    | _, _, more => .word [c] :: more

def plainRuns (width indent : Nat) : Nat → List Run → List Char
  | _, [] => []
  | column, .spaces n :: more =>
    if n = 1 && width < column then lineStart indent ++ plainRuns width indent indent more
    else List.replicate n ' ' ++ plainRuns width indent (column + n) more
  | column, .breaks cs :: more => cs ++ plainRuns width indent column more
  | column, .word cs :: more => cs ++ plainRuns width indent (column + Text.size cs) more

def singleRuns (width indent : Nat) (split : Bool) : (first : Bool) → Nat → List Run → List Char
  | _, _, [] => []
  | first, column, .spaces n :: more =>
    if n = 1 && width < column && split && !first && !more.isEmpty then
      lineStart indent ++ singleRuns width indent split false indent more
    else List.replicate n ' ' ++ singleRuns width indent split false (column + n) more
  | _, _, .breaks cs :: more =>
    let extra := if cs.head? == some '\n' then ['\n'] else []
    extra ++ cs ++ List.replicate indent ' ' ++ singleRuns width indent split false indent more
  | _, column, .word cs :: more =>
    let doubled := cs.flatMap fun c => if c == '\'' then ['\'', '\''] else [c]
    doubled ++ singleRuns width indent split false (column + Text.size doubled) more

/-! ### Double quoted texts -/

def shortEscape? (c : Char) : Option Char :=
  [('\x00', '0'), ('\x07', 'a'), ('\x08', 'b'), ('\t', 't'), ('\n', 'n'), ('\x0b', 'v'),
    ('\x0c', 'f'), ('\r', 'r'), ('\x1b', 'e'), ('"', '"'), ('\\', '\\'), ('\x85', 'N'),
    ('\xa0', '_'), ('\u2028', 'L'), ('\u2029', 'P')].lookup c

def needsEscape (n : Nat) : Bool :=
  [0x22, 0x5c, 0x85, 0x2028, 0x2029, 0xfeff].contains n ||
    !((0x20 ≤ n && n ≤ 0x7e) || (0xa0 ≤ n && n ≤ 0xfffd && !Text.isHalf n))

def escapeText (n : Nat) : List Char :=
  match if Text.isHalf n then none else shortEscape? (Char.ofNat n) with
  | some letter => ['\\', letter]
  | none =>
    let hex (width : Nat) := (Text.hexText width n).map Char.toUpper
    if n < 0x100 then '\\' :: 'x' :: hex 2
    else if n < 0x10000 then '\\' :: 'u' :: hex 4
    else '\\' :: 'U' :: hex 8

def doubleChars (width indent length : Nat) (split : Bool) :
    (position column : Nat) → (pending : List Char) → List Nat → List Char
  | _, _, pending, [] => pending.reverse
  | position, column, pending, code :: rest =>
    let inside := 0 < position && position + 1 < length && split
    let c := Char.ofNat code
    if needsEscape code then
      let data := pending.reverse ++ escapeText code
      let column := column + data.length
      if inside && width + 1 < column then
        let blank := if rest.head? == some 0x20 then ['\\'] else []
        data ++ '\\' :: lineStart indent ++ blank ++
          doubleChars width indent length split (position + 1) (indent + blank.length) [] rest
      else data ++ doubleChars width indent length split (position + 1) column [] rest
    else if inside && (c == ' ' || pending.isEmpty) && width < column + pending.length then
      let blank := if c == ' ' then ['\\'] else []
      pending.reverse ++ '\\' :: lineStart indent ++ blank ++
        doubleChars width indent length split (position + 1) (indent + blank.length) [c] rest
    else doubleChars width indent length split (position + 1) column (c :: pending) rest

/-! ### Blocks of lines -/

def blockChars (indent : Nat) : (atStart : Bool) → List Char → List Char
  | atStart, [] => if atStart then [] else ['\n']
  | atStart, c :: rest =>
    if isOutputBreak c then c :: blockChars indent true rest
    else if atStart then List.replicate indent ' ' ++ c :: blockChars indent false rest
    else c :: blockChars indent false rest

def blockHints (cs : List Char) : List Char :=
  let leading := if cs.head?.any (fun c => c == ' ' || isOutputBreak c) then ['2'] else []
  let trailing :=
    match cs.reverse with
    | [] => []
    | last :: before =>
      if !isOutputBreak last then ['-']
      else if before.head?.all isOutputBreak then ['+']
      else []
  leading ++ trailing

/-! ### Scalars -/

/-- The text of a scalar, and whether it is a block, which ends its line itself. -/
structure Written where
  text : List Char
  block : Bool := false
  /-- Trailing line ends are part of the text, so that the end of the document has to be marked. -/
  openEnded : Bool := false

def writeText (options : WriteOptions) (indent column : Nat) (isKey : Bool) (s : String) : Written :=
  let cs := s.toList
  let t := Traits.of cs
  let split := !isKey
  let plainAllowed := !t.edgeBlank && !t.breakSpace && !t.spaceBreak && !t.special &&
    !t.lineBreaks && !t.indicators
  let wantsBlock := options.blocks && cs.contains '\n'
  let isPlain := !wantsBlock && plainTag s == .text && plainAllowed
  let singleAllowed := !t.breakSpace && !t.spaceBreak && !t.special && !(isKey && t.lineBreaks)
  let blockAllowed := !isKey && !t.trailingSpace && !t.spaceBreak && !t.special
  if isPlain then ⟨plainRuns options.width indent column (runs cs), false, false⟩
  else if wantsBlock && blockAllowed then
    let hints := blockHints cs
    ⟨'|' :: hints ++ '\n' :: blockChars indent true cs, true, hints.contains '+'⟩
  else if !wantsBlock && singleAllowed then
    ⟨'\'' :: singleRuns options.width indent split true (column + 1) (runs cs) ++ ['\''], false,
      false⟩
  else
    let inside :=
      doubleChars options.width indent (Text.size cs) split 0 (column + 1) [] (Text.codes cs)
    ⟨'"' :: inside ++ ['"'], false, false⟩

def writeScalar (options : WriteOptions) (indent column : Nat) : Datum → Written
  | .text s => writeText options indent column false s
  | .bool b => ⟨(if b then "true" else "false").toList, false, false⟩
  | .int n => ⟨(Text.intText n).toList, false, false⟩
  | .list _ | .set _ => ⟨['[', ']'], false, false⟩
  | .map _ => ⟨['\x7b', '\x7d'], false, false⟩
  | _ => ⟨"null".toList, false, false⟩

def Written.line (w : Written) : List Char := ' ' :: w.text ++ (if w.block then [] else ['\n'])

/-! ### Collections -/

mutual

def writeEntries (options : WriteOptions) (indent : Nat) :
    List (Datum × Datum) → List Char × Bool
  | [] => ([], false)
  | (key, value) :: rest =>
    let name :=
      match key with
      | .text s => (writeText options (indent + 2) indent true s).text
      | other => (writeScalar options (indent + 2) indent other).text
    let head := List.replicate indent ' ' ++ name ++ [':']
    let (body, openEnded) := writeValue options indent false (Text.size head) value
    let (more, moreOpen) := writeEntries options indent rest
    (head ++ body ++ more, if rest.isEmpty then openEnded else moreOpen)

def writeItems (options : WriteOptions) (indent : Nat) : List Datum → List Char × Bool
  | [] => ([], false)
  | item :: rest =>
    let head := List.replicate indent ' ' ++ ['-']
    let (body, openEnded) := writeValue options indent true (indent + 1) item
    let (more, moreOpen) := writeItems options indent rest
    (head ++ body ++ more, if rest.isEmpty then openEnded else moreOpen)

def writeValue (options : WriteOptions) (indent : Nat) (inList : Bool) (column : Nat) :
    Datum → List Char × Bool
  | .list (item :: rest) =>
    if inList then
      let (lines, openEnded) := writeItems options (indent + 2) (item :: rest)
      (' ' :: lines.drop (indent + 2), openEnded)
    else
      let (lines, openEnded) := writeItems options indent (item :: rest)
      ('\n' :: lines, openEnded)
  | .map (entry :: rest) =>
    let (lines, openEnded) := writeEntries options (indent + 2) (entry :: rest)
    if inList then (' ' :: lines.drop (indent + 2), openEnded) else ('\n' :: lines, openEnded)
  | value =>
    let written := writeScalar options (indent + 2) (column + 1) value
    (written.line, written.openEnded)

end

def writeDocument (options : WriteOptions) (entries : List (Datum × Datum)) : String :=
  if entries.isEmpty then "\x7b\x7d\n"
  else
    let (lines, openEnded) := writeEntries options 0 entries
    String.ofList lines ++ (if openEnded then "...\n" else "")

end Keyforge.Yaml
