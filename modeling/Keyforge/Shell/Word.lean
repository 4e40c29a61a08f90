import Keyforge.Shell.Source

/-!
# Words of scripts

A word is read up to a blank or an operator. Quotes group characters, a backslash takes the next one
as it is, and a dollar sign starts a parameter, an expression or the output of a script.
-/

namespace Keyforge.Shell

/-! ### Characters -/

def startsName (c : Char) : Bool := c.isAlpha || c == '_'

def isNameChar (c : Char) : Bool := c.isAlphanum || c == '_'

def isName (s : String) : Bool :=
  match s.toList with
  | [] => false
  | c :: rest => startsName c && rest.all isNameChar

def isSpecialParameter (c : Char) : Bool := c.isDigit || "!#$*-?@".toList.contains c

def endsWord (c : Char) : Bool := " \t\n;&|<>()".toList.contains c

def graveAccent : Char := Char.ofNat 0x60

/-! ### Settings -/

inductive Stop where
  | word
  | brace
  | quote
  | document
  | arithmetic (depth : Nat)
  deriving Repr, DecidableEq

structure Setting where
  stop : Stop
  isDouble : Bool
  inner : Bool := false
  deriving Repr, DecidableEq

namespace Setting

def endsBefore (s : Setting) (c : Char) : Bool := s.stop == .word && endsWord c

def closes (s : Setting) (c : Char) : Bool :=
  (s.stop == .brace && c == '}' && !s.inner) || (s.stop == .quote && c == '"')

def escapes (s : Setting) (c : Char) : Bool :=
  !s.isDouble || c == '\\' || c == '$' || c == graveAccent ||
    (c == '"' && s.stop != .document) || (c == '}' && s.stop == .brace)

def faultAtEnd? (s : Setting) : Option SyntaxFault :=
  match s.stop with
  | .word | .document => none
  | .arithmetic _ => some .openExpression
  | .quote => some .openQuote
  | .brace => some (if s.isDouble then .openQuote else .openBrace)

def forParameter (s : Setting) (isPattern : Bool) : Setting :=
  { stop := .brace, isDouble := s.isDouble && !isPattern }

end Setting

/-! ### Pieces -/

structure Nested where
  inParentheses : Reader (Option Command)
  toEnd : Reader (Option Command)

def consChar (c : Char) (inQuotes : Bool) : Word → Word
  | .literal text q :: rest =>
    if q == inQuotes then .literal (c.toString ++ text) q :: rest
    else .literal c.toString inQuotes :: .literal text q :: rest
  | w => .literal c.toString inQuotes :: w

def markQuotes : Word → Word
  | [.parameter "@" .value true] => [.parameter "@" .value true]
  | w => .quotes :: w

def graveTextFrom (isDouble : Bool) : (fuel : Nat) → Reader (List Char)
  | 0 => fail .openGraveAccent
  | fuel + 1 => do
    match ← nextChar? with
    | none => fail .openGraveAccent
    | some c =>
      if c == graveAccent then return []
      else if c == '\\' then
        match ← rawChar? with
        | none => fail .openGraveAccent
        | some d =>
          let rest ← graveTextFrom isDouble fuel
          if d == '\\' || d == '$' || d == graveAccent || (isDouble && d == '"') then return d :: rest
          else return c :: d :: rest
      else return c :: (← graveTextFrom isDouble fuel)

def useOf? (orEmpty : Bool) : Char → Option (Word → Use)
  | '-' => some (.fallback orEmpty)
  | '=' => some (.assigned orEmpty)
  | '+' => some (.replaced orEmpty)
  | '?' => some (.demanded orEmpty)
  | _ => none

def parameterName : Reader (Option String × Bool) := do
  match ← peekChar? with
  | none => return (none, false)
  | some c =>
    if startsName c then return (some (String.ofList (← takeChars isNameChar)), false)
    else if c.isDigit then return (some (String.ofList (← takeChars Char.isDigit)), false)
    else if c == '}' then return (none, false)
    else
      let _ ← nextChar?
      if c == '#' then
        match ← peekChar? with
        | none => return (some "#", false)
        | some d =>
          if startsName d then return (some (String.ofList (← takeChars isNameChar)), true)
          else if d.isDigit then return (some (String.ofList (← takeChars Char.isDigit)), true)
          else
            let before ← get
            let _ ← nextChar?
            if d != '}' && (← peekChar?) == some '}' then
              return (if isSpecialParameter d then some d.toString else none, isSpecialParameter d)
            else
              set before
              return (some "#", false)
      else return (if isSpecialParameter c then some c.toString else none, false)

variable (nested : Nested)

mutual

def piecesFrom : (fuel : Nat) → Setting → Reader Word
  | 0, _ => return []
  | fuel + 1, s => do
    match ← peekChar? with
    | none =>
      match s.faultAtEnd? with
      | some fault => fail fault
      | none => return []
    | some c =>
      if s.endsBefore c then return []
      else
        let _ ← rawChar?
        if s.closes c then return []
        else if c == '\\' then
          match ← rawChar? with
          | none => return consChar c true (← piecesFrom fuel s)
          | some d =>
            let rest ← piecesFrom fuel s
            if s.escapes d then return consChar d true rest
            else return consChar c true (consChar d true rest)
        else if c == '$' then
          let piece ← dollarFrom fuel s
          return piece :: (← piecesFrom fuel s)
        else if c == graveAccent then
          let text ← graveTextFrom s.isDouble ((← get).chars.length + 1)
          let script? ← reading text 1 nested.toEnd
          return .output script? s.isDouble :: (← piecesFrom fuel s)
        else if c == '\'' && !s.isDouble then
          match ← takeUpTo? '\'' with
          | none => fail .openQuote
          | some inner =>
            let rest ← piecesFrom fuel s
            return .quotes :: .literal (String.ofList inner) true :: rest
        else if c == '"' && !s.isDouble then
          let inner ← piecesFrom fuel { stop := .quote, isDouble := true }
          return markQuotes inner ++ (← piecesFrom fuel s)
        else if c == '"' && s.stop == .brace then
          return .quotes :: (← piecesFrom fuel { s with inner := !s.inner })
        else
          match s.stop, c with
          | .arithmetic depth, '(' =>
            let s := { s with stop := .arithmetic (depth + 1) }
            return consChar c true (← piecesFrom fuel s)
          | .arithmetic (depth + 1), ')' =>
            let s := { s with stop := .arithmetic depth }
            return consChar c true (← piecesFrom fuel s)
          | .arithmetic 0, ')' =>
            if ← takeChar ')' then return []
            else return consChar c true (← piecesFrom fuel s)
          | _, _ => return consChar c s.isDouble (← piecesFrom fuel s)

def dollarFrom : (fuel : Nat) → Setting → Reader Piece
  | 0, s => return .literal "$" s.isDouble
  | fuel + 1, s => do
    match ← peekChar? with
    | none => return .literal "$" s.isDouble
    | some c =>
      if startsName c then
        return .parameter (String.ofList (← takeChars isNameChar)) .value s.isDouble
      else if isSpecialParameter c then
        let _ ← rawChar?
        return .parameter c.toString .value s.isDouble
      else if c == '{' then
        let _ ← rawChar?
        bracedFrom fuel s
      else if c == '(' then
        let _ ← rawChar?
        if ← takeChar '(' then
          let inner ← piecesFrom fuel { stop := .arithmetic 0, isDouble := true }
          return .arithmetic inner s.isDouble
        else return .output (← nested.inParentheses) s.isDouble
      else return .literal "$" s.isDouble

def bracedFrom : (fuel : Nat) → Setting → Reader Piece
  | 0, s => return .literal "$" s.isDouble
  | fuel + 1, s => do
    let malformed (name : String) : Reader Piece := do
      let _ ← piecesFrom fuel (s.forParameter false)
      return .parameter name .malformed s.isDouble
    match ← parameterName with
    | (none, _) => malformed ""
    | (some name, true) =>
      if ← takeChar '}' then return .parameter name .length s.isDouble else malformed name
    | (some name, false) =>
      match ← nextChar? with
      | none => malformed name
      | some '}' => return .parameter name .value s.isDouble
      | some '%' =>
        let longest ← takeChar '%'
        let pattern ← piecesFrom fuel (s.forParameter true)
        return .parameter name (.trimmed true longest pattern) s.isDouble
      | some '#' =>
        let longest ← takeChar '#'
        let pattern ← piecesFrom fuel (s.forParameter true)
        return .parameter name (.trimmed false longest pattern) s.isDouble
      | some c =>
        let orEmpty := c == ':'
        let c? ← if orEmpty then nextChar? else pure (some c)
        match c?.bind (useOf? orEmpty) with
        | some use =>
          return .parameter name (use (← piecesFrom fuel (s.forParameter false))) s.isDouble
        | none => malformed name

end

def pieces (s : Setting) : Reader Word := do
  piecesFrom nested (2 * (← get).chars.length + 2) s

/-! ### Documents -/

def plainText? : Word → Option String
  | [] => some ""
  | [.literal text false] => some text
  | _ => none

def firstLine (joins : Bool) : List Char → List Char × List Char
  | [] => ([], [])
  | '\n' :: rest => ([], rest)
  | '\\' :: c :: rest =>
    if joins then
      let (line, rest) := firstLine joins rest
      ('\\' :: c :: line, rest)
    else if c == '\n' then (['\\'], rest)
    else
      let (line, rest) := firstLine joins (c :: rest)
      ('\\' :: line, rest)
  | c :: rest =>
    let (line, rest) := firstLine joins rest
    (c :: line, rest)

def documentText (a : Awaited) : (fuel : Nat) → List Char → List Char × List Char
  | 0, cs => ([], cs)
  | _ + 1, [] => ([], [])
  | fuel + 1, cs =>
    let (line, rest) := firstLine (!a.isPlain) cs
    let shown := if a.stripsTabs then line.dropWhile (· == '\t') else line
    if shown == a.delimiter then ([], rest)
    else
      let (more, after) := documentText a fuel rest
      let lineEnd := if rest.isEmpty && cs.getLast? != some '\n' then [] else ['\n']
      (shown ++ lineEnd ++ more, after)

def readDocument (a : Awaited) : Reader Word := do
  let s ← get
  let (text, rest) := documentText a (s.chars.length + 1) s.chars
  let lines := s.chars.count '\n' - rest.count '\n'
  set { s with chars := rest, line := s.line + lines }
  if a.isPlain then return [.literal (String.ofList text) true]
  else reading text s.line (pieces nested { stop := .document, isDouble := true })

def readDocuments : Reader Unit := do
  let awaited := (← get).awaited
  modify fun s => { s with awaited := [] }
  awaited.forM fun a => do
    let w ← readDocument nested a
    modify fun s => { s with documents := (a.number, w) :: s.documents }

def delimiterFrom : (fuel : Nat) → Reader (List Char × Bool)
  | 0 => return ([], false)
  | fuel + 1 => do
    match ← peekChar? with
    | none => return ([], false)
    | some c =>
      if endsWord c then return ([], false)
      else
        let _ ← rawChar?
        if c == '\'' || c == '"' then
          match ← takeUpTo? c with
          | none => fail .openQuote
          | some inner =>
            let (rest, _) ← delimiterFrom fuel
            return (inner ++ rest, true)
        else if c == '\\' then
          let escaped ← rawChar?
          let (rest, _) ← delimiterFrom fuel
          return (escaped.toList ++ rest, true)
        else
          let (rest, isQuoted) ← delimiterFrom fuel
          return (c :: rest, isQuoted)

/-! ### Tokens -/

def keywords : List String :=
  ["!", "\x7b", "\x7d", "case", "do", "done", "elif", "else", "esac", "fi", "for", "if", "in", "then",
    "until", "while"]

def arrow (descriptor? : Option Nat) : Reader Token := do
  let input (a : Arrow) := return .arrow (descriptor?.getD 0) a
  let output (d : Direction) := return .arrow (descriptor?.getD 1) (.direction d)
  match ← nextChar? with
  | some '>' =>
    if ← takeChar '>' then output .append
    else if ← takeChar '|' then output .overwrite
    else if ← takeChar '&' then output .duplicate
    else output .write
  | _ =>
    if ← takeChar '<' then input (.document (← takeChar '-'))
    else if ← takeChar '&' then input (.direction .duplicate)
    else if ← takeChar '>' then input (.direction .readWrite)
    else input (.direction .read)

def descriptorOf? (w : Word) : Option (Option Nat) :=
  match w with
  | [] => some none
  | _ =>
    match (plainText? w).map String.toList with
    | some [d] => if d.isDigit then some (some (d.toNat - '0'.toNat)) else none
    | _ => none

def wordToken : Reader Token := do
  let w ← pieces nested { stop := .word, isDouble := false }
  let next? ← peekChar?
  match descriptorOf? w with
  | some descriptor? =>
    if next? == some '<' || next? == some '>' then arrow descriptor? else return .word w
  | none => return .word w

def bareTokenFrom : (fuel : Nat) → Reader Token
  | 0 => return .finish
  | fuel + 1 => do
    match ← peekChar? with
    | none => return .finish
    | some c =>
      if c == ' ' || c == '\t' then
        let _ ← rawChar?
        bareTokenFrom fuel
      else if c == '#' then
        modify fun s => { s with chars := s.chars.dropWhile (· != '\n') }
        bareTokenFrom fuel
      else if c == '\n' then
        let _ ← rawChar?
        return .newline
      else if c == '(' || c == ')' then
        let _ ← rawChar?
        return .operator c.toString
      else if c == ';' || c == '&' || c == '|' then
        let _ ← rawChar?
        if ← takeChar c then return .operator (String.ofList [c, c]) else return .operator c.toString
      else wordToken nested

structure Lookout where
  skipsNewlines : Bool := false
  keywords : Bool := false

def tokenFrom (l : Lookout) : (fuel : Nat) → Reader Token
  | 0 => return .finish
  | fuel + 1 => do
    let s ← get
    let t ← match s.pushed? with
      | some t => do
        set { s with pushed? := none }
        pure t
      | none => bareTokenFrom nested (s.chars.length + 1)
    match t with
    | .newline =>
      readDocuments nested
      if l.skipsNewlines then tokenFrom l fuel else return t
    | .finish =>
      readDocuments nested
      return t
    | .word w =>
      match plainText? w with
      | none => return t
      | some text =>
        if l.keywords && keywords.contains text then return .keyword text else return t
    | t => return t

def token (l : Lookout := {}) : Reader Token := do
  tokenFrom nested l ((← get).chars.length + 100)

end Keyforge.Shell
