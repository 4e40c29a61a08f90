import Keyforge.Number.Read
import Keyforge.Text.Case
import Keyforge.Text.CodePoint

/-!
# Patterns of names

Names can be described by patterns. `Pattern.read` reads one from its notation, or says why it is no
pattern, and `Pattern.accepts` tells whether a pattern describes a whole text. A pattern is tried
piece by piece, and where a piece fits in several ways they are tried one after the other, greater
repetitions first unless the notation asks for the opposite.

Characters cannot be given by their names in a pattern.
-/

namespace Keyforge.Header

/-! ### Characters -/

/-- How a part of a pattern is meant. -/
structure Manner where
  ignoresCase : Bool := false
  /-- Words, digits and blanks are those of ASCII only. -/
  isAscii : Bool := false
  /-- `^` and `$` stand for the ends of every line. -/
  hasLines : Bool := false
  /-- A dot stands for the end of a line as well. -/
  dotTakesAll : Bool := false
  /-- Blanks between the pieces and comments have no meaning. -/
  isSpaced : Bool := false
  deriving Repr, DecidableEq

/-- A manner with some letters turned on and others turned off. -/
def Manner.turned (m : Manner) (on off : List Char) : Manner :=
  let flag (c : Char) (value : Bool) : Bool := (value || on.contains c) && !off.contains c
  { ignoresCase := flag 'i' m.ignoresCase
    isAscii := on.contains 'a' || (m.isAscii && !on.contains 'u')
    hasLines := flag 'm' m.hasLines
    dotTakesAll := flag 's' m.dotTakesAll
    isSpaced := flag 'x' m.isSpaced }

inductive Kind where
  | word
  | digit
  | blank
  deriving Repr, DecidableEq

def Kind.has (isAscii : Bool) (c : Char) : Kind → Bool
  | .word => if isAscii then c.isAlphanum || c == '_' else Text.isWord c
  | .digit => if isAscii then c.isDigit else Text.isDigit c
  | .blank => Text.isBlank c && (!isAscii || (c.toNat < 0x80 && Text.isPlainBlank c))

inductive CharClass where
  | range (low high : Char)
  | kind (k : Kind) (negated : Bool)
  deriving Repr, DecidableEq

/-- The same text for all letters that differ in case only. -/
def folded (isAscii : Bool) (c : Char) : List Char :=
  if isAscii then [c.toLower] else (Text.lowerChar c).flatMap Text.upperChar

def alike (m : Manner) (c d : Char) : Bool :=
  c == d || (m.ignoresCase && folded m.isAscii c == folded m.isAscii d)

def CharClass.has (m : Manner) (c : Char) : CharClass → Bool
  | .range low high =>
    (low ≤ c && c ≤ high) || (m.ignoresCase &&
      (List.range (high.toNat + 1 - low.toNat)).any fun n => alike m (Char.ofNat (low.toNat + n)) c)
  | .kind k negated => k.has m.isAscii c != negated

structure CharSet where
  classes : List CharClass
  isNegated : Bool := false
  deriving Repr, DecidableEq

def CharSet.has (m : Manner) (s : CharSet) (c : Char) : Bool :=
  s.classes.any (·.has m c) != s.isNegated

/-! ### Patterns -/

/-- Places in a text. -/
inductive Spot where
  | textStart
  | textEnd
  | lineStart
  | lineEnd
  | wordEdge
  | noWordEdge
  deriving Repr, DecidableEq

/-- The least and the greatest number of characters that a pattern takes; `none` if there is no
greatest one. -/
structure Width where
  least : Nat
  most? : Option Nat
  deriving Repr, DecidableEq

namespace Width

def nothing : Width := ⟨0, some 0⟩

def add (v w : Width) : Width := ⟨v.least + w.least, do return (← v.most?) + (← w.most?)⟩

def either (v w : Width) : Width :=
  ⟨min v.least w.least, do return max (← v.most?) (← w.most?)⟩

def times (least : Nat) (most? : Option Nat) (w : Width) : Width :=
  ⟨least * w.least, if w.most? == some 0 then some 0 else do return (← most?) * (← w.most?)⟩

def limit : Nat := Nat.pow 2 32 - 1

def isFixed (w : Width) : Bool := w.most? == some w.least && w.least ≤ limit

end Width

inductive Pattern where
  | empty
  | char (m : Manner) (set : CharSet)
  | spot (m : Manner) (s : Spot)
  | sequence (first second : Pattern)
  | choice (first second : Pattern)
  | repetition (least : Nat) (most? : Option Nat) (isLazy : Bool) (body : Pattern)
  /-- What the body takes is kept under a number. -/
  | group (number : Nat) (body : Pattern)
  /-- What was kept, once more. -/
  | back (m : Manner) (number : Nat)
  /-- Whether the body fits here, or that many characters before. -/
  | look (behind? : Option Width) (negated : Bool) (body : Pattern)
  /-- The body as it fits first; other ways are not tried. -/
  | atomic (body : Pattern)
  /-- Either pattern, depending on whether something was kept. -/
  | conditional (number : Nat) (present absent : Pattern)
  deriving Repr, DecidableEq

namespace Pattern

/-! ### Matching -/

/-- A place in a text: what is before it, last character first, what is after it, and what the
groups have kept. -/
structure Fit where
  before : List Char := []
  after : List Char
  groups : List (Nat × List Char) := []
  deriving Repr, DecidableEq

namespace Fit

/-- The place behind the next character, if that is in a set. -/
def step? (f : Fit) (p : Char → Bool) : Option Fit :=
  match f.after with
  | c :: rest => if p c then some { f with before := c :: f.before, after := rest } else none
  | [] => none

/-- The place behind a text that comes next. -/
def steps? (m : Manner) : Fit → List Char → Option Fit
  | f, [] => some f
  | f, c :: rest => do steps? m (← f.step? (alike m c)) rest

/-- Where a look ahead or behind starts. -/
def start? (f : Fit) : (behind? : Option Width) → Option Fit
  | none => some f
  | some { least := n, .. } =>
    if f.before.length < n then none
    else some { f with before := f.before.drop n, after := (f.before.take n).reverse ++ f.after }

/-- What was taken from one place to a later one. -/
def taken (f g : Fit) : List Char := f.after.take (f.after.length - g.after.length)

def keep (f g : Fit) (number : Nat) : Fit := { g with groups := (number, f.taken g) :: g.groups }

def isAt (f : Fit) (m : Manner) : Spot → Bool
  | .textStart => f.before.isEmpty
  | .textEnd => f.after.isEmpty
  | .lineStart => f.before.isEmpty || (m.hasLines && f.before.head? == some '\n')
  | .lineEnd =>
    f.after.isEmpty || (f.after.head? == some '\n' && (m.hasLines || f.after.length == 1))
  | .wordEdge => isWord f.before.head? != isWord f.after.head?
  | .noWordEdge =>
    isWord f.before.head? == isWord f.after.head? && !(f.before.isEmpty && f.after.isEmpty)
where
  isWord (c? : Option Char) : Bool := c?.any fun c => Kind.has m.isAscii c .word

end Fit

/-- Tries one way, and another one if that fails. -/
def orElse (first : Option Fit) (second : Unit → Option Fit) : Option Fit :=
  match first with
  | some f => some f
  | none => second ()

/-- Repeats a piece and goes on behind it. A repetition that takes nothing is the last one, once
there are enough of them. -/
def iterate (go : Fit → (Fit → Option Fit) → Option Fit) (least : Nat) (most? : Option Nat)
    (isLazy : Bool) : (fuel count : Nat) → Fit → (Fit → Option Fit) → Option Fit
  | 0, _, _, _ => none
  | fuel + 1, count, f, next =>
    let stop (_ : Unit) : Option Fit := if least ≤ count then next f else none
    let more (_ : Unit) : Option Fit :=
      if most?.any (· ≤ count) then none
      else go f fun g =>
        if g.after.length = f.after.length && least ≤ count + 1 then next g
        else iterate go least most? isLazy fuel (count + 1) g next
    if isLazy then orElse (stop ()) more else orElse (more ()) stop

/-- Tries a pattern at a place and goes on with `next` behind it. The first way that succeeds as a
whole is taken. -/
def run : Pattern → Fit → (next : Fit → Option Fit) → Option Fit
  | empty, f, next => next f
  | char m set, f, next => (f.step? (set.has m)).bind next
  | spot m s, f, next => if f.isAt m s then next f else none
  | sequence p q, f, next => p.run f fun g => q.run g next
  | choice p q, f, next => orElse (p.run f next) fun _ => q.run f next
  | repetition least most? isLazy p, f, next =>
    iterate p.run least most? isLazy (f.after.length + least + 1) 0 f next
  | group n p, f, next => p.run f fun g => next (f.keep g n)
  | back m n, f, next => ((f.groups.lookup n).bind (f.steps? m)).bind next
  | look behind? negated p, f, next =>
    match (f.start? behind?).bind fun g => p.run g some with
    | some g => if negated then none else next { f with groups := g.groups }
    | none => if negated then next f else none
  | atomic p, f, next => (p.run f some).bind next
  | conditional n p q, f, next =>
    if (f.groups.lookup n).isSome then p.run f next else q.run f next

/-- Whether a pattern describes a text as a whole. -/
def accepts (p : Pattern) (s : List Char) : Bool :=
  (p.run { after := s } fun f => if f.after.isEmpty then some f else none).isSome

/-! ### Widths -/

/-- How many characters a pattern takes, given this of the groups it refers to. -/
def width (groups : List (Nat × Width)) : Pattern → Width
  | empty | spot _ _ | look _ _ _ => .nothing
  | char _ _ => ⟨1, some 1⟩
  | sequence p q => (p.width groups).add (q.width groups)
  | choice p q | conditional _ p q => (p.width groups).either (q.width groups)
  | repetition least most? _ p => (p.width groups).times least most?
  | group _ p | atomic p => p.width groups
  | back _ n => (groups.lookup n).getD .nothing

/-- Whether all that looks behind takes a fixed number of characters. -/
def looksFixed : Pattern → Bool
  | sequence p q | choice p q | conditional _ p q => p.looksFixed && q.looksFixed
  | repetition _ _ _ p | group _ p | atomic p => p.looksFixed
  | look behind? _ p => behind?.all (·.isFixed) && p.looksFixed
  | _ => true

/-! ### Notation -/

/-- Why a text is no pattern. -/
inductive Fault where
  | malformed
  /-- A repetition has a number that is too large. -/
  | tooManyTimes
  | unreadable (error : Number.IntegerError)
  /-- Characters cannot be both those of ASCII and those of all scripts. -/
  | mixedScripts
  deriving Repr, DecidableEq

/-- What is still to be read, and what is known of the pattern so far. -/
structure Reader where
  rest : List Char
  /-- The manner of the whole pattern. -/
  manner : Manner := {}
  /-- The letters that chose it. -/
  chosen : List Char := []
  groupCount : Nat := 0
  names : List (String × Nat) := []
  /-- The groups that are complete. -/
  widths : List (Nat × Width) := []
  /-- In a part that looks behind, how many groups there are before it. -/
  outside? : Option Nat := none
  /-- The groups that conditions are about. -/
  mentioned : List Nat := []

abbrev Reading := StateT Reader (Except Fault)

/-- Goes on behind what was read. A backslash at the end is noticed as soon as it comes next. -/
def goTo (rest : List Char) : Reading Unit := do
  if rest == ['\\'] then throw .malformed
  modify ({ · with rest })

def next? : Reading (Option Char) := do return (← get).rest.head?

def take : Reading Char := do
  match (← get).rest with
  | [] => throw .malformed
  | c :: rest =>
    if c == '\\' then modify ({ · with rest }) else goTo rest
    return c

/-- Reads a character if it comes next. -/
def skip (c : Char) : Reading Bool := do
  if (← next?) == some c then
    let _ ← take
    return true
  else return false

def expect (c : Char) : Reading Unit := do
  if !(← skip c) then throw .malformed

/-- At most so many characters of one kind. -/
def takeWhile (most : Nat) (p : Char → Bool) : Reading (List Char) := do
  let rest := (← get).rest
  let found := (rest.take most).takeWhile p
  goTo (rest.drop found.length)
  return found

/-- What is behind the next occurrence of a character that is not escaped. -/
def behind? (stop : Char) : List Char → Option (List Char)
  | '\\' :: _ :: rest => behind? stop rest
  | c :: rest => if c == stop then some rest else behind? stop rest
  | [] => none

/-! ### Escapes -/

def isOctal (c : Char) : Bool := '0' ≤ c && c ≤ '7'

def isHex (c : Char) : Bool := c.isDigit || ('a' ≤ c.toLower && c.toLower ≤ 'f')

def valueOf (base : Nat) (digits : List Char) : Nat :=
  digits.foldl (fun n c => base * n +
    if c.isDigit then c.toNat - '0'.toNat else c.toLower.toNat - 'a'.toNat + 10) 0

def charAt (code : Nat) : Char :=
  Char.ofNat (if Text.isHalf code then code + Text.halfDistance else code)

def hexChar (count : Nat) : Reading Char := do
  let digits ← takeWhile count isHex
  let code := valueOf 16 digits
  if digits.length ≠ count || 0x10ffff < code then throw .malformed
  return charAt code

def octalChar (digits : List Char) : Reading Char := do
  let code := valueOf 8 digits
  if 0o377 < code then throw .malformed
  return charAt code

def controls : List (Char × Char) :=
  [('a', '\x07'), ('f', '\x0c'), ('n', '\n'), ('r', '\r'), ('t', '\t'), ('v', '\x0b')]

def kinds : List (Char × Kind) := [('w', .word), ('d', .digit), ('s', .blank)]

def spots : List (Char × Spot) :=
  [('A', .textStart), ('Z', .textEnd), ('b', .wordEdge), ('B', .noWordEdge)]

/-- What an escaped letter stands for, in brackets and outside of them. -/
def commonEscape (c : Char) : Reading CharClass := do
  let literal (c : Char) : Reading CharClass := return .range c c
  match kinds.lookup c.toLower, controls.lookup c with
  | some k, _ => return .kind k c.isUpper
  | none, some d => literal d
  | none, none =>
    match c with
    | 'x' => literal (← hexChar 2)
    | 'u' => literal (← hexChar 4)
    | 'U' => literal (← hexChar 8)
    | _ => if c.isAlphanum then throw .malformed else literal c

def classEscape (c : Char) : Reading CharClass := do
  if c == 'b' then return .range '\x08' '\x08'
  else if isOctal c then
    let d ← octalChar (c :: (← takeWhile 2 isOctal))
    return .range d d
  else commonEscape c

/-- A group that is complete, and not one of a part that looks behind. -/
def checkGroup (number : Nat) : Reading Unit := do
  let r ← get
  if (r.widths.lookup number).isNone || r.outside?.any (· < number) then throw .malformed

def escape (m : Manner) (c : Char) : Reading Pattern := do
  let single (c : Char) : Pattern := .char m { classes := [.range c c] }
  match spots.lookup c with
  | some s => return .spot m s
  | none =>
    if c == '0' then return single (← octalChar (c :: (← takeWhile 2 isOctal)))
    else if c.isDigit then
      let rest := (← get).rest
      if isOctal c && (rest.take 2).length == 2 && (rest.take 2).all isOctal then
        return single (← octalChar (c :: (← takeWhile 2 isOctal)))
      else
        let number := valueOf 10 (c :: (← takeWhile 1 Char.isDigit))
        checkGroup number
        return .back m number
    else return .char m { classes := [← commonEscape c] }

/-! ### Brackets -/

def classAt (c : Char) : Reading CharClass := do
  if c == '\\' then classEscape (← take) else return .range c c

/-- Reads the inside of brackets up to the closing one, which stands for itself if nothing precedes
it. -/
def classes : (fuel : Nat) → (isFirst : Bool) → Reading (List CharClass)
  | 0, _ => throw .malformed
  | fuel + 1, isFirst => do
    let c ← take
    if c == ']' && !isFirst then return []
    let low ← classAt c
    if ← skip '-' then
      let d ← take
      if d == ']' then return [low, .range '-' '-']
      match low, ← classAt d with
      | .range l _, .range h _ =>
        if h < l then throw .malformed
        return .range l h :: (← classes fuel false)
      | _, _ => throw .malformed
    else return low :: (← classes fuel false)

def charSet : Reading CharSet := do
  let isNegated ← skip '^'
  return { classes := ← classes ((← get).rest.length + 1) true, isNegated }

/-! ### Repetitions -/

def timesLimit : Nat := Nat.pow 2 32 - 1

def timesOf (digits : List Char) : Reading (Option Nat) := do
  if digits.isEmpty then return none
  match Number.ofDigits digits with
  | .error e => throw (.unreadable e)
  | .ok n => if timesLimit ≤ n then throw .tooManyTimes else return some n

/-- The bounds of a counted repetition behind its opening brace; `none` if it is no repetition. -/
def bounds? : Reading (Option (Nat × Option Nat)) := do
  let start := (← get).rest
  let digits : Reading (List Char) := takeWhile start.length Char.isDigit
  if start.head? == some '\x7d' then return none
  let low ← digits
  let high ← if ← skip ',' then digits else pure low
  if !(← skip '\x7d') then
    goTo start
    return none
  let least := (← timesOf low).getD 0
  let most? ← timesOf high
  if most?.any (· < least) then throw .malformed
  return some (least, most?)

/-- The bounds of the repetition that a character starts. -/
def repetition? (c : Char) : Reading (Option (Nat × Option Nat)) := do
  match c with
  | '*' => return some (0, none)
  | '+' => return some (1, none)
  | '?' => return some (0, some 1)
  | '\x7b' => bounds?
  | _ => return none

def repeated (p : Pattern) (least : Nat) (most? : Option Nat) : Reading Pattern := do
  if ← skip '?' then return .repetition least most? true p
  else if ← skip '+' then return .atomic (.repetition least most? false p)
  else return .repetition least most? false p

/-! ### Groups -/

def openGroup (name? : Option String) : Reading Nat := do
  let r ← get
  let number := r.groupCount + 1
  match name? with
  | none => set { r with groupCount := number }
  | some name =>
    if (r.names.lookup name).isSome then throw .malformed
    set { r with groupCount := number, names := (name, number) :: r.names }
  return number

def closeGroup (number : Nat) (p : Pattern) : Reading Unit :=
  modify fun r => { r with widths := (number, p.width r.widths) :: r.widths }

/-- Reads up to a closing character, which is left out. -/
def takeUntil (stop : Char) : Reading (List Char) := do
  let rest := (← get).rest
  let found := rest.takeWhile (· != stop)
  goTo (rest.drop found.length)
  expect stop
  return found

def isName : List Char → Bool
  | [] => false
  | c :: rest => Text.isWord c && !Text.isDigit c && rest.all Text.isWord

def nameUntil (stop : Char) : Reading String := do
  let name ← takeUntil stop
  if !isName name then throw .malformed
  return String.ofList name

def groupNamed (name : String) : Reading Nat := do
  match (← get).names.lookup name with
  | some number => return number
  | none => throw .malformed

/-- The group that a condition is about. It may follow later, unless it is named. -/
def conditionGroup : Reading Nat := do
  let text ← takeUntil ')'
  let number ←
    if isName text then groupNamed (String.ofList text)
    else
      match Number.integer text with
      | .ok n => if n ≤ 0 then throw .malformed else pure n.toNat
      | .error _ => throw .malformed
  modify fun r => { r with mentioned := number :: r.mentioned }
  if (← get).outside?.isSome then checkGroup number
  return number

/-- The letters that turn something on or off. -/
def flags (letters : String) : Reading (List Char) := do
  let rest := (← get).rest
  takeWhile rest.length letters.toList.contains

/-- Reads letters that change the manner, for what follows up to the end of the group; `none` if it
is changed for the whole pattern. -/
def flagGroup (m : Manner) : Reading (Option Manner) := do
  let on ← flags "aimsux"
  if on.contains 'a' && on.contains 'u' then throw .malformed
  if on ≠ [] && (← skip ')') then
    modify fun r => { r with manner := r.manner.turned on [], chosen := on ++ r.chosen }
    return none
  let hasOff ← skip '-'
  let off ← if hasOff then flags "imsx" else pure []
  if (if hasOff then off else on).isEmpty || on.any off.contains then throw .malformed
  expect ':'
  return some (m.turned on off)

/-! ### Reading -/

/-- Pieces that are read: all but the last one, and the last one, with whether it can be
repeated. -/
structure Pieces where
  before : Pattern := .empty
  last? : Option (Pattern × Bool) := none

def Pieces.whole (ps : Pieces) : Pattern :=
  match ps.before, ps.last? with
  | p, none => p
  | .empty, some (q, _) => q
  | p, some (q, _) => .sequence p q

def Pieces.add (ps : Pieces) (p : Pattern) (mayRepeat : Bool := true) : Pieces :=
  ⟨ps.whole, some (p, mayRepeat)⟩

def isSpotPattern : Pattern → Bool
  | .spot _ _ => true
  | _ => false

/-- A piece of one character, or a repetition of the piece before. -/
def plainPiece (m : Manner) (ps : Pieces) (c : Char) : Reading Pieces := do
  let single (set : CharSet) : Pattern := .char m set
  match ← repetition? c with
  | some (least, most?) =>
    match ps.last? with
    | some (p, true) => return ⟨ps.before, some (← repeated p least most?, false)⟩
    | _ => throw .malformed
  | none =>
    match c with
    | '\\' =>
      let p ← escape m (← take)
      return ps.add p !(isSpotPattern p)
    | '^' => return ps.add (.spot m .lineStart) false
    | '$' => return ps.add (.spot m .lineEnd) false
    | '[' => return ps.add (single (← charSet))
    | '.' =>
      let excluded := if m.dotTakesAll then [] else [CharClass.range '\n' '\n']
      return ps.add (single { classes := excluded, isNegated := true })
    | c => return ps.add (single { classes := [.range c c] })

def skipComment (stop : Char) (mayEnd : Bool) : Reading Unit := do
  match behind? stop (← get).rest with
  | some rest => goTo rest
  | none => if mayEnd then goTo [] else throw .malformed

mutual

/-- Patterns with bars between them. The manner of the whole pattern may change in the first one. -/
def choices (fuel : Nat) (m : Manner) (isTop isFirst : Bool) : Reading Pattern :=
  match fuel with
  | 0 => throw .malformed
  | fuel + 1 => do
    let p ← pieces fuel m (isTop && isFirst) {}
    if ← skip '|' then
      let manner := (← get).manner
      return .choice p (← choices fuel (if isTop then manner else m) isTop false)
    else return p

def pieces (fuel : Nat) (m : Manner) (mayChange : Bool) (ps : Pieces) : Reading Pattern :=
  match fuel with
  | 0 => throw .malformed
  | fuel + 1 => do
    match ← next? with
    | none | some '|' | some ')' => return ps.whole
    | some c =>
      let _ ← take
      if m.isSpaced && " \t\n\r\x0b\x0c".toList.contains c then pieces fuel m mayChange ps
      else if m.isSpaced && c == '#' then
        skipComment '\n' true
        pieces fuel m mayChange ps
      else if c == '(' then
        match ← bracketed fuel m (mayChange && ps.last?.isNone) with
        | some p => pieces fuel m mayChange (ps.add p)
        | none =>
          let manner := (← get).manner
          pieces fuel (if mayChange then manner else m) mayChange ps
      else pieces fuel m mayChange (← plainPiece m ps c)

/-- What is behind an opening parenthesis, up to the closing one. Comments are no piece, nor is a
change of manner for the whole pattern. -/
def bracketed (fuel : Nat) (m : Manner) (mayChange : Bool) : Reading (Option Pattern) :=
  match fuel with
  | 0 => throw .malformed
  | fuel + 1 => do
    let inner (m : Manner) : Reading Pattern := do
      let p ← choices fuel m false false
      expect ')'
      return p
    let captured (name? : Option String) : Reading (Option Pattern) := do
      let number ← openGroup name?
      let p ← inner m
      closeGroup number p
      return some (.group number p)
    let looking (isBehind negated : Bool) : Reading (Option Pattern) := do
      let outside? := (← get).outside?
      if isBehind then
        modify fun r => { r with outside? := some (outside?.getD r.groupCount) }
      let p ← choices fuel m false false
      modify ({ · with outside? })
      expect ')'
      let widths := (← get).widths
      return some (.look (if isBehind then some (p.width widths) else none) negated p)
    if !(← skip '?') then captured none
    else
      match ← take with
      | 'P' =>
        if ← skip '<' then captured (some (← nameUntil '>'))
        else
          expect '='
          let number ← groupNamed (← nameUntil ')')
          checkGroup number
          return some (.back m number)
      | ':' => return some (← inner m)
      | '>' => return some (.atomic (← inner m))
      | '#' => skipComment ')' false; return none
      | '=' => looking false false
      | '!' => looking false true
      | '<' =>
        match ← take with
        | '=' => looking true false
        | '!' => looking true true
        | _ => throw .malformed
      | '(' =>
        let number ← conditionGroup
        let present ← pieces fuel m false {}
        let absent ← if ← skip '|' then pieces fuel m false {} else pure .empty
        expect ')'
        return some (.conditional number present absent)
      | c =>
        goTo (c :: (← get).rest)
        match ← flagGroup m with
        | some changed => return some (← inner changed)
        | none =>
          if !mayChange then throw .malformed
          return none

end

/-- Reads a pattern from its notation. -/
def read (s : String) : Except Fault Pattern := do
  let start : Reading Unit := goTo s.toList
  let (p, r) ← (do start; choices (3 * s.length + 3) {} true true).run { rest := s.toList }
  if r.chosen.contains 'a' && r.chosen.contains 'u' then throw .mixedScripts
  if r.rest ≠ [] || r.mentioned.any (r.groupCount < ·) || !p.looksFixed then throw .malformed
  return p

end Pattern

end Keyforge.Header
