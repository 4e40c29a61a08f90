import Keyforge.Shell.Machine

/-!
# Patterns

A star fits any text, a question mark one character, and brackets one of the characters they list.
Only characters outside of quotes have such a meaning.
-/

namespace Keyforge.Shell

/-- A character of a field; an `active` one may have a meaning in patterns. -/
structure Mark where
  char : Char
  active : Bool
  deriving Repr, DecidableEq

abbrev Field := List Mark

def Field.text (field : Field) : String := String.ofList (field.map (·.char))

namespace Pattern

inductive Listed where
  | range (low high : Char)
  | kind (name : String)
  deriving Repr, DecidableEq

inductive Item where
  | char (c : Char)
  | any
  | many
  | oneOf (negated : Bool) (listed : List Listed)
  deriving Repr, DecidableEq

/-! ### Kinds of characters -/

def isVisible (c : Char) : Bool := 33 ≤ c.toNat && c.toNat ≤ 126

def isPunctuation (c : Char) : Bool := isVisible c && !c.isAlphanum

def isSpace (c : Char) : Bool := c == ' ' || (9 ≤ c.toNat && c.toNat ≤ 13)

def kinds : List (String × (Char → Bool)) :=
  [("alnum", Char.isAlphanum), ("cntrl", fun c => c.toNat < 32 || c.toNat == 127),
    ("lower", Char.isLower), ("space", isSpace), ("alpha", Char.isAlpha), ("digit", Char.isDigit),
    ("print", fun c => c == ' ' || isVisible c), ("upper", Char.isUpper),
    ("blank", fun c => c == ' ' || c == '\t'), ("graph", isVisible), ("punct", isPunctuation),
    ("xdigit", fun c => c.isDigit || "abcdefABCDEF".toList.contains c)]

def Listed.has (c : Char) : Listed → Bool
  | .range low high => decide (low ≤ c) && decide (c ≤ high)
  | .kind name => ((kinds.lookup name).map (· c)).getD false

/-! ### Reading patterns -/

def isMark (m : Mark) (c : Char) : Bool := m.active && m.char == c

def kindAt? (field : Field) : Option (String × Field) :=
  kinds.findSome? fun (name, _) =>
    let written := (":" ++ name ++ ":]").toList
    if (field.take written.length).map (·.char) == written then
      some (name, field.drop written.length)
    else none

def listedFrom : (fuel : Nat) → (isFirst : Bool) → Field → Option (List Listed × Field)
  | 0, _, _ => none
  | _ + 1, _, [] => none
  | fuel + 1, isFirst, m :: rest =>
    let next (listed : Listed) (rest : Field) :=
      (listedFrom fuel false rest).map fun (more, after) => (listed :: more, after)
    if !isFirst && isMark m ']' then some ([], rest)
    else
      match if isMark m '[' then kindAt? rest else none with
      | some (name, after) => next (.kind name) after
      | none =>
        match rest with
        | dash :: high :: after =>
          if isMark dash '-' && !isMark high ']' then next (.range m.char high.char) after
          else next (.range m.char m.char) rest
        | _ => next (.range m.char m.char) rest

def bracketsAt? (field : Field) : Option (Item × Field) :=
  let negated := field.head?.any fun m => isMark m '!'
  let inner := if negated then field.drop 1 else field
  (listedFrom (inner.length + 1) true inner).map fun (listed, after) => (.oneOf negated listed, after)

def items : (fuel : Nat) → Field → List Item
  | 0, _ => []
  | _ + 1, [] => []
  | fuel + 1, m :: rest =>
    if !m.active then .char m.char :: items fuel rest
    else if m.char == '*' then .many :: items fuel rest
    else if m.char == '?' then .any :: items fuel rest
    else if m.char == '[' then
      match bracketsAt? rest with
      | some (item, after) => item :: items fuel after
      | none => .char m.char :: items fuel rest
    else .char m.char :: items fuel rest

def ofField (field : Field) : List Item := items field.length field

def isPlain (pattern : List Item) : Bool :=
  pattern.all fun
    | .char _ => true
    | _ => false

/-! ### Fitting texts -/

def someEnd (p : List Char → Bool) : List Char → Bool
  | [] => p []
  | c :: cs => p (c :: cs) || someEnd p cs

def Item.fits : Item → Char → Bool
  | .char d, c => c == d
  | .any, _ | .many, _ => true
  | .oneOf negated listed, c => (listed.any (·.has c)) != negated

def fits : List Item → List Char → Bool
  | [], cs => cs.isEmpty
  | .many :: rest, cs => someEnd (fits rest) cs
  | _ :: _, [] => false
  | item :: rest, c :: cs => item.fits c && fits rest cs

def trim (fromEnd longest : Bool) (pattern : List Item) (text : List Char) : List Char :=
  let lengths := List.range (text.length + 1)
  let lengths := if longest then lengths.reverse else lengths
  let part (n : Nat) := if fromEnd then text.drop (text.length - n) else text.take n
  match lengths.find? fun n => fits pattern (part n) with
  | some n => if fromEnd then text.take (text.length - n) else text.drop n
  | none => text

/-! ### Finding files -/

def fitsName (pattern : List Item) (name : String) : Bool :=
  (!name.startsWith "." || pattern.head? == some (.char '.')) && fits pattern name.toList

def components : Field → List Field
  | [] => [[]]
  | m :: rest =>
    match m.char == '/', components rest with
    | true, parts => [] :: parts
    | false, part :: parts => (m :: part) :: parts
    | false, [] => [[m]]

def isPresent (m : Machine) (path : String) : Bool := m.isDirectory path || m.isFile path

def namesFor (m : Machine) (front : String) (component : Field) : List String :=
  let pattern := ofField component
  if isPlain pattern then [component.text]
  else
    match m.place (if front == "" then "." else front) with
    | .found path .directory =>
      ("." :: ".." :: (m.tree.namesIn path).map spread).filter (fitsName pattern)
    | _ => []

def filesFor (m : Machine) (front : String) : List Field → List String
  | [] => []
  | [last] => ((namesFor m front last).map (front ++ ·)).filter (isPresent m)
  | component :: rest =>
    (namesFor m front component).flatMap fun name => filesFor m (front ++ name ++ "/") rest

end Pattern

def Field.expand (m : Machine) (field : Field) : List String :=
  if m.options.contains 'f' || Pattern.isPlain (Pattern.ofField field) then [field.text]
  else
    match Pattern.filesFor m "" (Pattern.components field) with
    | [] => [field.text]
    | files => files.mergeSort fun a b => File.Tree.textAtMost a.toList b.toList

end Keyforge.Shell
