import Keyforge.Layout.Basic

/-!
# Lines of documents

The forms of the lines a document consists of. All readers take a line without white space around
it.
-/

namespace Keyforge.Document.Line

/-- A dash and white space at the front: the text behind them. -/
def item? : List Char → Option (List Char)
  | '-' :: rest => Text.skipBlanks1? rest
  | _ => none

/-- Decimal digits at the front, at least one, and the text behind them. -/
def digits? (cs : List Char) : Option (List Char × List Char) :=
  let digits := cs.takeWhile Text.isDigit
  if digits.isEmpty then none else some (digits, cs.dropWhile Text.isDigit)

/-! ### Headings -/

def isHeading (cs : List Char) : Bool := ['#', '#', ' '].isPrefixOf cs

/-- The heading of a layer, `## Layer 0: Name`: the digits of its number and its name. -/
def layerHeading? (cs : List Char) : Option (List Char × String) := do
  let rest ← Text.skipBlanks1? (← Text.after? ['#', '#'] cs)
  let rest ← Text.skipBlanks1? (← Text.after? "Layer".toList rest)
  let (number, rest) ← digits? rest
  let name ← Text.skipBlanks1? (← Text.after? [':'] rest)
  if name.isEmpty then none else some (number, String.ofList (Text.trim name))

/-- The sections of a document besides the layers. -/
inductive Section where
  | categories
  | descriptions
  | settings
  | tapDances
  deriving Repr, DecidableEq

/-- The section a heading opens; headings are compared in small letters. -/
def section? (cs : List Char) : Option Section :=
  match Text.lower (String.ofList (Text.trim (cs.drop 3))) with
  | "categories" => some .categories
  | "key descriptions" => some .descriptions
  | "settings" => some .settings
  | "tap dances" => some .tapDances
  | _ => none

/-! ### Properties -/

/-- Cuts a text before the first `**:` that at least one character precedes; `name` holds the
characters passed, last one first. -/
def splitBold (name : List Char) : List Char → Option (List Char × List Char)
  | [] => none
  | c :: rest =>
    match name.isEmpty, c :: rest with
    | false, '*' :: '*' :: ':' :: value => some (name.reverse, value)
    | _, _ => splitBold (c :: name) rest

/-- A property, `**Name**: value`: its name as it stands there, and its trimmed value. -/
def property? (cs : List Char) : Option (List Char × List Char) := do
  let (name, value) ← splitBold [] (← Text.after? ['*', '*'] cs)
  return (name, Text.trim value)

/-! ### Tables -/

def isRow (cs : List Char) : Bool := cs.head? == some '|'

/-- Whether a cell separates the header of a table from its rows: dashes between optional colons. -/
def isSeparator (cs : List Char) : Bool :=
  let rest := if cs.head? == some ':' then cs.drop 1 else cs
  let tail := rest.dropWhile (· == '-')
  rest.head? == some '-' && (tail.isEmpty || tail == [':'])

/-- The trimmed cells of a row with the columns they start at; `offset` is the column of the bar
before the first of them, counted from one. -/
def placeCells : Nat → List (List Char) → List (List Char × Nat)
  | _, [] => []
  | offset, raw :: rest =>
    let lead := raw.length - (Text.trimLeft raw).length
    (Text.trim raw, offset + lead + 1) :: placeCells (offset + Text.size raw + 1) rest

/-- The cells of a row, none if the row is not closed by a bar. `indent` characters precede the row
in its line. -/
def cells? (indent : Nat) (cs : List Char) : Option (List (List Char × Nat)) :=
  if cs.length < 2 || cs.getLast? != some '|' then none
  else some (placeCells (indent + 1) (Text.splitAt '|' (cs.drop 1).dropLast))

/-! ### Entries of the sections -/

structure CategoryEntry where
  id : String
  name : String
  color : Color
  description? : Option String
  deriving Repr, DecidableEq

/-- The color in parentheses at the front: the color and the text behind it. -/
def parenthesizedColor? : List Char → Option (Color × List Char)
  | '(' :: '#' :: a :: b :: c :: d :: e :: f :: ')' :: rest =>
    (Color.ofDigits? [a, b, c, d, e, f]).map fun color => (color, rest)
  | _ => none

/-- What may follow the color of a category: nothing, or a dash and a description. -/
def colorTail? (cs : List Char) : Option (Option String) :=
  if cs.isEmpty then some none
  else do
    let rest ← Text.after? ['-'] (← Text.skipBlanks1? cs)
    let description ← Text.skipBlanks1? rest
    if description.isEmpty then none else some (some (String.ofList description))

/-- The color of a category after white space, and the description behind it. -/
def categoryTail? (cs : List Char) : Option (Color × Option String) := do
  let (color, rest) ← parenthesizedColor? (← Text.skipBlanks1? cs)
  let description? ← colorTail? rest
  return (color, description?)

/-- The shortest name, of at least one character, that a color follows; `name` holds the characters
passed, last one first. -/
def categoryName? (name : List Char) : List Char → Option (List Char × Color × Option String)
  | [] => none
  | c :: rest =>
    match if name.isEmpty then none else categoryTail? (c :: rest) with
    | some (color, description?) => some (name.reverse, color, description?)
    | none => categoryName? (c :: name) rest

/-- Names are tried from the last blank before them on to the left, as a name may consist of
blanks. `count` is the number of blanks that are skipped. -/
def categoryBody? : (count : Nat) → List Char → Option (List Char × Color × Option String)
  | 0, _ => none
  | count + 1, cs =>
    match categoryName? [] (cs.drop (count + 1)) with
    | some found => some found
    | none => categoryBody? count cs

/-- An entry of the categories, `- id: Name (#RRGGBB) - description`. -/
def category? (cs : List Char) : Option CategoryEntry := do
  let rest ← item? cs
  let id := rest.takeWhile Name.isCategoryChar
  if !Name.isCategoryId id then none
  let rest ← Text.after? [':'] (rest.dropWhile Name.isCategoryChar)
  let (name, color, description?) ← categoryBody? (rest.takeWhile Text.isBlank).length rest
  return ⟨String.ofList id, String.ofList name, color, description?⟩

/-- The description of a key as its entry gives it, numbers by their digits. -/
structure DescriptionEntry where
  layer : List Char
  row : List Char
  col : List Char
  text : String
  deriving Repr, DecidableEq

/-- An entry of the key descriptions, `- layer:row:col: text`. -/
def description? (cs : List Char) : Option DescriptionEntry := do
  let (layer, rest) ← digits? (← item? cs)
  let (row, rest) ← digits? (← Text.after? [':'] rest)
  let (col, rest) ← digits? (← Text.after? [':'] rest)
  let text ← Text.after? [':'] rest
  return ⟨layer, row, col, String.ofList (Text.trim text)⟩

/-! ### Tap dances -/

/-- Whether a character counts as a given small letter when case does not matter. The long s and
the two special i count as s and i. -/
def sameLetter (p c : Char) : Bool :=
  c.toLower == p || (p == 's' && c == 'ſ') || (p == 'i' && (c == 'ı' || c == 'İ'))

/-- The text behind a given start when case does not matter, and the start as it stands there. -/
def afterWord? : List Char → List Char → Option (List Char × List Char)
  | [], cs => some ([], cs)
  | p :: ps, c :: cs =>
    if sameLetter p c then (afterWord? ps cs).map fun (word, rest) => (c :: word, rest) else none
  | _ :: _, [] => none

def actionWords : List String := ["single tap", "double tap", "hold"]

/-- An action of a tap dance, `- Single Tap: KC_A`: the word as it stands there and the keycode. -/
def action? (cs : List Char) : Option (String × String) := do
  let rest ← item? cs
  let (word, rest) ← actionWords.findSome? fun word => afterWord? (word.toList ++ [':']) rest
  if rest.isEmpty then none
  else some (String.ofList word.dropLast, String.ofList (Text.trim rest))

/-- The shortest name, of at least one character, that is closed by the end of the line; `name`
holds the characters passed, last one first. -/
def closedName? (name : List Char) : List Char → Option (List Char)
  | [] => none
  | c :: rest =>
    if !name.isEmpty && (c :: rest == ['*', '*'] || c :: rest == ['*', '*', ':']) then
      some name.reverse
    else closedName? (c :: name) rest

/-- The name of a tap dance, `- **name**:`. -/
def tapDance? (cs : List Char) : Option String := do
  let name ← closedName? [] (← Text.after? ['*', '*'] (← item? cs))
  return String.ofList (Text.trim name)

end Keyforge.Document.Line
