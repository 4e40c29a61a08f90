import Keyforge.Layout.Basic

/-!
# Table cells

A cell of a layer's table holds a keycode, then, if there is one, a color in braces, then, if there
is one, an at sign and a category id: `KC_A\x7b#FF0000\x7d@nav`.
-/

namespace Keyforge.Document

structure Cell where
  keycode : String
  color? : Option Color := none
  category? : Option String := none
  deriving Repr, DecidableEq

namespace Cell

inductive Cause where
  | unopened
  | unclosed
  | keycode (text : String)
  | unterminatedColor
  | color (text : String)
  | category (text : String)
  | trailing (text : String)
  deriving Repr, DecidableEq

def Cause.message : Cause → String
  | .unopened => "unbalanced ')' in keycode"
  | .unclosed => "unbalanced '(' in keycode"
  | .keycode text => "malformed keycode \"" ++ text ++ "\""
  | .unterminatedColor => "unterminated color suffix, expected \x7b#RRGGBB\x7d"
  | .color text => "malformed color \"" ++ text ++ "\", expected \x7b#RRGGBB\x7d"
  | .category text => "malformed category id \"" ++ text ++ "\", expected @kebab-case-id"
  | .trailing text => "unexpected text \"" ++ text ++ "\" after keycode"

/-- A malformed cell: why, and how many characters into it. -/
structure Malformed where
  cause : Cause
  offset : Nat
  deriving Repr, DecidableEq

/-! ### Keycodes -/

/-- How far a keycode reaches. -/
inductive Extent where
  /-- A parenthesis is closed that is not open, after this many characters. -/
  | unopened (length : Nat)
  | unclosed
  | upTo (length : Nat)
  deriving Repr, DecidableEq

/-- Measures the keycode at the front of a text: it reaches up to the first brace or at sign outside
of parentheses. `depth` parentheses are open, and `seen` characters precede. -/
def extent (depth seen : Nat) : List Char → Extent
  | [] => if depth = 0 then .upTo seen else .unclosed
  | c :: rest =>
    if c == '(' then extent (depth + 1) (seen + 1) rest
    else if c == ')' then
      match depth with
      | 0 => .unopened seen
      | depth + 1 => extent depth (seen + 1) rest
    else if depth = 0 && (c == '\x7b' || c == '@') then .upTo seen
    else extent depth (seen + 1) rest

def isNameStart (c : Char) : Bool := c.isAlpha || c == '_'

def isNameChar (c : Char) : Bool := c.isAlphanum || c == '_'

def isArgumentText : List Char → Bool
  | [] => true
  | c :: rest => c == '(' && rest.getLast? == some ')' && !rest.contains '\n'

/-- Whether a text has the form of a keycode: a name, alone or followed by a text in parentheses. -/
def isKeycode : List Char → Bool
  | [] => false
  | c :: rest => isNameStart c && isArgumentText (rest.dropWhile isNameChar)

/-! ### Suffixes -/

/-- The color of a color suffix's inner text, a hash and six digits. -/
def suffixColor? : List Char → Option Color
  | '#' :: digits => Color.ofDigits? digits
  | _ => none

/-- The category suffix, if any, which has to be all of the text from `offset` on. -/
def categorySuffix (offset : Nat) : List Char → Except Malformed (Option String)
  | [] => .ok none
  | '@' :: id =>
    if Name.isCategoryId id then .ok (some (String.ofList id))
    else .error ⟨.category (String.ofList id), offset + 1⟩
  | rest => .error ⟨.trailing (String.ofList rest), offset⟩

/-- The color suffix, if any, at the front of the text from `offset` on, and the text behind it. -/
def colorSuffix (offset : Nat) : List Char → Except Malformed (Option Color × Nat × List Char)
  | '\x7b' :: rest =>
    let inner := rest.takeWhile (· != '\x7d')
    if inner.length = rest.length then .error ⟨.unterminatedColor, offset⟩
    else
      match suffixColor? inner with
      | some color =>
        .ok (some color, offset + inner.length + 2, rest.drop (inner.length + 1))
      | none => .error ⟨.color (String.ofList inner), offset + 1⟩
  | rest => .ok (none, offset, rest)

/-! ### Cells -/

def read (cs : List Char) : Except Malformed Cell :=
  match extent 0 0 cs with
  | .unopened length => .error ⟨.unopened, Text.size (cs.take length)⟩
  | .unclosed => .error ⟨.unclosed, Text.size (cs.takeWhile (· != '('))⟩
  | .upTo length =>
    let keycode := Text.trimRight (cs.take length)
    if !isKeycode keycode then .error ⟨.keycode (String.ofList keycode), 0⟩
    else do
      let (color?, offset, rest) ← colorSuffix (Text.size (cs.take length)) (cs.drop length)
      let category? ← categorySuffix offset rest
      return ⟨String.ofList keycode, color?, category?⟩

def ofKey (key : Key) : Cell := ⟨key.keycode, key.color?, key.category?⟩

def text (cell : Cell) : String :=
  cell.keycode ++
    (match cell.color? with
      | some color => "\x7b" ++ color.hex ++ "\x7d"
      | none => "") ++
    (match cell.category? with
      | some id => "@" ++ id
      | none => "")

end Cell

end Keyforge.Document
