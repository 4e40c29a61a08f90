import Keyforge.Number.Read
import Keyforge.Text.Case
import Keyforge.Text.Lines

/-!
# References in keycodes

A keycode may refer to a layer by its id, as in `MO(@nav)`, and to a tap dance by its name, as in
`TD(caps)`.
-/

namespace Keyforge.Keycode

def isNameChar (c : Char) : Bool := !(Text.isBlank c || c == ',' || c == '(' || c == ')')

theorem length_dropWhile_le (p : α → Bool) (l : List α) : (l.dropWhile p).length ≤ l.length :=
  (List.dropWhile_suffix p).length_le

/-! ### Layers -/

/-- A character of the text or the id of a layer that is referred to. -/
inductive LayerPiece where
  | char (c : Char)
  | layer (id : List Char)
  deriving Repr, DecidableEq

def layerPieces : List Char → List LayerPiece
  | [] => []
  | c :: rest =>
    if c == '@' then
      .layer (rest.takeWhile isNameChar) :: layerPieces (rest.dropWhile isNameChar)
    else .char c :: layerPieces rest
termination_by cs => cs.length
decreasing_by
  · exact Nat.lt_succ_of_le (length_dropWhile_le _ _)
  · exact Nat.lt_succ_self _

def LayerPiece.id? : LayerPiece → Option String
  | .char _ => none
  | .layer id => some (String.ofList id)

/-- The layer ids in a keycode, in order. -/
def layerReferences (keycode : String) : List String :=
  (layerPieces keycode.toList).filterMap LayerPiece.id?

/-- A keycode refers to a layer that does not exist. -/
structure UnknownLayer where
  id : String
  deriving Repr, DecidableEq

/-- A piece with the number of the layer in place of a reference to it. -/
def LayerPiece.resolve (layers : List (String × Int)) : LayerPiece → Except UnknownLayer (List Char)
  | .char c => .ok [c]
  | .layer id =>
    match layers.lookup (String.ofList id) with
    | some index => .ok (Text.intText index).toList
    | none => .error ⟨String.ofList id⟩

/-- Replaces pieces one after the other; the first unknown id ends it. -/
def resolvePieces (layers : List (String × Int)) : List LayerPiece → Except UnknownLayer (List Char)
  | [] => .ok []
  | piece :: rest => do
    let first ← piece.resolve layers
    let others ← resolvePieces layers rest
    return first ++ others

/-- Replaces each layer id by the number it stands for. -/
def resolveLayers (layers : List (String × Int)) (keycode : String) : Except UnknownLayer String :=
  (resolvePieces layers (layerPieces keycode.toList)).map String.ofList

/-! ### Tap dances -/

/-- A character of the text or the name of a tap dance that is referred to. -/
inductive TapDancePiece where
  | char (c : Char)
  | tapDance (name : List Char)
  deriving Repr, DecidableEq

/-- A reference to a tap dance at the front: its name and the text behind it. -/
def tapDance? : List Char → Option (List Char × List Char)
  | 'T' :: 'D' :: '(' :: rest =>
    let rest := Text.trimLeft rest
    match Text.trimLeft (rest.dropWhile isNameChar) with
    | ')' :: after => some (rest.takeWhile isNameChar, after)
    | _ => none
  | _ => none

/-- What follows a reference is shorter than what it was found in. -/
theorem length_lt_of_tapDance? {cs name after : List Char}
    (h : tapDance? cs = some (name, after)) : after.length < cs.length := by
  unfold tapDance? at h
  split at h
  · rename_i rest
    simp only [Text.trimLeft] at h
    split at h
    · rename_i tail heq
      have hle : tail.length + 1 ≤ rest.length := by
        have := congrArg List.length heq
        simp only [List.length_cons] at this
        have h1 := length_dropWhile_le Text.isBlank
          ((rest.dropWhile Text.isBlank).dropWhile isNameChar)
        have h2 := length_dropWhile_le isNameChar (rest.dropWhile Text.isBlank)
        have h3 := length_dropWhile_le Text.isBlank rest
        omega
      cases h
      simp only [List.length_cons]
      omega
    · cases h
  · cases h

/-- Cuts a keycode at its references to tap dances. A reference does not start inside a word;
`inWord` tells whether the character before the text belongs to one. -/
def tapDancePiecesFrom (inWord : Bool) (cs : List Char) : List TapDancePiece :=
  match cs with
  | [] => []
  | c :: rest =>
    match _h : (if inWord then none else tapDance? (c :: rest)) with
    | some (name, after) => .tapDance name :: tapDancePiecesFrom false after
    | none => .char c :: tapDancePiecesFrom (Text.isWord c) rest
termination_by cs.length
decreasing_by
  · cases inWord
    · exact length_lt_of_tapDance? (by simpa using _h)
    · simp at _h
  · exact Nat.lt_succ_self _

def tapDancePieces (cs : List Char) : List TapDancePiece := tapDancePiecesFrom false cs

def TapDancePiece.name? : TapDancePiece → Option String
  | .char _ => none
  | .tapDance name => some (String.ofList name)

/-- The names of tap dances in a keycode, in order. -/
def tapDanceReferences (keycode : String) : List String :=
  (tapDancePieces keycode.toList).filterMap TapDancePiece.name?

/-- The enumerator that stands for a tap dance in the firmware. -/
def enumerator (name : String) : String := "TD_" ++ Text.upper name

/-- A piece with the text `f` gives for the name in place of a reference. -/
def TapDancePiece.replace (f : List Char → List Char) : TapDancePiece → List Char
  | .char c => [c]
  | .tapDance name => 'T' :: 'D' :: '(' :: f name ++ [')']

/-- A keycode with enumerators in place of the names of tap dances. -/
def resolveTapDances (keycode : String) : String :=
  String.ofList <| (tapDancePieces keycode.toList).flatMap <|
    TapDancePiece.replace fun name => (enumerator (String.ofList name)).toList

/-- A keycode as the firmware sources have it: layer ids and tap dance names are replaced. -/
def emit (layers : List (String × Int)) (keycode : String) : Except UnknownLayer String :=
  (resolveLayers layers keycode).map resolveTapDances

/-! ### Layer functions with numbers -/

def layerFunctions : List String := ["MO", "TG", "TO", "TT", "DF", "PDF", "OSL", "LT", "LM"]

/-- A layer function with a number as its first argument at the front: the digits of the number. -/
def targetDigits? (cs : List Char) : Option (List Char) := do
  let rest ← layerFunctions.findSome? fun name => Text.after? (name.toList ++ ['(']) cs
  let rest := Text.trimLeft rest
  let digits := rest.takeWhile Text.isDigit
  if digits.isEmpty then none
  match Text.trimLeft (rest.dropWhile Text.isDigit) with
  | ',' :: _ | ')' :: _ => some digits
  | _ => none

/-- The digits of the layers that layer functions name. Behind the first two letters of one
function, no other starts before its end. -/
def targetDigitsFrom : List Char → List (List Char)
  | c :: d :: rest =>
    match targetDigits? (c :: d :: rest) with
    | some digits => digits :: targetDigitsFrom rest
    | none => targetDigitsFrom (d :: rest)
  | _ => []

/-- The numbers of the layers a keycode targets, `[2]` for `MO(2)`. -/
def numericTargets (keycode : String) : List Nat :=
  (targetDigitsFrom keycode.toList).map Text.natOfDigits

/-- Checks that the numbers of the layers a keycode targets do not have too many digits. -/
def checkTargets (keycode : String) : Except Number.IntegerError Unit :=
  (targetDigitsFrom keycode.toList).forM fun digits => discard (Number.ofDigits digits)

end Keyforge.Keycode
