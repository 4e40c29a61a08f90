import Keyforge.Datum.Decode
import Keyforge.Keycode.Reference

/-!
# Keycode tables

A table lists the keycodes that are known, by name and by how names start. It only serves warnings:
a keycode is looked up through the identifiers it is made of.
-/

namespace Keyforge.Keycode

/-! ### Identifiers -/

def isIdentifierStart (c : Char) : Bool := c.isAlpha || c == '_'

def isIdentifierChar (c : Char) : Bool := c.isAlphanum || c == '_'

/-- The identifiers in a text; `current` holds the characters of the one at hand, last one first. -/
def identifiersFrom (current : List Char) : List Char → List (List Char)
  | [] => if current.isEmpty then [] else [current.reverse]
  | c :: rest =>
    if current.isEmpty then
      if isIdentifierStart c then identifiersFrom [c] rest else identifiersFrom [] rest
    else if isIdentifierChar c then identifiersFrom (c :: current) rest
    else current.reverse :: identifiersFrom [] rest

/-- A keycode with zeros in place of its references to layers. -/
def blankLayers (cs : List Char) : List Char :=
  (layerPieces cs).flatMap fun
    | .char c => [c]
    | .layer _ => ['0']

/-- A keycode with zeros in place of the names of its tap dances. -/
def blankTapDances (cs : List Char) : List Char :=
  (tapDancePieces cs).flatMap (TapDancePiece.replace fun _ => ['0'])

/-- The identifiers a keycode is made of, `LT` and `KC_SPC` for `LT(1, KC_SPC)`. References count
as numbers. -/
def identifiers (keycode : String) : List String :=
  (identifiersFrom [] (blankTapDances (blankLayers keycode.toList))).map String.ofList

/-! ### Tables -/

/-- The known keycodes and those that need lights, by name and by the start of the name. -/
structure Table where
  names : List String := []
  starts : List String := []
  lightingNames : List String := []
  lightingStarts : List String := []
  deriving Repr, DecidableEq, Inhabited

namespace Table

/-- Whether an identifier is one of some names or starts as one of some starts. -/
def covers (names starts : List String) (word : String) : Bool :=
  names.contains word || starts.any fun start => start.toList.isPrefixOf word.toList

/-- Whether a keycode is known, which all of its identifiers have to be. -/
def isKnown (t : Table) (keycode : String) : Bool :=
  (identifiers keycode).all (covers t.names t.starts)

/-- Whether a keycode only makes sense on boards with lights. -/
def needsLighting (t : Table) (keycode : String) : Bool :=
  (identifiers keycode).any (covers t.lightingNames t.lightingStarts)

def ofEntries (es : List (Datum × Datum)) : Datum.Verdict Table :=
  Table.mk <$> Datum.withDefault es "keycodes" [] (.setOf .text) <*>
    Datum.withDefault es "prefixes" [] (.listOf .text) <*>
    Datum.withDefault es "lighting_keycodes" [] (.setOf .text) <*>
    Datum.withDefault es "lighting_prefixes" [] (.listOf .text)

end Table

end Keyforge.Keycode
