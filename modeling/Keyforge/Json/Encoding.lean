import Keyforge.Text.Utf8

/-!
# Encodings of JSON

A JSON file may be encoded in units of one, two or four bytes. As a JSON text starts with characters
of ASCII, the zero bytes at its start tell which, and in what order the bytes of a unit come.
-/

namespace Keyforge.Json

/-- How a text is encoded: in UTF-8, or in units of two or four bytes. -/
inductive Encoding where
  | utf8
  | units2 (bigEndian : Bool)
  | units4 (bigEndian : Bool)
  deriving Repr, DecidableEq

def Encoding.detect : List UInt8 → Encoding
  | [a, b] => if a = 0 then .units2 true else if b = 0 then .units2 false else .utf8
  | a :: b :: c :: d :: _ =>
    if a = 0 then if b = 0 then .units4 true else .units2 true
    else if b = 0 then if c = 0 && d = 0 then .units4 false else .units2 false
    else .utf8
  | _ => .utf8

def unitOf (bigEndian : Bool) (bytes : List UInt8) : Nat :=
  (if bigEndian then bytes else bytes.reverse).foldl (fun n b => 256 * n + b.toNat) 0

def units2? (bigEndian : Bool) : List UInt8 → Option (List Nat)
  | [] => some []
  | a :: b :: rest => (units2? bigEndian rest).map (unitOf bigEndian [a, b] :: ·)
  | [_] => none

def units4? (bigEndian : Bool) : List UInt8 → Option (List Nat)
  | [] => some []
  | a :: b :: c :: d :: rest => (units4? bigEndian rest).map (unitOf bigEndian [a, b, c, d] :: ·)
  | _ => none

def codesOfUnits : List Nat → List Nat
  | high :: low :: rest =>
    if Text.isHighHalf high && Text.isLowHalf low then
      Text.joinHalves high low :: codesOfUnits rest
    else high :: codesOfUnits (low :: rest)
  | units => units

def ofCodes? (codes : List Nat) : Option String :=
  if codes.all (· ≤ 0x10ffff) then some (String.ofList (codes.flatMap Text.ofCode)) else none

def decodeFile? (content : String) : Option String :=
  match content.toList with
  | '\ufeff' :: rest => some (String.ofList rest)
  | _ =>
    let bytes := Text.encode content
    match Encoding.detect bytes with
    | .utf8 => some content
    | .units2 bigEndian => (units2? bigEndian bytes).bind fun units => ofCodes? (codesOfUnits units)
    | .units4 bigEndian => (units4? bigEndian bytes).bind ofCodes?

end Keyforge.Json
