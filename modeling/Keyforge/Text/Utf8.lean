import Keyforge.Text.CodePoint

/-!
# UTF-8

Texts are encoded in bytes and bytes are decoded as text. Some bytes encode nothing; they come in
pieces, one for every longest start of an encoding that is cut short and one for every byte that
starts none.
-/

namespace Keyforge.Text

/-! ### Decoding -/

/-- A character that is not complete: its bytes, last one first, its value so far and what the missing
bytes can be. -/
structure Unfinished where
  bytes : List UInt8
  value : Nat
  missing : List (Nat × Nat)

def continuation : Nat × Nat := (0x80, 0xBF)

def startByte? (b : Nat) : Option (Nat × List (Nat × Nat)) :=
  if b < 0xC2 then none
  else if b < 0xE0 then some (b - 0xC0, [continuation])
  else if b == 0xE0 then some (0, [(0xA0, 0xBF), continuation])
  else if b == 0xED then some (b - 0xE0, [(0x80, 0x9F), continuation])
  else if b < 0xF0 then some (b - 0xE0, [continuation, continuation])
  else if b == 0xF0 then some (0, [(0x90, 0xBF), continuation, continuation])
  else if b < 0xF4 then some (b - 0xF0, [continuation, continuation, continuation])
  else if b == 0xF4 then some (4, [(0x80, 0x8F), continuation, continuation])
  else none

def startByte (bad : List UInt8 → List Char) (b : UInt8) : List Char × Option Unfinished :=
  if b.toNat < 0x80 then ([Char.ofNat b.toNat], none)
  else
    match startByte? b.toNat with
    | some (value, missing) => ([], some ⟨[b], value, missing⟩)
    | none => (bad [b], none)

def decodeFrom (bad : List UInt8 → List Char) : Option Unfinished → List UInt8 → List Char
  | none, [] => []
  | some u, [] => bad u.bytes.reverse
  | none, b :: rest =>
    let (chars, next?) := startByte bad b
    chars ++ decodeFrom bad next? rest
  | some u, b :: rest =>
    match u.missing with
    | (low, high) :: missing =>
      if low ≤ b.toNat && b.toNat ≤ high then
        let value := u.value * 64 + (b.toNat - 0x80)
        if missing.isEmpty then ofCode value ++ decodeFrom bad none rest
        else decodeFrom bad (some ⟨b :: u.bytes, value, missing⟩) rest
      else
        let (chars, next?) := startByte bad b
        bad u.bytes.reverse ++ chars ++ decodeFrom bad next? rest
    | [] =>
      let (chars, next?) := startByte bad b
      ofCode u.value ++ chars ++ decodeFrom bad next? rest

def decode (bytes : List UInt8) : String :=
  String.ofList (decodeFrom (fun _ => [replacement]) none bytes)

def decodeExact (bytes : List UInt8) : String :=
  String.ofList (decodeFrom (fun bad => bad.flatMap fun b => ofCode (0xdc00 + b.toNat)) none bytes)

/-! ### Encoding -/

def isByteHalf (code : Nat) : Bool := 0xdc80 ≤ code && code < 0xdd00

def codeBytes (code : Nat) : List UInt8 :=
  if isByteHalf code then [UInt8.ofNat (code - 0xdc00)]
  else if isHalf code then []
  else String.utf8EncodeChar (Char.ofNat code)

def encode (s : String) : List UInt8 := (codes s.toList).flatMap codeBytes

/-- Halves that cannot be encoded, from one place in a text to another. -/
structure Unencodable where
  code : Nat
  first : Nat
  last : Nat
  deriving Repr, DecidableEq

def unencodableFrom? (isAllowed : Nat → Bool) : (place : Nat) → List Nat → Option Unencodable
  | _, [] => none
  | place, code :: rest =>
    if isHalf code && !isAllowed code then
      some ⟨code, place, place + (rest.takeWhile isHalf).length⟩
    else unencodableFrom? isAllowed (place + 1) rest

def unencodable? (s : String) : Option Unencodable :=
  unencodableFrom? (fun _ => false) 0 (codes s.toList)

def unencodableName? (s : String) : Option Unencodable :=
  unencodableFrom? isByteHalf 0 (codes s.toList)

end Keyforge.Text
