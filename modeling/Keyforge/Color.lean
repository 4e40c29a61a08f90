import Keyforge.Datum.Decode

/-!
# Colors

A color has three channels of eight bits. It is written as a hash and six hexadecimal digits.
-/

namespace Keyforge

structure Color where
  red : Fin 256
  green : Fin 256
  blue : Fin 256
  deriving Repr, DecidableEq, Inhabited

namespace Color

inductive Invalid where
  | channel (value : Int)
  | malformed (text : String)
  deriving Repr, DecidableEq

def Invalid.message : Invalid → String
  | .channel value => "Color channel value " ++ Text.intText value ++ " is outside of 0-255"
  | .malformed text => "\"" ++ text ++ "\" is not a valid #RRGGBB color"

def channel (value : Int) : Except Invalid (Fin 256) :=
  if h : 0 ≤ value ∧ value ≤ 255 then .ok ⟨value.toNat, by omega⟩ else .error (.channel value)

/-- The color with the given channels; the first one out of range is reported. -/
def ofChannels (red green blue : Int) : Except Invalid Color := do
  let r ← channel red
  let g ← channel green
  let b ← channel blue
  return ⟨r, g, b⟩

def hexDigit? (c : Char) : Option Nat :=
  if '0' ≤ c && c ≤ '9' then some (c.toNat - '0'.toNat)
  else if 'a' ≤ c && c ≤ 'f' then some (c.toNat - 'a'.toNat + 10)
  else if 'A' ≤ c && c ≤ 'F' then some (c.toNat - 'A'.toNat + 10)
  else none

def hexChannel? (high low : Char) : Option (Fin 256) := do
  let h ← hexDigit? high
  let l ← hexDigit? low
  return Fin.ofNat 256 (16 * h + l)

def ofDigits? : List Char → Option Color
  | [a, b, c, d, e, f] => do return ⟨← hexChannel? a b, ← hexChannel? c d, ← hexChannel? e f⟩
  | _ => none

def ofHex (s : String) : Except Invalid Color :=
  let digits :=
    match Text.trim s.toList with
    | '#' :: rest => rest
    | cs => cs
  match ofDigits? digits with
  | some color => .ok color
  | none => .error (.malformed s)

/-- Two hexadecimal digits of a channel, in capitals. -/
def channelText (c : Fin 256) : List Char := (Text.hexText 2 c).map Char.toUpper

def hexChars (c : Color) : List Char :=
  '#' :: channelText c.red ++ channelText c.green ++ channelText c.blue

/-- A color as it is written, `#RRGGBB`. -/
def hex (c : Color) : String := String.ofList c.hexChars

def white : Color := ⟨255, 255, 255⟩

def ofExcept : Except Invalid Color → Datum.Verdict Color
  | .ok color => .ok color
  | .error e => .fault (.refused e.message)

/-- A color given by its text or by its channels `r`, `g` and `b`. -/
def decode : Datum.Decoder Color
  | .text s => ofExcept (ofHex s)
  | .map es =>
    let channels := (fun r g b => (r, g, b)) <$> Datum.required es "r" .integer <*>
      Datum.required es "g" .integer <*> Datum.required es "b" .integer
    channels.andThen fun (r, g, b) => ofExcept (ofChannels r g b)
  | _ => .fault .notRecord

end Color

end Keyforge
