import Keyforge.Datum.Basic
import Keyforge.Json.Encoding

/-!
# Reading JSON

Board definitions and cached answers are JSON. Numbers with a fraction or an exponent become
floating point numbers, all others stay exact.
-/

namespace Keyforge.Json

def isSpace (c : Char) : Bool := c == ' ' || c == '\t' || c == '\n' || c == '\r'

def skip (cs : List Char) : List Char := cs.dropWhile isSpace

def hexValue? (c : Char) : Option Nat :=
  if c.isDigit then some (c.toNat - '0'.toNat)
  else if 'a' ≤ c && c ≤ 'f' then some (c.toNat - 'a'.toNat + 10)
  else if 'A' ≤ c && c ≤ 'F' then some (c.toNat - 'A'.toNat + 10)
  else none

def hexNumber? (cs : List Char) : Option Nat :=
  cs.foldlM (fun n c => (hexValue? c).map (16 * n + ·)) 0

def shortEscape? (c : Char) : Option Char :=
  [('"', '"'), ('\\', '\\'), ('/', '/'), ('b', '\x08'), ('f', '\x0c'), ('n', '\n'), ('r', '\r'),
    ('t', '\t')].lookup c

inductive Fault where
  | malformed
  | tooLong (digits : Nat)
  | undecodable
  | tooDeep
  deriving Repr, DecidableEq

def readString (acc : List Char) : List Char → Except Fault (String × List Char)
  | [] => .error .malformed
  | '"' :: rest => .ok (String.ofList acc.reverse, rest)
  | '\\' :: 'u' :: a :: b :: c :: d :: '\\' :: 'u' :: e :: f :: g :: h :: rest =>
    match hexNumber? [a, b, c, d] with
    | none => .error .malformed
    | some high =>
      match hexNumber? [e, f, g, h] with
      | some low =>
        if Text.isHighHalf high && Text.isLowHalf low then
          readString ((Text.ofCode (Text.joinHalves high low)).reverse ++ acc) rest
        else
          readString ((Text.ofCode high).reverse ++ acc) ('\\' :: 'u' :: e :: f :: g :: h :: rest)
      | none => .error .malformed
  | '\\' :: 'u' :: a :: b :: c :: d :: rest =>
    match hexNumber? [a, b, c, d] with
    | none => .error .malformed
    | some code => readString ((Text.ofCode code).reverse ++ acc) rest
  | '\\' :: c :: rest =>
    match shortEscape? c with
    | none => .error .malformed
    | some e => readString (e :: acc) rest
  | c :: rest => if c.toNat < 0x20 then .error .malformed else readString (c :: acc) rest

def takeFraction (cs : List Char) : List Char × List Char :=
  match cs with
  | '.' :: tail =>
    let (digits, tail) := tail.span Char.isDigit
    if digits.isEmpty then ([], cs) else (digits, tail)
  | _ => ([], cs)

def takeExponent (cs : List Char) : Option Int × List Char :=
  match cs with
  | c :: tail =>
    if c == 'e' || c == 'E' then
      let (minus, digits) := Number.takeSign tail
      let (digits, tail) := digits.span Char.isDigit
      if digits.isEmpty then (none, cs)
      else
        let n : Int := Text.natOfDigits digits
        (some (if minus then -n else n), tail)
    else (none, cs)
  | [] => (none, cs)

def readNumber (cs : List Char) : Except Fault (Datum × List Char) :=
  let (negative, body) :=
    match cs with
    | '-' :: rest => (true, rest)
    | _ => (false, cs)
  let (whole, rest) :=
    match body with
    | '0' :: rest => (['0'], rest)
    | _ => body.span Char.isDigit
  if whole.isEmpty then .error .malformed
  else
    let (fraction, rest) := takeFraction rest
    let (exponent, rest) := takeExponent rest
    if fraction.isEmpty && exponent.isNone then
      match Number.ofDigits whole with
      | .ok n => .ok (.int (if negative then -(n : Int) else n), rest)
      | .error (.tooLong digits) => .error (.tooLong digits)
      | .error _ => .error .malformed
    else
      let mantissa := Text.natOfDigits (whole ++ fraction)
      .ok (.float (Number.floatOfDecimal negative mantissa (exponent.getD 0 - fraction.length)), rest)

def afterWord? (word : List Char) (cs : List Char) : Option (List Char) :=
  if word.isPrefixOf cs then some (cs.drop word.length) else none

def readWord? (cs : List Char) : Option (Datum × List Char) :=
  let words : List (String × Datum) :=
    [("null", .null), ("true", .bool true), ("false", .bool false), ("NaN", .float (0.0 / 0.0)),
      ("Infinity", .float (1.0 / 0.0)), ("-Infinity", .float (-1.0 / 0.0))]
  words.findSome? fun (word, value) => (afterWord? word.toList cs).map (value, ·)

def depthLimit : Nat := 984

mutual

def readValue : Nat → (depth : Nat) → List Char → Except Fault (Datum × List Char)
  | 0, _, _ => .error .malformed
  | fuel + 1, depth, cs =>
    match cs with
    | '"' :: rest => (readString [] rest).map fun (s, rest) => (.text s, rest)
    | '[' :: rest =>
      if depthLimit ≤ depth then .error .tooDeep
      else
        match skip rest with
        | ']' :: rest => .ok (.list [], rest)
        | rest => readItems fuel (depth + 1) [] rest
    | '\x7b' :: rest =>
      if depthLimit ≤ depth then .error .tooDeep
      else
        match skip rest with
        | '\x7d' :: rest => .ok (.map [], rest)
        | rest => readEntries fuel (depth + 1) [] rest
    | _ =>
      match readWord? cs with
      | some found => .ok found
      | none => readNumber cs

def readItems : Nat → (depth : Nat) → List Datum → List Char → Except Fault (Datum × List Char)
  | 0, _, _, _ => .error .malformed
  | fuel + 1, depth, acc, cs => do
    let (item, rest) ← readValue fuel depth cs
    match skip rest with
    | ',' :: rest => readItems fuel depth (item :: acc) (skip rest)
    | ']' :: rest => return (.list (item :: acc).reverse, rest)
    | _ => .error .malformed

def readEntries : Nat → (depth : Nat) → List (Datum × Datum) → List Char →
    Except Fault (Datum × List Char)
  | 0, _, _, _ => .error .malformed
  | fuel + 1, depth, acc, cs =>
    match cs with
    | '"' :: rest => do
      let (key, rest) ← readString [] rest
      match skip rest with
      | ':' :: rest =>
        let (value, rest) ← readValue fuel depth (skip rest)
        let acc := Datum.putEntry (.text key) value acc
        match skip rest with
        | ',' :: rest => readEntries fuel depth acc (skip rest)
        | '\x7d' :: rest => return (.map acc, rest)
        | _ => .error .malformed
      | _ => .error .malformed
    | _ => .error .malformed

end

def read (s : String) : Except Fault Datum := do
  let cs := skip s.toList
  let (value, rest) ← readValue (2 * cs.length + 2) 0 cs
  if (skip rest).isEmpty then return value else .error .malformed

def readFile (content : String) : Except Fault Datum :=
  match decodeFile? content with
  | some text => read text
  | none => .error .undecodable

end Keyforge.Json
