import Keyforge.Datum.Shown

/-!
# Writing JSON

Values are written on one line, with a blank after commas and colons and every character outside of
ASCII escaped.
-/

namespace Keyforge.Json

def numberStyle : Number.Style := { Datum.numberStyle with nan := "NaN", infinity := "Infinity" }

def unitEscape (code : Nat) : List Char := '\\' :: 'u' :: Text.hexText 4 code

def stringChar (c : Char) : List Char :=
  if c == '"' then ['\\', '"']
  else if c == '\\' then ['\\', '\\']
  else if c == '\n' then ['\\', 'n']
  else if c == '\r' then ['\\', 'r']
  else if c == '\t' then ['\\', 't']
  else if c == '\x08' then ['\\', 'b']
  else if c == '\x0c' then ['\\', 'f']
  else if 0x20 ≤ c.toNat && c.toNat < 0x7f then [c]
  else if c.toNat < 0x10000 then unitEscape c.toNat
  else
    let rest := c.toNat - 0x10000
    unitEscape (0xd800 + rest / 0x400) ++ unitEscape (0xdc00 + rest % 0x400)

def stringCode (code : Nat) : List Char :=
  if Text.isHalf code then unitEscape code else stringChar (Char.ofNat code)

def stringText (s : String) : String :=
  String.ofList ('"' :: (Text.codes s.toList).flatMap stringCode ++ ['"'])

def keyText : Datum → String
  | .text s => stringText s
  | .int n => stringText (Text.intText n)
  | .float x => stringText (numberStyle.floatText x)
  | .bool b => stringText (if b then "true" else "false")
  | _ => stringText "null"

mutual

def write : Datum → String
  | .null => "null"
  | .bool b => if b then "true" else "false"
  | .int n => Text.intText n
  | .float x => numberStyle.floatText x
  | .text s => stringText s
  | .bytes _ => "null"
  | .date d => stringText (Time.Stamp.text ⟨d, 0, 0, 0, 0, none⟩)
  | .stamp t => stringText t.text
  | .list items => "[" ++ String.intercalate ", " (writeItems items) ++ "]"
  | .tuple items => "[" ++ String.intercalate ", " (writeItems items) ++ "]"
  | .set items => "[" ++ String.intercalate ", " (writeItems items) ++ "]"
  | .map entries => "\x7b" ++ String.intercalate ", " (writeEntries entries) ++ "\x7d"
  | .enclosing value => write value

def writeItems : List Datum → List String
  | [] => []
  | item :: rest => write item :: writeItems rest

def writeEntries : List (Datum × Datum) → List String
  | [] => []
  | (key, value) :: rest => (keyText key ++ ": " ++ write value) :: writeEntries rest

end

end Keyforge.Json
