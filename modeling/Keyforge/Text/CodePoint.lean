import Keyforge.Text.Class

/-!
# Code points

A text is a sequence of code points. All of them are characters but the halves of surrogate pairs,
which an escape can name without the other half.

A half is kept as the character of an unused plane whose number ends in the same four digits. A
character of that plane that would be taken for a half is kept behind a mark, and so is the mark
itself, so that every sequence of code points is kept in a way of its own.
-/

namespace Keyforge.Text

/-! ### Halves of surrogate pairs -/

def isHalf (code : Nat) : Bool := 0xd800 ≤ code && code < 0xe000

def isHighHalf (code : Nat) : Bool := 0xd800 ≤ code && code < 0xdc00

def isLowHalf (code : Nat) : Bool := 0xdc00 ≤ code && code < 0xe000

def joinHalves (high low : Nat) : Nat := 0x10000 + (high - 0xd800) * 0x400 + (low - 0xdc00)

/-! ### How code points are kept -/

def halfDistance : Nat := 0xd0000

def mark : Char := Char.ofNat 0xdffff

def markName : Char := Char.ofNat 0xdfffe

def half? (c : Char) : Option Nat :=
  if halfDistance ≤ c.toNat && isHalf (c.toNat - halfDistance) then some (c.toNat - halfDistance)
  else none

def keptChar (c : Char) : List Char :=
  if c == mark then [mark, markName] else if (half? c).isSome then [mark, c] else [c]

def ofCode (code : Nat) : List Char :=
  if isHalf code then [Char.ofNat (code + halfDistance)] else keptChar (Char.ofNat code)

def codes : List Char → List Nat
  | [] => []
  | [c] => [(half? c).getD c.toNat]
  | c :: d :: rest =>
    if c == mark then (if d == markName then mark else d).toNat :: codes rest
    else (half? c).getD c.toNat :: codes (d :: rest)

def size (cs : List Char) : Nat := cs.countP (· != mark)

def hasHalves (s : String) : Bool := (codes s.toList).any isHalf

def keep (s : String) : String :=
  if s.toList.any fun c => c == mark || (half? c).isSome then
    String.ofList (s.toList.flatMap keptChar)
  else s

def replacement : Char := '�'

def release (s : String) : String :=
  String.ofList ((codes s.toList).map fun code =>
    if isHalf code then replacement else Char.ofNat code)

/-!
## Quoted text

Messages show texts in quotes, so that blanks and control characters in them can be seen. The
quotes are single ones unless the text holds a single quote and no double quote.
-/

def hexText (width n : Nat) : List Char :=
  let digits := Nat.toDigits 16 n
  List.replicate (width - digits.length) '0' ++ digits

def quotedChar (quote c : Char) : List Char :=
  if c == quote || c == '\\' then ['\\', c]
  else if c == '\n' then ['\\', 'n']
  else if c == '\r' then ['\\', 'r']
  else if c == '\t' then ['\\', 't']
  else if isPrintable c then [c]
  else if c.toNat < 0x100 then '\\' :: 'x' :: hexText 2 c.toNat
  else if c.toNat < 0x10000 then '\\' :: 'u' :: hexText 4 c.toNat
  else '\\' :: 'U' :: hexText 8 c.toNat

def quotedCode (quote : Char) (code : Nat) : List Char :=
  if isHalf code then '\\' :: 'u' :: hexText 4 code else quotedChar quote (Char.ofNat code)

def enclosingQuote (cs : List Char) : Char :=
  if cs.contains '\'' && !cs.contains '"' then '"' else '\''

def quoted (s : String) : String :=
  let cs := s.toList
  let quote := enclosingQuote cs
  String.ofList (quote :: (codes cs).flatMap (quotedCode quote) ++ [quote])

def quotedBytes (bytes : List UInt8) : String :=
  let cs := bytes.map fun b => Char.ofNat b.toNat
  let quote := enclosingQuote cs
  let shown (c : Char) : List Char :=
    if c.toNat < 0x7f then quotedChar quote c else '\\' :: 'x' :: hexText 2 c.toNat
  String.ofList ('b' :: quote :: cs.flatMap shown ++ [quote])

def quotedList (items : List String) : String :=
  "[" ++ String.intercalate ", " (items.map quoted) ++ "]"

end Keyforge.Text
