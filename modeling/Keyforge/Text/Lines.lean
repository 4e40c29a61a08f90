/-!
# Lines and parts of texts

Ways to cut a text into lines (`splitLines`, `splitAt`), and to find one text in another
(`after?`, `occursIn`, `replaceAll`).
-/

namespace Keyforge.Text

def isLineBreak (c : Char) : Bool :=
  let n := c.toNat
  (0x0a ≤ n && n ≤ 0x0d) || (0x1c ≤ n && n ≤ 0x1e) || n == 0x85 || n == 0x2028 || n == 0x2029

def splitLinesFrom (line : List Char) : List Char → List (List Char)
  | [] => if line.isEmpty then [] else [line.reverse]
  | '\r' :: '\n' :: rest => line.reverse :: splitLinesFrom [] rest
  | c :: rest =>
    if isLineBreak c then line.reverse :: splitLinesFrom [] rest
    else splitLinesFrom (c :: line) rest

def splitLines (s : String) : List String :=
  (splitLinesFrom [] s.toList).map String.ofList

def unifyNewlines : List Char → List Char
  | '\r' :: '\n' :: rest => '\n' :: unifyNewlines rest
  | '\r' :: rest => '\n' :: unifyNewlines rest
  | c :: rest => c :: unifyNewlines rest
  | [] => []

def universalNewlines (s : String) : String := String.ofList (unifyNewlines s.toList)

def splitAt (sep : Char) : List Char → List (List Char)
  | [] => [[]]
  | c :: rest =>
    match splitAt sep rest with
    | [] => [[]]
    | piece :: pieces => if c == sep then [] :: piece :: pieces else (c :: piece) :: pieces

def withoutEmptyEnd (pieces : List (List Char)) : List (List Char) :=
  if pieces.getLast? == some [] then pieces.dropLast else pieces

/-- The lines of a text, which line feeds, carriage returns or both end. The last one need not be
ended. -/
def endedLines (cs : List Char) : List (List Char) :=
  withoutEmptyEnd (splitAt '\n' (unifyNewlines cs))

def joinLines (lines : List String) : String := String.intercalate "\n" lines

/-!
## Texts in texts

What follows a given start of a text, whether one text occurs in another, and replacing it there.
-/

def after? : List Char → List Char → Option (List Char)
  | [], cs => some cs
  | p :: ps, c :: cs => if p == c then after? ps cs else none
  | _ :: _, [] => none

def occursIn (what : List Char) : List Char → Bool
  | [] => what.isEmpty
  | c :: rest => what.isPrefixOf (c :: rest) || occursIn what rest

def replaceFrom (what new : List Char) : (skip : Nat) → List Char → List Char
  | _, [] => []
  | skip + 1, _ :: rest => replaceFrom what new skip rest
  | 0, c :: rest =>
    if what.isPrefixOf (c :: rest) then new ++ replaceFrom what new (what.length - 1) rest
    else c :: replaceFrom what new 0 rest

def replaceAll (what new s : String) : String :=
  String.ofList (replaceFrom what.toList new.toList 0 s.toList)

end Keyforge.Text
