import Keyforge.Datum.Issue
import Keyforge.Datum.Shown
import Keyforge.File.Path
import Keyforge.Pairs
import Keyforge.Text.Case
import Keyforge.Text.Utf8

/-!
# Decoding data

Decoders turn data into values of other types and report every part that does not fit. They are
lenient where the intention is clear: numbers may be given as text, flags as `yes` or `0`, dates in
several forms.
-/

namespace Keyforge.Datum

abbrev Decoder (α : Type) := Datum → Verdict α

namespace Decoder

/-! ### Texts, numbers and flags -/

def textOfBytes? (bytes : List UInt8) : Option String :=
  (String.fromUTF8? (ByteArray.mk bytes.toArray)).map Text.keep

def text : Decoder String
  | .text s => .ok s
  | .bytes bs =>
    match textOfBytes? bs with
    | some s => .ok s
    | none => .fault .notUnicode
  | _ => .fault .notText

/-- Reads a value that is given as text, none if it is not. Bytes that are no text are refused for
`cause`. -/
def written? (cause : Cause) (read : List Char → Verdict α) : Datum → Option (Verdict α)
  | .text s => some (if Text.hasHalves s then .fault .notUnicode else read s.toList)
  | .bytes bs =>
    some <|
      match textOfBytes? bs with
      | some s => read s.toList
      | none => .fault cause
  | _ => none

/-- An integer without leading zeros and with an optional minus sign. Too many digits are told apart
from other faults. -/
def strictInteger (cs : List Char) : Except Cause Int :=
  let digits := if cs.head? == some '-' then cs.drop 1 else cs
  let run := digits.takeWhile Char.isDigit
  if run.isEmpty || (run.head? == some '0' && 1 < run.length) then .error .unreadableInteger
  else if Number.digitLimit < run.length then .error .hugeInteger
  else if run.length < digits.length then .error .unreadableInteger
  else .ok (if cs.head? == some '-' then -(Text.natOfDigits run : Int) else Text.natOfDigits run)

/-- What follows the zeros at the front of an integer. Underscores among them are dropped, and one
character stays before a point or at the end. `last` is the character before the text. -/
def afterZeros (last : Char) : List Char → Option (List Char)
  | [] => some [last]
  | c :: rest =>
    if c == '0' || c == '_' then afterZeros c rest
    else if c.isDigit || c == '-' then some (c :: rest)
    else if c == '.' then some (last :: c :: rest)
    else none

def dropZeros? : List Char → Option (List Char)
  | '0' :: rest => afterZeros '0' rest
  | c :: rest => if c.isDigit then some (c :: rest) else none
  | [] => none

def plainForm? : List Char → Option (List Char)
  | '-' :: rest => (dropZeros? rest).map ('-' :: ·)
  | '+' :: rest => dropZeros? rest
  | cs => dropZeros? cs

def dropFraction (cs : List Char) : List Char :=
  let fraction := (cs.dropWhile (· != '.')).drop 1
  if !fraction.isEmpty && fraction.all (· == '0') then cs.takeWhile (· != '.') else cs

/-- An integer in decimal notation: white space around it, a plus sign, leading zeros, a fraction of
zeros and single underscores are dropped. Only what needs none of that can be too long. -/
def readInteger (cs : List Char) : Verdict Int :=
  match strictInteger cs with
  | .ok n => .ok n
  | .error .hugeInteger => .fault .hugeInteger
  | .error _ =>
    let read? := (plainForm? (Text.trimPlain cs)).bind fun body =>
      let body := dropFraction body
      (strictInteger ((Number.dropUnderscores? body).getD body)).toOption
    match read? with
    | some n => .ok n
    | none => .fault .unreadableInteger

def isWord (n : Int) : Bool := -0x8000000000000000 ≤ n && n ≤ 0x7fffffffffffffff

def integerOfFloat (x : Float) : Verdict Int :=
  match Number.view x with
  | .finite d =>
    match d.toInt? with
    | some n => if n.natAbs < 0x8000000000000000 then .ok n else .fault .hugeInteger
    | none => .fault .fractionalInteger
  | _ => .fault .notFinite

def integer : Decoder Int
  | .int n => .ok n
  | .bool b => .ok (if b then 1 else 0)
  | .float x => integerOfFloat x
  | value => (written? .unreadableInteger readInteger value).getD (.fault .notInteger)

/-- A number in decimal notation, or a spelling of infinity or of the undefined number. White space
around it is dropped, or else single underscores are. -/
def readNumber (cs : List Char) : Verdict Float :=
  let plain? (cs : List Char) : Option Float :=
    if cs.all (·.toNat < 0x80) then Number.float? cs else none
  match plain? (Text.trimPlain cs) <|> (Number.dropUnderscores? cs).bind plain? with
  | some x => .ok x
  | none => .fault .unreadableNumber

def numberOfInteger (n : Int) : Verdict Float :=
  let x := Number.floatOfInt n
  match Number.view x with
  | .finite _ => .ok x
  | _ => .fault .notNumber

def number : Decoder Float
  | .float x => .ok x
  | .int n => numberOfInteger n
  | .bool b => .ok (if b then 1.0 else 0.0)
  | value => (written? .unreadableNumber readNumber value).getD (.fault .notNumber)

def flagWord? (word : String) : Option Bool :=
  if ["0", "off", "f", "false", "n", "no"].contains word then some false
  else if ["1", "on", "t", "true", "y", "yes"].contains word then some true
  else none

def readFlag (cs : List Char) : Verdict Bool :=
  match flagWord? (String.ofList (cs.map Char.toLower)) with
  | some b => .ok b
  | none => .fault .unreadableFlag

def flagOfInteger (n : Int) : Verdict Bool :=
  if n = 0 then .ok false else if n = 1 then .ok true else .fault .unreadableFlag

def flag : Decoder Bool
  | .bool b => .ok b
  | .int n => if isWord n then flagOfInteger n else .fault .notFlag
  | .float x =>
    match integerOfFloat x with
    | .ok n => flagOfInteger n
    | .faults _ => .fault .notFlag
  | value => (written? .unreadableFlag readFlag value).getD (.fault .notFlag)

def choice (words : List String) : Decoder String
  | .text s =>
    if Text.hasHalves s then .fault .notUnicode
    else if words.contains s then .ok s
    else .fault .notChoice
  | _ => .fault .notChoice

def path : Decoder File.Path
  | .text s => .ok (File.Path.ofString s)
  | _ => .fault .notPath

def knownStamp : Option Time.Stamp → Verdict Time.Stamp
  | some t => if t.date.year = 0 then .fault .unreadableStamp else .ok t
  | none => .fault .unreadableStamp

def readStamp (cs : List Char) : Verdict Time.Stamp :=
  match Time.Stamp.parse? cs with
  | some t => knownStamp (some t)
  | none =>
    match Time.date? cs with
    | some (d, []) => knownStamp (some { date := d })
    | _ => .fault .unreadableDate

def stamp : Decoder Time.Stamp
  | .stamp t => .ok t
  | .date d => .ok { date := d }
  | .int n => knownStamp (Time.Stamp.ofCount? n)
  | .float x => knownStamp (Time.Stamp.ofFloat? x)
  | value => (written? .unreadableDate readStamp value).getD (.fault .notStamp)

/-! ### Composite values -/

def optional (d : Decoder α) : Decoder (Option α)
  | .null => .ok none
  | value => (d value).map some

def items (d : Decoder α) : Nat → List Datum → Verdict (List α)
  | _, [] => .ok []
  | n, item :: rest =>
    Verdict.app (((d item.opened).within (.index n)).map List.cons) (items d (n + 1) rest)

def listOf (d : Decoder α) : Decoder (List α)
  | .list xs | .tuple xs | .set xs => items d 0 xs
  | _ => .fault .notList

def setOf (d : Decoder α) : Decoder (List α)
  | .list xs | .tuple xs | .set xs => items d 0 xs
  | _ => .fault .notSet

def pairOf (d : Decoder α) : Decoder (α × α)
  | .list xs | .tuple xs | .set xs =>
    match xs.map opened with
    | [] =>
      Verdict.app (Verdict.map Prod.mk (Verdict.within (.index 0) (.fault .missing)))
        (Verdict.within (.index 1) (.fault .missing))
    | [a] =>
      Verdict.app (((d a).within (.index 0)).map Prod.mk)
        (Verdict.within (.index 1) (.fault .missing))
    | [a, b] =>
      Verdict.app (((d a).within (.index 0)).map Prod.mk) ((d b).within (.index 1))
    | _ => .fault .tooLong
  | _ => .fault .notTuple

/-- How a key of a mapping is named on the way to an issue: texts and small integers by themselves,
other values as they are shown. Halves of surrogate pairs are replaced, byte by byte. -/
def keyStep : Datum → Step
  | .text s =>
    .field <| String.ofList <| (Text.codes s.toList).flatMap fun code =>
      if Text.isHalf code then List.replicate 3 Text.replacement else Text.ofCode code
  | .bool b => .index (if b then 1 else 0)
  | .int n => if isWord n then .index n else .field (Text.intText n)
  | value => .field value.shown

def entries (k : Decoder κ) (d : Decoder α) : List (Datum × Datum) → Verdict (List (κ × α))
  | [] => .ok []
  | (key, value) :: rest =>
    let name := Verdict.within (keyStep key) (Verdict.within (.field "[key]") (k key))
    let decoded := (d value.opened).within (keyStep key)
    Verdict.app (Verdict.map List.cons (Verdict.app (name.map Prod.mk) decoded)) (entries k d rest)

def mapBy [BEq κ] (k : Decoder κ) (d : Decoder α) : Decoder (List (κ × α))
  | .map es => (entries k d es).map Pairs.ofList
  | _ => .fault .notMapping

def mapOf (d : Decoder α) : Decoder (List (String × α)) := mapBy text d

def anyMap : Decoder (List (Datum × Datum))
  | .map es => .ok es
  | _ => .fault .notMapping

def ofEntries (cause : Cause) (f : List (Datum × Datum) → Verdict α) : Decoder α
  | .map es => f es
  | _ => .fault cause

end Decoder

def required (es : List (Datum × Datum)) (name : String) (d : Decoder α) : Verdict α :=
  Verdict.within (.field name) <|
    match entry? name es with
    | some value => d value
    | none => .fault .missing

def withDefault (es : List (Datum × Datum)) (name : String) (default : α) (d : Decoder α) :
    Verdict α :=
  match entry? name es with
  | some value => (d value).within (.field name)
  | none => .ok default

end Keyforge.Datum
