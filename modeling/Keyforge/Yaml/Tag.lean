import Keyforge.Datum.Shown
import Keyforge.Json.Reader
import Keyforge.Text.Case
import Keyforge.Text.Lines
import Keyforge.Yaml.Cursor

/-!
# Tags of YAML

A tag says what a node stands for. Plain scalars without a tag get one by their form: words for
truth values and null, integers in several bases, floating point numbers, dates. Everything else is
text.
-/

namespace Keyforge.Yaml

inductive Tag where
  | null
  | bool
  | int
  | float
  | binary
  | stamp
  | orderedMap
  | pairs
  | set
  | text
  | list
  | map
  | merge
  | value
  | other (uri : String)
  deriving Repr, DecidableEq

def standardPrefix : String := "tag:yaml.org,2002:"

def Tag.ofUri (uri : String) : Tag :=
  let known : List (String × Tag) :=
    [("null", .null), ("bool", .bool), ("int", .int), ("float", .float), ("binary", .binary),
      ("timestamp", .stamp), ("omap", .orderedMap), ("pairs", .pairs), ("set", .set),
      ("str", .text), ("seq", .list), ("map", .map), ("merge", .merge), ("value", .value)]
  match known.find? fun (name, _) => standardPrefix ++ name == uri with
  | some (_, tag) => tag
  | none => .other uri

/-! ### The forms of plain scalars -/

def flagWords : List String :=
  ["yes", "Yes", "YES", "no", "No", "NO", "true", "True", "TRUE", "false", "False", "FALSE", "on",
    "On", "ON", "off", "Off", "OFF"]

def nullWords : List String := ["~", "null", "Null", "NULL", ""]

def isDigitOr_ (c : Char) : Bool := c.isDigit || c == '_'

def isSixties (parts : List (List Char)) : Bool :=
  !parts.isEmpty && parts.all fun part =>
    match part with
    | [a] => a.isDigit
    | [a, b] => '0' ≤ a && a ≤ '5' && b.isDigit
    | _ => false

def isDigits (cs : List Char) : Bool := cs.head?.any Char.isDigit && cs.all isDigitOr_

def isInteger (cs : List Char) : Bool :=
  let (_, body) := Number.takeSign cs
  match body with
  | '0' :: 'b' :: rest => !rest.isEmpty && rest.all fun c => c == '0' || c == '1' || c == '_'
  | '0' :: 'x' :: rest =>
    !rest.isEmpty && rest.all fun c =>
      isDigitOr_ c || ('a' ≤ c && c ≤ 'f') || ('A' ≤ c && c ≤ 'F')
  | '0' :: rest => rest.all fun c => ('0' ≤ c && c ≤ '7') || c == '_'
  | _ =>
    match Text.splitAt ':' body with
    | first :: parts => isDigits first && (parts.isEmpty || isSixties parts)
    | [] => false

def isSignedExponent : List Char → Bool
  | [] => true
  | e :: sign :: digits =>
    (e == 'e' || e == 'E') && (sign == '-' || sign == '+') && !digits.isEmpty &&
      digits.all Char.isDigit
  | _ => false

def isFloat (cs : List Char) : Bool :=
  let (_, body) := Number.takeSign cs
  let signless := body.length = cs.length
  let (whole, rest) := body.span fun c => isDigitOr_ c || c == ':'
  match rest with
  | '.' :: rest =>
    let word := String.ofList rest
    if whole.isEmpty then
      ["inf", "Inf", "INF"].contains word ||
        (signless && (["nan", "NaN", "NAN"].contains word ||
          (rest.head?.any Char.isDigit && isSignedExponent (rest.dropWhile isDigitOr_))))
    else
      match Text.splitAt ':' whole with
      | first :: parts =>
        isDigits first &&
          (if parts.isEmpty then isSignedExponent (rest.dropWhile isDigitOr_)
           else isSixties parts && rest.all isDigitOr_)
      | [] => false
  | _ => false

/-- The numbers of a date and, if it is given, of a time of day with a zone. -/
structure StampParts where
  year : List Char
  month : List Char
  day : List Char
  clock : Option (List Char × List Char × List Char) := none
  fraction : List Char := []
  zone : Option (Option (Bool × List Char × List Char)) := none
  deriving Repr

def oneOrTwo? (least : Nat) (cs : List Char) : Option (List Char × List Char) :=
  let digits := (cs.take 2).takeWhile Char.isDigit
  if digits.length < least then none else some (digits, cs.drop digits.length)

def isStampBlank (c : Char) : Bool := c == ' ' || c == '\t'

def stampZone? (cs : List Char) : Option (Option (Option (Bool × List Char × List Char))) :=
  if cs.isEmpty then some none
  else
    match cs.dropWhile isStampBlank with
    | ['Z'] => some (some none)
    | sign :: rest =>
      if sign == '+' || sign == '-' then do
        let (hours, rest) ← oneOrTwo? 1 rest
        match rest with
        | [] => some (some (some (sign == '-', hours, [])))
        | ':' :: rest =>
          let (minutes, rest) ← oneOrTwo? 2 rest
          if rest.isEmpty then some (some (some (sign == '-', hours, minutes))) else none
        | _ => none
      else none
    | [] => none

def stampParts? (cs : List Char) : Option StampParts := do
  let year := (cs.take 4).takeWhile Char.isDigit
  if year.length ≠ 4 then none
  else
    let rest ← Time.expect? '-' (cs.drop 4)
    let (month, rest) ← oneOrTwo? 1 rest
    let rest ← Time.expect? '-' rest
    let (day, rest) ← oneOrTwo? 1 rest
    match rest with
    | [] => some { year, month, day }
    | c :: tail =>
      let rest ←
        if c == 'T' || c == 't' then some tail
        else if isStampBlank c then some (tail.dropWhile isStampBlank)
        else none
      let (hour, rest) ← oneOrTwo? 1 rest
      let rest ← Time.expect? ':' rest
      let (minute, rest) ← oneOrTwo? 2 rest
      let rest ← Time.expect? ':' rest
      let (second, rest) ← oneOrTwo? 2 rest
      let (fraction, rest) :=
        match rest with
        | '.' :: tail => tail.span Char.isDigit
        | _ => ([], rest)
      let zone ← stampZone? rest
      some { year, month, day, clock := some (hour, minute, second), fraction, zone }

def isStamp (cs : List Char) : Bool :=
  match stampParts? cs with
  | some parts => parts.clock.isSome || (parts.month.length = 2 && parts.day.length = 2)
  | none => false

def dropLineFeed (cs : List Char) : List Char := if cs.getLast? == some '\n' then cs.dropLast else cs

def plainTag (s : String) : Tag :=
  let cs := dropLineFeed s.toList
  let word := String.ofList cs
  if flagWords.contains word then .bool
  else if isFloat cs then .float
  else if isInteger cs then .int
  else if word == "<<" then .merge
  else if nullWords.contains word && s != "\n" then .null
  else if isStamp cs then .stamp
  else if word == "=" then .value
  else if ["!", "&", "*"].contains word then .other (standardPrefix ++ "yaml")
  else .text

/-! ### The values of scalars -/

def digitOf? (base : Nat) (c : Char) : Option Nat :=
  match Text.digitValue? c <|> Json.hexValue? c with
  | some d => if d < base then some d else none
  | none => none

def baseMarks : Nat → List Char
  | 2 => ['b', 'B']
  | 8 => ['o', 'O']
  | 16 => ['x', 'X']
  | _ => []

def dropBaseMark (base : Nat) (cs : List Char) : List Char :=
  match cs with
  | zero :: mark :: rest =>
    if Text.digitValue? zero = some 0 && (baseMarks base).contains mark then rest else cs
  | _ => cs

def shownLimit : Nat := 200

def noNumber (base : Nat) (cs : List Char) : LoadError :=
  .unreadable ("invalid literal for int() with base " ++ Text.natText base ++ ": " ++
    String.ofList ((Text.quoted (String.ofList cs)).toList.take shownLimit))

def readInBase (base : Nat) (cs : List Char) : Except LoadError Int :=
  let (negative, body) := Number.takeSign (Number.trimNumber cs)
  let digits := dropBaseMark base body
  match digits.foldlM (fun n c => (digitOf? base c).map (base * n + ·)) 0 with
  | some size =>
    if digits.isEmpty then .error (noNumber base cs)
    else .ok (if negative then -(size : Int) else size)
  | none => .error (noNumber base cs)

def readDecimal (cs : List Char) : Except LoadError Int :=
  match Number.integer cs with
  | .ok n => .ok n
  | .error (.tooLong digits) => .error (.unreadable (Number.tooLongMessage digits))
  | .error _ => .error (noNumber 10 cs)

def integerValue (s : String) : Except LoadError Int := do
  let cs := s.toList.filter (· != '_')
  let (negative, body) := Number.takeSign cs
  let size ←
    match body with
    | [] => .error .emptyNumber
    | ['0'] => pure 0
    | '0' :: 'b' :: rest => readInBase 2 rest
    | '0' :: 'x' :: rest => readInBase 16 rest
    | '0' :: _ => readInBase 8 body
    | _ =>
      if body.contains ':' then
        let parts ← (Text.splitAt ':' body).mapM readDecimal
        pure (parts.foldl (fun n part => 60 * n + part) 0)
      else readDecimal body
  return if negative then -size else size

def readFloat (cs : List Char) : Except LoadError Float :=
  match Number.float? (Number.trimNumber cs) with
  | some x => .ok x
  | none =>
    .error (.unreadable ("could not convert string to float: " ++ Text.quoted (String.ofList cs)))

def sumSixties (total : Float) (scale : Nat) : List Float → Except LoadError Float
  | [] => .ok total
  | part :: rest =>
    let weight := Number.floatOfInt (scale : Nat)
    if weight.isInf then .error .hugeScale
    else sumSixties (total + part * weight) (scale * 60) rest

def floatValue (s : String) : Except LoadError Float := do
  let cs := (Text.lower (String.ofList (s.toList.filter (· != '_')))).toList
  if cs.isEmpty then .error .emptyNumber
  else
    let (negative, body) := Number.takeSign cs
    let size ←
      if body == ['.', 'i', 'n', 'f'] then pure (1.0 / 0.0)
      else if body == ['.', 'n', 'a', 'n'] then pure (0.0 / 0.0)
      else if body.contains ':' then do
        let parts ← (Text.splitAt ':' body).mapM readFloat
        sumSixties 0.0 1 parts.reverse
      else readFloat body
    return if negative then -size else size

def inRange (result : Except Time.RangeError α) : Except LoadError α :=
  result.mapError fun e => LoadError.unreadable e.message

def stampValue (s : String) : Except LoadError Datum := do
  match stampParts? (dropLineFeed s.toList) with
  | none => .error .noStamp
  | some parts =>
    let number (digits : List Char) : Int := Text.natOfDigits digits
    let date := Time.Date.make (number parts.year) (number parts.month) (number parts.day)
    match parts.clock with
    | none => return .date (← inRange date)
    | some (hour, minute, second) =>
      let offset ←
        match parts.zone with
        | none => pure none
        | some none => pure (some 0)
        | some (some (negative, hours, minutes)) =>
          let size := number hours * 60 + number minutes
          let offset := if negative then -size else size
          if 1440 ≤ size then
            .error (.unreadable ("offset must be a timedelta strictly between " ++
              "-timedelta(hours=24) and timedelta(hours=24), not " ++
              Time.shownSpan (offset * 60) ++ "."))
          else pure (some offset)
      let kept := parts.fraction.take 6
      let micro := number kept * Nat.pow 10 (6 - kept.length)
      let date ← inRange date
      let stamp ← inRange <|
        Time.Stamp.checkClock ⟨date, number hour, number minute, number second, micro, offset⟩
      return .stamp stamp

def sixBitsOf? (c : Char) : Option Nat :=
  if 'A' ≤ c && c ≤ 'Z' then some (c.toNat - 'A'.toNat)
  else if 'a' ≤ c && c ≤ 'z' then some (c.toNat - 'a'.toNat + 26)
  else if c.isDigit then some (c.toNat - '0'.toNat + 52)
  else if c == '+' then some 62
  else if c == '/' then some 63
  else none

def bytesOfSixBits : List Nat → List UInt8
  | a :: b :: c :: d :: rest =>
    let n := ((a * 64 + b) * 64 + c) * 64 + d
    (n / 65536).toUInt8 :: (n / 256).toUInt8 :: n.toUInt8 :: bytesOfSixBits rest
  | [a, b, c] =>
    let n := (a * 64 + b) * 64 + c
    [(n / 1024).toUInt8, (n / 4).toUInt8]
  | [a, b] => [((a * 64 + b) / 16).toUInt8]
  | _ => []

def sixBits? (count pads : Nat) : List Char → Option (List Nat)
  | [] => if count % 4 = 0 then some [] else none
  | c :: rest =>
    if c == '=' then
      if count % 4 < 2 then sixBits? count pads rest
      else if 4 ≤ count % 4 + pads + 1 then some []
      else sixBits? count (pads + 1) rest
    else
      match sixBitsOf? c with
      | some n => (sixBits? (count + 1) 0 rest).map (n :: ·)
      | none => sixBits? count pads rest

def binaryValue? (s : String) : Option (List UInt8) :=
  if s.toList.any fun c => 0x80 ≤ c.toNat then none
  else (sixBits? 0 0 s.toList).map bytesOfSixBits

end Keyforge.Yaml
