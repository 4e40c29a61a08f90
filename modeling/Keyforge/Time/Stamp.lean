import Keyforge.Number.Dyadic
import Keyforge.Number.Read
import Keyforge.Time.Calendar

/-!
# Points in time

A time stamp is a date with a time of day, to the microsecond, and the offset of its time zone if it
has one.
-/

namespace Keyforge.Time

open Keyforge.Text

/-- A date with a time of day. `offset` is the zone's distance from universal time in minutes. -/
structure Stamp where
  date : Date
  hour : Int := 0
  minute : Int := 0
  second : Int := 0
  micro : Int := 0
  offset : Option Int := none
  deriving Repr, DecidableEq

def Stamp.checkClock (s : Stamp) : Except RangeError Stamp :=
  if s.hour < 0 || 23 < s.hour then .error .hour
  else if s.minute < 0 || 59 < s.minute then .error .minute
  else if s.second < 0 || 59 < s.second then .error .second
  else .ok s

def Stamp.instant (s : Stamp) : Int :=
  let minutes := (s.date.days * 24 + s.hour) * 60 + s.minute - s.offset.getD 0
  (minutes * 60 + s.second) * 1000000 + s.micro

def padded (width : Nat) (n : Int) : String :=
  let digits := Nat.toDigits 10 n.natAbs
  String.ofList (List.replicate (width - digits.length) '0' ++ digits)

def signedOffset (offset : Int) : String :=
  (if offset < 0 then "-" else "+") ++ padded 2 (offset.natAbs / 60 : Nat) ++ ":" ++
    padded 2 (offset.natAbs % 60 : Nat)

def offsetText (offset : Int) : String := if offset = 0 then "Z" else signedOffset offset

def Stamp.text (s : Stamp) : String :=
  padded 4 s.date.year ++ "-" ++ padded 2 s.date.month ++ "-" ++ padded 2 s.date.day ++ "T" ++
    padded 2 s.hour ++ ":" ++ padded 2 s.minute ++ ":" ++ padded 2 s.second ++
    (if s.micro = 0 then "" else "." ++ padded 6 s.micro) ++
    (s.offset.map offsetText).getD ""

/-! ### Reading -/

def digits? : Nat → List Char → Option (Int × List Char)
  | 0, cs => some (0, cs)
  | count + 1, c :: cs =>
    if c.isDigit then
      (digits? count cs).map fun (n, rest) =>
        ((natOfDigits [c] : Int) * (Nat.pow 10 count : Nat) + n, rest)
    else none
  | _ + 1, [] => none

def expect? (c : Char) : List Char → Option (List Char)
  | d :: rest => if c == d then some rest else none
  | [] => none

def date? (cs : List Char) : Option (Date × List Char) := do
  let (year, cs) ← digits? 4 cs
  let cs ← expect? '-' cs
  let (month, cs) ← digits? 2 cs
  let cs ← expect? '-' cs
  let (day, cs) ← digits? 2 cs
  if 1 ≤ day && day ≤ daysInMonth year month then some (⟨year, month, day⟩, cs) else none

def fraction? (cs : List Char) : Option (Int × List Char) :=
  let (digits, rest) := cs.span Char.isDigit
  if digits.isEmpty then none
  else
    let kept := digits.take 6
    some (natOfDigits kept * Nat.pow 10 (6 - kept.length), rest)

def seconds? : List Char → Option (Int × Int × List Char)
  | ':' :: cs => do
    let (second, cs) ← digits? 2 cs
    if 59 < second then none
    else
      match cs with
      | '.' :: rest | ',' :: rest =>
        let (micro, rest) ← fraction? rest
        some (second, micro, rest)
      | _ => some (second, 0, cs)
  | cs => some (0, 0, cs)

def zone? : List Char → Option (Option Int)
  | [] => some none
  | [c] => if c == 'Z' || c == 'z' then some (some 0) else none
  | c :: cs => do
    let sign : Int ← if c == '+' then some 1
      else if c == '-' || c == '−' then some (-1) else none
    let (hours, cs) ← digits? 2 cs
    let (minutes, cs) ← digits? 2 (match cs with | ':' :: rest => rest | _ => cs)
    if cs.isEmpty && minutes < 60 && hours < 24 then some (some (sign * (hours * 60 + minutes)))
    else none

def Stamp.iso? (cs : List Char) : Option Stamp := do
  let (date, cs) ← date? cs
  let cs ← match cs with
    | c :: rest => if ['T', 't', ' ', '_'].contains c then some rest else none
    | [] => none
  let (hour, cs) ← digits? 2 cs
  let cs ← expect? ':' cs
  let (minute, cs) ← digits? 2 cs
  if 23 < hour || 59 < minute then none
  else
    let (second, micro, cs) ← seconds? cs
    let offset ← zone? cs
    some ⟨date, hour, minute, second, micro, offset⟩

def millisecondsAbove : Int := 20000000000

/-- The stamp, in universal time, so many seconds and microseconds after the start of 1970; it has
to lie in the years 0 to 9999. -/
def Stamp.ofSeconds? (seconds micros : Int) : Option Stamp :=
  let seconds := seconds + micros.fdiv 1000000
  if seconds < -62167219200 || 253402300799 < seconds then none
  else
    let clock := seconds.fmod 86400
    some ⟨Date.ofDays (seconds.fdiv 86400), clock / 3600, clock / 60 % 60, clock % 60,
      micros.fmod 1000000, some 0⟩

def Stamp.ofCount? (count : Int) : Option Stamp :=
  if count.natAbs ≤ millisecondsAbove.natAbs then Stamp.ofSeconds? count 0
  else Stamp.ofSeconds? (count.fdiv 1000) (count.fmod 1000 * 1000)

/-- The stamp of a number of seconds or milliseconds. The microseconds count from the next smaller
second. -/
def Stamp.ofFloat? (x : Float) : Option Stamp :=
  let unit := if x.abs > Number.floatOfInt millisecondsAbove then 1000.0 else 1.0
  let seconds := (x / unit).floor
  let micros := ((x - seconds * unit) * (1000000.0 / unit)).round
  match Number.view seconds, Number.view micros with
  | .finite seconds, .finite micros => Stamp.ofSeconds? seconds.round micros.round
  | _, _ => none

/-- The stamp of a number of seconds or milliseconds that is given as text. What is not integral has
a point behind its first digits. -/
def Stamp.ofDecimal? (cs : List Char) : Option Stamp :=
  match Number.asciiInt? cs with
  | some n => Stamp.ofCount? n
  | none =>
    if ((Number.takeSign cs).2.dropWhile Char.isDigit).head? == some '.' &&
        cs.all (·.toNat < 0x80) then
      (Number.float? cs).bind Stamp.ofFloat?
    else none

/-- A stamp in one of the accepted forms: a date with a time, or a number of seconds or
milliseconds. -/
def Stamp.parse? (cs : List Char) : Option Stamp := Stamp.iso? cs <|> Stamp.ofDecimal? cs

end Keyforge.Time
