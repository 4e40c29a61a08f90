import Keyforge.Datum.Basic
import Keyforge.Number.Shortest
import Keyforge.Text.CodePoint

/-!
# Data as text

How a value is shown in messages: texts in quotes, collections in their brackets, dates as the terms
that make them. On its own, a text is shown as it is.
-/

namespace Keyforge

def Time.shownSpan (seconds : Int) : String :=
  let days := seconds.fdiv 86400
  let rest := seconds.fmod 86400
  let parts :=
    (if days = 0 then [] else ["days=" ++ Text.intText days]) ++
      (if rest = 0 then [] else ["seconds=" ++ Text.intText rest])
  "datetime.timedelta(" ++ (if parts.isEmpty then "0" else String.intercalate ", " parts) ++ ")"

def Time.Date.shown (d : Time.Date) : String :=
  "datetime.date(" ++ String.intercalate ", " ([d.year, d.month, d.day].map Text.intText) ++ ")"

def Time.Stamp.shown (t : Time.Stamp) : String :=
  let fine :=
    if t.micro ≠ 0 then [t.second, t.micro] else if t.second ≠ 0 then [t.second] else []
  let numbers := [t.date.year, t.date.month, t.date.day, t.hour, t.minute] ++ fine
  let zone :=
    match t.offset with
    | none => []
    | some 0 => ["tzinfo=datetime.timezone.utc"]
    | some minutes => ["tzinfo=datetime.timezone(" ++ Time.shownSpan (minutes * 60) ++ ")"]
  "datetime.datetime(" ++ String.intercalate ", " (numbers.map Text.intText ++ zone) ++ ")"

def Time.Stamp.plainText (t : Time.Stamp) : String :=
  let digits := Time.padded
  digits 4 t.date.year ++ "-" ++ digits 2 t.date.month ++ "-" ++ digits 2 t.date.day ++ " " ++
    digits 2 t.hour ++ ":" ++ digits 2 t.minute ++ ":" ++ digits 2 t.second ++
    (if t.micro = 0 then "" else "." ++ digits 6 t.micro) ++
    (match t.offset with
      | none => ""
      | some minutes => Time.signedOffset minutes)

namespace Datum

/-- Numbers are positional from `0.0001` up to, but not including, ten quadrillion; exponents have
at least two digits. -/
def numberStyle : Number.Style where
  leastExponent := -4
  exponentLimit := 16
  exponentWidth := 2
  nan := "nan"
  infinity := "inf"

mutual

def shown : Datum → String
  | .null => "None"
  | .bool b => if b then "True" else "False"
  | .int n => Text.intText n
  | .float x => numberStyle.floatText x
  | .text s => Text.quoted s
  | .bytes bs => Text.quotedBytes bs
  | .date d => d.shown
  | .stamp t => t.shown
  | .list items => "[" ++ String.intercalate ", " (shownItems items) ++ "]"
  | .tuple [item] => "(" ++ item.shown ++ ",)"
  | .tuple items => "(" ++ String.intercalate ", " (shownItems items) ++ ")"
  | .set items =>
    if items.isEmpty then "set()"
    else "\x7b" ++ String.intercalate ", " (shownItems items) ++ "\x7d"
  | .map entries => "\x7b" ++ String.intercalate ", " (shownEntries entries) ++ "\x7d"
  | .enclosing (.map _) => "\x7b...\x7d"
  | .enclosing _ => "[...]"

def shownItems : List Datum → List String
  | [] => []
  | item :: rest => item.shown :: shownItems rest

def shownEntries : List (Datum × Datum) → List String
  | [] => []
  | (key, value) :: rest => (key.shown ++ ": " ++ value.shown) :: shownEntries rest

end

mutual

/-- The integers that the text of a value holds. -/
def integers : Datum → List Int
  | .int n => [n]
  | .list items | .tuple items | .set items => integersOf items
  | .map entries => entryIntegers entries
  | _ => []

def integersOf : List Datum → List Int
  | [] => []
  | item :: rest => item.integers ++ integersOf rest

def entryIntegers : List (Datum × Datum) → List Int
  | [] => []
  | (key, value) :: rest => key.integers ++ value.integers ++ entryIntegers rest

end

def plainText : Datum → String
  | .text s => s
  | .date d =>
    Time.padded 4 d.year ++ "-" ++ Time.padded 2 d.month ++ "-" ++ Time.padded 2 d.day
  | .stamp t => t.plainText
  | value => value.shown

end Datum

end Keyforge
