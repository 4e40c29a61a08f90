import Keyforge.Text.Class

/-!
# Reading numbers

Decimal notation as numbers are given in files, settings and environment variables. The functions
here work on the characters of a token that has been cut out already.
-/

namespace Keyforge.Number

open Keyforge.Text

/-- The floating point number nearest to `mantissa · 10 ^ exponent`. Exponents far outside of the
representable range are cut off first. -/
def floatOfDecimal (negative : Bool) (mantissa : Nat) (exponent : Int) : Float :=
  let size : Float :=
    if mantissa = 0 then 0.0
    else if 400 < exponent then 1.0 / 0.0
    else if exponent + (Nat.toDigits 10 mantissa).length < -400 then 0.0
    else Float.ofScientific mantissa (exponent < 0) exponent.natAbs
  if negative then -size else size

def floatOfInt (n : Int) : Float := floatOfDecimal (n < 0) n.natAbs 0

def takeSign : List Char → Bool × List Char
  | '-' :: rest => (true, rest)
  | '+' :: rest => (false, rest)
  | rest => (false, rest)

def takeDigits (cs : List Char) : List Char × List Char := cs.span isDigit

def exponentPart? : List Char → Option Int
  | [] => some 0
  | c :: rest =>
    if c == 'e' || c == 'E' then
      let (negative, digits) := takeSign rest
      if digits.isEmpty || !digits.all isDigit then none
      else some (if negative then -(natOfDigits digits : Int) else natOfDigits digits)
    else none

/-- A decimal number without a sign: digits with a point among, before or after them, and an
exponent part. -/
def decimal? (cs : List Char) : Option (Nat × Int) :=
  let (whole, rest) := takeDigits cs
  let (fraction, rest) :=
    match rest with
    | '.' :: rest => takeDigits rest
    | rest => ([], rest)
  if whole.isEmpty && fraction.isEmpty then none
  else (exponentPart? rest).map fun e => (natOfDigits (whole ++ fraction), e - fraction.length)

/-- A floating point number: a sign, if there is one, and a decimal number or a word for infinity or
for the undefined number. -/
def float? (cs : List Char) : Option Float :=
  let (negative, body) := takeSign cs
  let sign (x : Float) : Float := if negative then -x else x
  let word := String.ofList (body.map Char.toLower)
  if word == "inf" || word == "infinity" then some (sign (1.0 / 0.0))
  else if word == "nan" then some (sign (0.0 / 0.0))
  else
    (decimal? body).map fun (mantissa, exponent) => floatOfDecimal negative mantissa exponent

/-! ### Integers -/

def digitLimit : Nat := 4300

inductive IntegerError where
  | malformed
  /-- A text has more digits than a number may have. -/
  | tooLong (digits : Nat)
  /-- A number has more digits than can be written. -/
  | unwritable
  deriving Repr, DecidableEq

def limitMessage (found : String) : String :=
  "Exceeds the limit (" ++ natText digitLimit ++ " digits) for integer string conversion" ++ found ++
    "; use sys.set_int_max_str_digits() to increase the limit"

def tooLongMessage (digits : Nat) : String :=
  limitMessage (": value has " ++ natText digits ++ " digits")

/-- Whether a number has few enough digits to be written. -/
def isWritable (n : Int) : Bool := (Nat.toDigits 10 n.natAbs).length ≤ digitLimit

def checkWritable (numbers : List Int) : Except IntegerError Unit :=
  if numbers.all isWritable then .ok () else .error .unwritable

def ofDigits (digits : List Char) : Except IntegerError Nat :=
  if digitLimit < digits.length then .error (.tooLong digits.length) else .ok (natOfDigits digits)

def separates (cs : List Char) : Bool :=
  cs.head? != some '_' && cs.getLast? != some '_' && !doubled cs
where
  doubled : List Char → Bool
    | '_' :: '_' :: _ => true
    | _ :: rest => doubled rest
    | [] => false

/-- Removes underscores, of which there has to be one at least; none may stand at an end or next to
another. -/
def dropUnderscores? (cs : List Char) : Option (List Char) :=
  if cs.contains '_' && separates cs then some (cs.filter (· != '_')) else none

/-- White space around numbers. The information separators count only next to characters outside of
ASCII. -/
def trimNumber (cs : List Char) : List Char :=
  if cs.all (·.toNat < 0x80) then
    let isSpace (c : Char) : Bool := c == ' ' || (0x09 ≤ c.toNat && c.toNat ≤ 0x0d)
    dropWhileEnd isSpace (cs.dropWhile isSpace)
  else trim cs

/-- An integer in decimal notation with the digits of any script: white space around it, a sign and
single underscores between digits are allowed. -/
def integer (cs : List Char) : Except IntegerError Int := do
  let (negative, body) := takeSign (trimNumber cs)
  let (run, rest) := body.span fun c => isDigit c || c == '_'
  if run.isEmpty || !separates run then .error .malformed
  else
    let size ← ofDigits (run.filter (· != '_'))
    if rest.isEmpty then return if negative then -(size : Int) else size
    else .error .malformed

def asciiInt? (cs : List Char) : Option Int :=
  let (negative, digits) := takeSign cs
  if digits.isEmpty || !digits.all Char.isDigit then none
  else some (if negative then -(natOfDigits digits : Int) else natOfDigits digits)

end Keyforge.Number
