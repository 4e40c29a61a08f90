import Keyforge.Number.Read
import Keyforge.Shell.Arithmetic
import Keyforge.Shell.Command

/-!
# Formats

Output that is described by a format: text with escapes, and conversions that take arguments. A
format is used again as long as there are arguments left.
-/

namespace Keyforge.Shell.Format

open Keyforge.Text
open Keyforge.Number

/-! ### Escapes -/

def escapes : List (Char × Nat) :=
  [('a', 7), ('b', 8), ('e', 27), ('f', 12), ('n', 10), ('r', 13), ('t', 9), ('v', 11), ('\\', 92)]

def isOctal (c : Char) : Bool := '0' ≤ c && c ≤ '7'

def octalChar (digits : List Char) : Char :=
  Char.ofNat (digits.foldl (fun n c => 8 * n + (c.toNat - '0'.toNat)) 0 % 256)

def escapeAt : List Char → Char × List Char
  | [] => ('\\', [])
  | c :: rest =>
    match escapes.lookup c with
    | some n => (Char.ofNat n, rest)
    | none =>
      let digits := ((c :: rest).takeWhile isOctal).take 3
      if digits.isEmpty then ('\\', c :: rest)
      else (octalChar digits, (c :: rest).drop digits.length)

def unescapeFrom : (fuel : Nat) → List Char → List Char × Bool
  | 0, _ => ([], false)
  | _ + 1, [] => ([], false)
  | _ + 1, '\\' :: 'c' :: _ => ([], true)
  | fuel + 1, '\\' :: rest =>
    let rest := match rest with
      | '0' :: d :: more => if isOctal d then d :: more else rest
      | rest => rest
    let (c, rest) := escapeAt rest
    let (more, ends) := unescapeFrom fuel rest
    (c :: more, ends)
  | fuel + 1, c :: rest =>
    let (more, ends) := unescapeFrom fuel rest
    (c :: more, ends)

def unescape (s : String) : String × Bool :=
  let (cs, ends) := unescapeFrom (s.length + 1) s.toList
  (String.ofList cs, ends)

/-! ### Conversions -/

structure Conversion where
  written : String := ""
  leftAligned : Bool := false
  zeroFilled : Bool := false
  showsPlus : Bool := false
  showsBlank : Bool := false
  isAlternate : Bool := false
  width : Nat := 0
  precision? : Option Nat := none
  letter : Char := 's'
  deriving Repr, DecidableEq

namespace Conversion

def fill (c : Conversion) (text : String) : String :=
  let missing := String.ofList (List.replicate (c.width - text.length) ' ')
  if c.leftAligned then text ++ missing else missing ++ text

def fillNumber (c : Conversion) (sign digits : String) (mayHaveZeros : Bool) : String :=
  if c.zeroFilled && !c.leftAligned && mayHaveZeros then
    let zeros := List.replicate (c.width - sign.length - digits.length) '0'
    sign ++ String.ofList zeros ++ digits
  else c.fill (sign ++ digits)

def sign (c : Conversion) (isNegative : Bool) : String :=
  if isNegative then "-" else if c.showsPlus then "+" else if c.showsBlank then " " else ""

def digits (c : Conversion) (base n : Nat) : String :=
  let ds := if n = 0 && c.precision? == some 0 then [] else Nat.toDigits base n
  String.ofList (List.replicate ((c.precision?.getD 1) - ds.length) '0' ++ ds)

def integer (c : Conversion) (n : Int) : String :=
  c.fillNumber (c.sign (n < 0)) (c.digits 10 n.natAbs) c.precision?.isNone

def natural (c : Conversion) (n : Nat) : String :=
  let upper (s : String) := String.ofList (s.toList.map Char.toUpper)
  match c.letter with
  | 'x' =>
    c.fillNumber (if c.isAlternate && n != 0 then "0x" else "") (c.digits 16 n) c.precision?.isNone
  | 'X' =>
    c.fillNumber (if c.isAlternate && n != 0 then "0X" else "") (upper (c.digits 16 n))
      c.precision?.isNone
  | 'o' =>
    let ds := c.digits 8 n
    c.fillNumber "" (if c.isAlternate && !ds.startsWith "0" then "0" ++ ds else ds)
      c.precision?.isNone
  | _ => c.fillNumber "" (c.digits 10 n) c.precision?.isNone

def text (c : Conversion) (s : String) : String :=
  c.fill ((c.precision?.map fun n => String.ofList (s.toList.take n)).getD s)

end Conversion

/-! ### Arguments -/

inductive Defect where
  | none
  | notNumeric
  | surplus
  | outOfRange
  deriving Repr, DecidableEq

def skipBlanks (cs : List Char) : List Char :=
  cs.dropWhile fun c => c == ' ' || (9 ≤ c.toNat && c.toNat ≤ 13)

def defectOf (argument : String) (found : Bool) (rest : List Char) (inRange : Bool) : Defect :=
  if !found then if argument == "" then .none else .notNumeric
  else if !rest.isEmpty then .surplus
  else if !inRange then .outOfRange
  else .none

def quotedLetter? (argument : String) : Option Nat :=
  match argument.toList with
  | '\'' :: rest | '"' :: rest => some ((rest.head?.map Char.toNat).getD 0)
  | _ => none

def integerOf (argument : String) : Int × Defect :=
  match quotedLetter? argument with
  | some n => (n, .none)
  | none =>
    let (isNegative, cs) := takeSign (skipBlanks argument.toList)
    let found := cs.head?.any Char.isDigit
    let (n, rest) := Arithmetic.naturalAt cs
    let value : Int := if isNegative then -n else n
    let cut := max Arithmetic.least (min Arithmetic.largest value)
    (if found then cut else 0, defectOf argument found rest (cut == value))

def naturalOf (argument : String) : Nat × Defect :=
  match quotedLetter? argument with
  | some n => (n, .none)
  | none =>
    let (isNegative, cs) := takeSign (skipBlanks argument.toList)
    let found := cs.head?.any Char.isDigit
    let (n, rest) := Arithmetic.naturalAt cs
    let top := Nat.pow 2 64
    let inRange := n < top
    let value := if !inRange then top - 1 else if isNegative then (top - n) % top else n
    (if found then value else 0, defectOf argument found rest inRange)

/-! ### Using formats -/

inductive Halt where
  | asked
  | refused (message : String)
  deriving Repr, DecidableEq

structure State where
  arguments : List String
  written : List String := []
  complaints : List String := []

abbrev Use := ExceptT Halt (StateM State)

def write (text : String) : Use Unit := modify fun s => { s with written := text :: s.written }

def argument? : Use (Option String) := do
  let s ← get
  set { s with arguments := s.arguments.drop 1 }
  return s.arguments.head?

def numberBy {α : Type} (read : String → α × Defect) : Use α := do
  let argument := (← argument?).getD ""
  let (n, defect) := read argument
  let complain (why : String) : Use Unit := modify fun s =>
    { s with complaints := (argument ++ ": " ++ why) :: s.complaints }
  match defect with
  | .none => pure ()
  | .notNumeric => complain "expected numeric value"
  | .surplus => complain "not completely converted"
  | .outOfRange => complain "Numerical result out of range"
  return n

def convert (c : Conversion) : Use Unit := do
  match c.letter with
  | 's' => write (c.text ((← argument?).getD ""))
  | 'c' => write (c.fill (String.ofList [(((← argument?).getD "").toList).headD '\x00']))
  | 'b' =>
    let (text, ends) := unescape ((← argument?).getD "")
    write (c.text text)
    if ends then throw .asked
  | 'd' | 'i' => write (c.integer (← numberBy integerOf))
  | 'o' | 'u' | 'x' | 'X' => write (c.natural (← numberBy naturalOf))
  | _ => throw (.refused (c.written ++ ": invalid directive"))

def sizeAt (cs : List Char) : Use (Int × List Char) := do
  match cs with
  | '*' :: rest => return (← numberBy integerOf, rest)
  | _ => return (natOfDigits (cs.takeWhile Char.isDigit), cs.dropWhile Char.isDigit)

def conversionAt (cs : List Char) : Use (Conversion × List Char) := do
  let isFlag (c : Char) := "#-+ 0".toList.contains c
  let flags := cs.takeWhile isFlag
  let (width, rest) ← sizeAt (cs.dropWhile isFlag)
  let (precision?, rest) ← do
    match rest with
    | '.' :: rest =>
      let (n, rest) ← sizeAt rest
      pure (if n < 0 then none else some n.toNat, rest)
    | rest => pure (none, rest)
  match rest with
  | [] => throw (.refused "missing format character")
  | letter :: after =>
    return ({ written := "%" ++ String.ofList (cs.take (cs.length - after.length))
              leftAligned := flags.contains '-' || width < 0
              zeroFilled := flags.contains '0'
              showsPlus := flags.contains '+'
              showsBlank := flags.contains ' '
              isAlternate := flags.contains '#'
              width := width.natAbs
              precision?
              letter }, after)

def useFrom : (fuel : Nat) → List Char → Use Unit
  | 0, _ => return ()
  | _ + 1, [] => return ()
  | fuel + 1, '\\' :: rest => do
    let (c, rest) := escapeAt rest
    write c.toString
    useFrom fuel rest
  | fuel + 1, '%' :: '%' :: rest => do
    write "%"
    useFrom fuel rest
  | fuel + 1, '%' :: rest => do
    let (c, rest) ← conversionAt rest
    convert c
    useFrom fuel rest
  | fuel + 1, c :: rest => do
    write c.toString
    useFrom fuel rest

def useAgain (format : String) : (fuel : Nat) → Use Unit
  | 0 => return ()
  | fuel + 1 => do
    let before := (← get).arguments.length
    useFrom (format.length + 1) format.toList
    let after := (← get).arguments.length
    if after = 0 || after = before then return () else useAgain format fuel

structure Outcome where
  text : String
  complaints : List String
  refusal? : Option String
  deriving Repr, DecidableEq

def render (format : String) (arguments : List String) : Outcome :=
  let (result, s) := (useAgain format (arguments.length + 1)).run.run { arguments }
  ⟨String.join s.written.reverse, s.complaints.reverse,
    match result with
    | .error (.refused message) => some message
    | _ => none⟩

end Keyforge.Shell.Format
