import Keyforge.Shell.Tool.Texts

/-!
# Calculations

The tool that works out an expression given as arguments, with numbers of any size and texts
that are compared.
-/

namespace Keyforge.Shell.Tool

namespace Calculation

inductive Fault where
  | unexpected (argument : String)
  | missing
  | notInteger
  | divisionByZero
  deriving Repr, DecidableEq

def Fault.message : Fault → String
  | .unexpected argument => "syntax error: unexpected argument " ++ curled argument
  | .missing => "syntax error"
  | .notInteger => "non-integer argument"
  | .divisionByZero => "division by zero"

def integer? (s : String) : Option Int :=
  let (isNegative, digits) := match s.toList with
    | '-' :: rest => (true, rest)
    | cs => (false, cs)
  if digits.isEmpty || !digits.all Char.isDigit then none
  else some (if isNegative then -(Text.natOfDigits digits : Int) else Text.natOfDigits digits)

def isNull (s : String) : Bool := s == "" || integer? s == some 0

def truth (b : Bool) : String := if b then "1" else "0"

def compare (operator l r : String) : String :=
  let order := match integer? l, integer? r with
    | some m, some n => (m == n, decide (m < n))
    | _, _ => (l == r, l != r && File.Tree.textAtMost l.toList r.toList)
  truth <| match operator with
    | "<" => order.2
    | "<=" => order.1 || order.2
    | "=" | "==" => order.1
    | "!=" => !order.1
    | ">=" => !order.2
    | _ => !order.1 && !order.2

def reckon (operator l r : String) : Except Fault String :=
  match integer? l, integer? r with
  | some m, some n =>
    if operator == "+" then .ok (Text.intText (m + n))
    else if operator == "-" then .ok (Text.intText (m - n))
    else if operator == "*" then .ok (Text.intText (m * n))
    else if n = 0 then .error .divisionByZero
    else .ok (Text.intText (if operator == "/" then m.tdiv n else m.tmod n))
  | _, _ => .error .notInteger

def operators : List (List String) :=
  [["|"], ["&"], ["<", "<=", "=", "==", "!=", ">=", ">"], ["+", "-"], ["*", "/", "%"]]

def apply (operator l r : String) : Except Fault String :=
  match operator with
  | "|" => .ok (if !isNull l then l else if isNull r then "0" else r)
  | "&" => .ok (if isNull l || isNull r then "0" else l)
  | _ =>
    if ["+", "-", "*", "/", "%"].contains operator then reckon operator l r
    else .ok (compare operator l r)

/-- What stands before the first of some operators, and what stands behind each of them. -/
def operandsBy (operators : List String) : List String → List String × List (String × List String)
  | [] => ([], [])
  | a :: rest =>
    let (first, more) := operandsBy operators rest
    if operators.contains a then ([], (a, first) :: more) else (a :: first, more)

/-- The value of an expression with operators of some levels, of which the first bind least. -/
def valueBy : (levels : List (List String)) → List String → Except Fault String
  | [], [a] => .ok a
  | [], [] => .error .missing
  | [], _ :: a :: _ => .error (.unexpected a)
  | operators :: levels, arguments => do
    let (first, more) := operandsBy operators arguments
    more.foldlM (fun left (operator, right) => do apply operator left (← valueBy levels right))
      (← valueBy levels first)

end Calculation

def calculate : Tool := fun arguments => do
  let arguments := if arguments.head? == some "--" then arguments.drop 1 else arguments
  if arguments.isEmpty then misuse "expr" "missing operand" 2
  else
    match Calculation.valueBy Calculation.operators arguments with
    | .ok v =>
      say (v ++ "\n")
      return if Calculation.isNull v then 1 else 0
    | .error fault =>
      failed "expr" fault.message 2

end Keyforge.Shell.Tool
