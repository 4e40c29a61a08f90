import Keyforge.Shell.Arithmetic
import Keyforge.Shell.Machine

/-!
# Conditions

Conditions on texts, numbers and files, given as the arguments of a program. They can be negated,
joined and put into parentheses. An argument may look like an operator and still be an operand, which
its place decides.
-/

namespace Keyforge.Shell.Condition

inductive Kind where
  | unary
  | binary
  | negation
  | conjunction
  | disjunction
  | opening
  | closing
  deriving Repr, DecidableEq

def unaryOperators : List String :=
  ["-r", "-w", "-x", "-e", "-f", "-d", "-c", "-b", "-p", "-u", "-g", "-k", "-s", "-t", "-z", "-n", "-h",
    "-O", "-G", "-L", "-S"]

def binaryOperators : List String :=
  ["=", "!=", "<", ">", "-eq", "-ne", "-ge", "-gt", "-le", "-lt", "-nt", "-ot", "-ef"]

def kind? (s : String) : Option Kind :=
  if unaryOperators.contains s then some .unary
  else if binaryOperators.contains s then some .binary
  else
    [("!", Kind.negation), ("-a", .conjunction), ("-o", .disjunction), ("(", .opening),
      (")", .closing)].lookup s

inductive Error where
  | unexpected (operator : String)
  | argumentExpected (operator : String)
  | openParenthesis
  | notNumber (text : String)
  deriving Repr, DecidableEq

def about (operator : String) : String := if operator == "" then "" else operator ++ ": "

def Error.message : Error → String
  | .unexpected operator => about operator ++ "unexpected operator"
  | .argumentExpected operator => about operator ++ "argument expected"
  | .openParenthesis => "closing paren expected"
  | .notNumber text => "Illegal number: " ++ text

def operatorAt? : List String → Option Kind
  | [] => none
  | s :: rest =>
    (kind? s).filter fun kind =>
      let isOperand := match rest with
        | [] => true
        | [_] => false
        | next :: _ => kind? next == some .binary
      !(kind == .unary && isOperand) && !(kind == .opening && rest.isEmpty)

def number (s : String) : Except Error Int :=
  match Arithmetic.integer? false s with
  | some n => .ok n
  | none => .error (.notNumber s)

def isBefore (a b : String) : Bool := a != b && File.Tree.textAtMost a.toList b.toList

def unary (m : Machine) (operator operand : String) : Except Error Bool :=
  let isFile := m.isFile operand
  let isDirectory := m.isDirectory operand
  match operator with
  | "-z" => .ok (operand == "")
  | "-n" => .ok (operand != "")
  | "-t" => (number operand).map fun _ => false
  | "-f" => .ok (isFile && m.namesOf operand != ["dev", "null"])
  | "-d" => .ok isDirectory
  | "-e" | "-r" | "-w" | "-O" | "-G" => .ok (isFile || isDirectory)
  | "-c" => .ok (m.namesOf operand == ["dev", "null"])
  | "-x" =>
    .ok (isDirectory ||
      match m.place operand with
      | .found names (.file _) => !isInTree names || m.isExecutable names
      | _ => false)
  | "-s" =>
    .ok (isDirectory ||
      match m.place operand with
      | .found names (.file _) => !(m.content names).isEmpty
      | _ => false)
  | _ => .ok false

def binary (m : Machine) (operator a b : String) : Except Error Bool :=
  let compared (holds : Int → Int → Bool) : Except Error Bool := do
    return holds (← number a) (← number b)
  match operator with
  | "=" => .ok (a == b)
  | "!=" => .ok (a != b)
  | "<" => .ok (isBefore a b)
  | ">" => .ok (isBefore b a)
  | "-eq" => compared (· == ·)
  | "-ne" => compared (· != ·)
  | "-ge" => compared fun x y => decide (y ≤ x)
  | "-gt" => compared fun x y => decide (y < x)
  | "-le" => compared fun x y => decide (x ≤ y)
  | "-lt" => compared fun x y => decide (x < y)
  | "-ef" =>
    .ok (match m.place a, m.place b with
      | .found x _, .found y _ => x == y
      | _, _ => false)
  | _ => .ok false

abbrev Eval := StateT (List String) (Except Error)

def advance (n : Nat) : Eval Unit := modify (·.drop n)

variable (m : Machine)

mutual

def disjunction : (fuel : Nat) → (kind? : Option Kind) → Eval Bool
  | 0, _ => return false
  | fuel + 1, kind? => do
    let first ← conjunction fuel kind?
    if operatorAt? ((← get).drop 1) == some .disjunction then
      advance 2
      let second ← disjunction fuel (operatorAt? (← get))
      return first || second
    else return first

def conjunction : (fuel : Nat) → (kind? : Option Kind) → Eval Bool
  | 0, _ => return false
  | fuel + 1, kind? => do
    let first ← negation fuel kind?
    if operatorAt? ((← get).drop 1) == some .conjunction then
      advance 2
      let second ← conjunction fuel (operatorAt? (← get))
      return first && second
    else return first

def negation : (fuel : Nat) → (kind? : Option Kind) → Eval Bool
  | 0, _ => return false
  | fuel + 1, kind? => do
    if kind? == some .negation then
      let rest := (← get).drop 1
      if rest.isEmpty then return true
      else
        advance 1
        return !(← negation fuel (operatorAt? rest))
    else primary fuel kind?

def primary : (fuel : Nat) → (kind? : Option Kind) → Eval Bool
  | 0, _ => return false
  | fuel + 1, kind? => do
    match kind?, ← get with
    | _, [] => return false
    | some .opening, _ =>
      advance 1
      let inner := operatorAt? (← get)
      if inner == some .closing then return false
      else
        let value ← disjunction fuel inner
        advance 1
        if operatorAt? (← get) == some .closing then return value else throw .openParenthesis
    | some .unary, operator :: rest =>
      advance 1
      match rest with
      | [] => throw (.argumentExpected operator)
      | operand :: _ => liftM (unary m operator operand)
    | _, a :: rest =>
      if operatorAt? rest == some .binary then
        advance 2
        match rest with
        | operator :: b :: _ => liftM (binary m operator a b)
        | operator :: [] => throw (.argumentExpected operator)
        | [] => return false
      else return a != ""

end

def evalFrom (kind? : Option Kind) (arguments : List String) : Except Error Bool := do
  let (value, rest) ← (disjunction m (4 * (arguments.length + 2)) kind?).run arguments
  match rest with
  | a :: _ :: _ => throw (.unexpected a)
  | _ => return value

def evalTwo (arguments : List String) : Except Error Bool :=
  evalFrom m (operatorAt? arguments) arguments

def evalThree (a b c : String) : Except Error (Bool × Bool) :=
  if kind? b == some .binary then (evalFrom m none [a, b, c]).map (·, false)
  else if a == "(" && c == ")" then (evalFrom m (operatorAt? [b]) [b]).map (·, false)
  else if a == "!" then (evalTwo m [b, c]).map (!·, true)
  else (evalFrom m (operatorAt? [a, b, c]) [a, b, c]).map (·, false)

def eval : List String → Except Error Bool
  | [] => .ok false
  | [a, b, c] => (evalThree m a b c).map (·.1)
  | [a, b, c, d] =>
    if a == "(" && d == ")" then evalTwo m [b, c]
    else if a == "!" then (evalThree m b c d).map fun (value, isNegated) => value == isNegated
    else evalFrom m (operatorAt? [a, b, c, d]) [a, b, c, d]
  | arguments => evalFrom m (operatorAt? arguments) arguments

end Keyforge.Shell.Condition
