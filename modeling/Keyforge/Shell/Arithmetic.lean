import Keyforge.Pairs
import Keyforge.Text.Class

/-!
# Expressions

Expressions over integers of 64 bits in scripts, with the usual precedence. A name stands for the
value of a variable, and may be given a new one.
-/

namespace Keyforge.Shell.Arithmetic

open Keyforge.Text

/-! ### Numbers -/

def wrap (n : Int) : Int := Int.bmod n (Nat.pow 2 64)

def largest : Int := Nat.pow 2 63 - 1

def least : Int := -(Nat.pow 2 63)

def digitValue? (base : Nat) (c : Char) : Option Nat :=
  let n? :=
    if c.isDigit then some (c.toNat - '0'.toNat)
    else if 'a' ≤ c && c ≤ 'f' then some (c.toNat - 'a'.toNat + 10)
    else if 'A' ≤ c && c ≤ 'F' then some (c.toNat - 'A'.toNat + 10)
    else none
  n?.filter (· < base)

def digitsAt (base : Nat) (cs : List Char) : Nat × List Char :=
  let isDigit (c : Char) := (digitValue? base c).isSome
  ((cs.takeWhile isDigit).foldl (fun n c => base * n + (digitValue? base c).getD 0) 0,
    cs.dropWhile isDigit)

def naturalAt (cs : List Char) : Nat × List Char :=
  match cs with
  | '0' :: x :: d :: rest =>
    if (x == 'x' || x == 'X') && (digitValue? 16 d).isSome then digitsAt 16 (d :: rest)
    else digitsAt 8 cs
  | '0' :: _ => digitsAt 8 cs
  | _ => digitsAt 10 cs

def integer? (anyBase : Bool) (s : String) : Option Int :=
  let isSpace (c : Char) := c == ' ' || (9 ≤ c.toNat && c.toNat ≤ 13)
  let cs := s.toList.dropWhile isSpace
  let (isNegative, digits) := match cs with
    | '-' :: rest => (true, rest)
    | '+' :: rest => (false, rest)
    | cs => (false, cs)
  let hasDigits := digits.head?.any Char.isDigit
  let (n, rest) := if anyBase then naturalAt digits else digitsAt 10 digits
  let value : Int := if isNegative then -n else n
  if !hasDigits then (if anyBase && s.toList.all isSpace then some 0 else none)
  else if !rest.all isSpace || value < least || largest < value then none
  else some value

/-! ### Tokens -/

inductive Token where
  | number (n : Int)
  | named (name : String)
  | symbol (s : String)
  | unknown
  deriving Repr, DecidableEq

def symbols : List String :=
  ["<<=", ">>=", "<<", ">>", "<=", ">=", "==", "!=", "&&", "||", "&=", "|=", "^=", "+=", "-=", "*=",
    "/=", "%=", "=", "<", ">", "!", "&", "|", "^", "~", "(", ")", "*", "/", "%", "+", "-", "?", ":"]

def tokens : (fuel : Nat) → List Char → List Token
  | 0, _ => []
  | _ + 1, [] => []
  | fuel + 1, c :: rest =>
    let isNameChar (c : Char) := c.isAlphanum || c == '_'
    if c == ' ' || c == '\t' || c == '\n' then tokens fuel rest
    else if c.isDigit then
      let (n, rest) := naturalAt (c :: rest)
      .number (min n largest) :: tokens fuel rest
    else if isNameChar c then
      .named (String.ofList ((c :: rest).takeWhile isNameChar)) ::
        tokens fuel ((c :: rest).dropWhile isNameChar)
    else
      match symbols.find? fun s => s.toList.isPrefixOf (c :: rest) with
      | some s => .symbol s :: tokens fuel ((c :: rest).drop s.length)
      | none => .unknown :: tokens fuel rest

/-! ### Operations -/

inductive Error where
  | expecting (what : String)
  | divisionByZero
  | notNumber (value : String)
  deriving Repr, DecidableEq

def Error.message (expression : String) : Error → String
  | .expecting what => "arithmetic expression: expecting " ++ what ++ ": \"" ++ expression ++ "\""
  | .divisionByZero => "arithmetic expression: division by zero: \"" ++ expression ++ "\""
  | .notNumber value => "Illegal number: " ++ value

def looseness? : String → Option Nat
  | "*" | "/" | "%" => some 0
  | "+" | "-" => some 1
  | "<<" | ">>" => some 2
  | "<" | "<=" | ">" | ">=" => some 3
  | "==" | "!=" => some 4
  | "&" => some 5
  | "^" => some 6
  | "|" => some 7
  | _ => none

def ofBool (b : Bool) : Int := if b then 1 else 0

def bits (n : Int) : Nat := (n % (Nat.pow 2 64 : Nat)).toNat

def apply (symbol : String) (a b : Int) : Except Error Int :=
  match symbol with
  | "==" => .ok (ofBool (a == b))
  | "!=" => .ok (ofBool (a != b))
  | "<" => .ok (ofBool (decide (a < b)))
  | "<=" => .ok (ofBool (decide (a ≤ b)))
  | ">" => .ok (ofBool (decide (b < a)))
  | ">=" => .ok (ofBool (decide (b ≤ a)))
  | "+" => .ok (wrap (a + b))
  | "-" => .ok (wrap (a - b))
  | "*" => .ok (wrap (a * b))
  | "/" => if b == 0 then .error .divisionByZero else .ok (wrap (Int.tdiv a b))
  | "%" => if b == 0 then .error .divisionByZero else .ok (wrap (Int.tmod a b))
  | "<<" => .ok (wrap (a * Nat.pow 2 (bits b % 64)))
  | ">>" => .ok (Int.fdiv a (Nat.pow 2 (bits b % 64)))
  | "&" => .ok (wrap (Nat.land (bits a) (bits b)))
  | "|" => .ok (wrap (Nat.lor (bits a) (bits b)))
  | "^" => .ok (wrap (Nat.xor (bits a) (bits b)))
  | _ => .ok b

/-! ### Evaluation -/

structure State where
  tokens : List Token
  assigned : List (String × Int) := []

abbrev Eval := StateT State (Except Error)

def peek? : Eval (Option Token) := return (← get).tokens.head?

def advance : Eval Unit := modify fun s => { s with tokens := s.tokens.drop 1 }

def takeSymbol (symbol : String) : Eval Bool := do
  if (← peek?) == some (.symbol symbol) then
    advance
    return true
  else return false

variable (value? : String → Option String)

def valueOf (name : String) : Eval Int := do
  match (← get).assigned.lookup name with
  | some n => return n
  | none =>
    let text := (value? name).getD ""
    match integer? true text with
    | some n => return n
    | none => throw (.notNumber text)

mutual

def operand (idle : Bool) : (fuel : Nat) → Eval Int
  | 0 => throw (.expecting "primary")
  | fuel + 1 => do
    match ← peek? with
    | some (.number n) =>
      advance
      return n
    | some (.named name) =>
      advance
      if idle then return 0 else valueOf value? name
    | some (.symbol s) =>
      advance
      match s with
      | "(" =>
        let n ← assignment idle fuel
        if ← takeSymbol ")" then return n else throw (.expecting "')'")
      | "+" => operand idle fuel
      | "-" => return wrap (-(← operand idle fuel))
      | "!" => return ofBool ((← operand idle fuel) == 0)
      | "~" => return -(← operand idle fuel) - 1
      | _ => throw (.expecting "primary")
    | _ => throw (.expecting "primary")

def joined (idle : Bool) : (fuel limit : Nat) → Int → Eval Int
  | 0, _, n => return n
  | fuel + 1, limit, n => do
    match ← peek? with
    | some (.symbol s) =>
      match looseness? s with
      | some k =>
        if k < limit then
          advance
          let right ← joined idle fuel k (← operand idle fuel)
          joined idle fuel limit (← if idle then pure right else liftM (apply s n right))
        else return n
      | none => return n
    | _ => return n

def conjunction (idle : Bool) : (fuel : Nat) → Eval Int
  | 0 => throw (.expecting "primary")
  | fuel + 1 => do
    let a ← joined idle fuel 8 (← operand idle fuel)
    if ← takeSymbol "&&" then
      let b ← conjunction (idle || a == 0) fuel
      return ofBool (a != 0 && b != 0)
    else return a

def disjunction (idle : Bool) : (fuel : Nat) → Eval Int
  | 0 => throw (.expecting "primary")
  | fuel + 1 => do
    let a ← conjunction idle fuel
    if ← takeSymbol "||" then
      let b ← disjunction (idle || a != 0) fuel
      return ofBool (a != 0 || b != 0)
    else return a

def choice (idle : Bool) : (fuel : Nat) → Eval Int
  | 0 => throw (.expecting "primary")
  | fuel + 1 => do
    let a ← disjunction idle fuel
    if ← takeSymbol "?" then
      let b ← assignment (idle || a == 0) fuel
      if ← takeSymbol ":" then
        let c ← choice (idle || a != 0) fuel
        return if a != 0 then b else c
      else throw (.expecting "':'")
    else return a

def assignment (idle : Bool) : (fuel : Nat) → Eval Int
  | 0 => throw (.expecting "primary")
  | fuel + 1 => do
    match (← get).tokens with
    | .named name :: .symbol s :: rest =>
      let operation := String.ofList (s.toList.dropLast)
      if s == "=" || (s.endsWith "=" && (looseness? operation).isSome && !(["==", "<=", ">="].contains s))
      then
        modify fun state => { state with tokens := rest }
        let n ← assignment idle fuel
        if idle then return n
        else
          let n ← if s == "=" then pure n else liftM (apply operation (← valueOf value? name) n)
          modify fun state => { state with assigned := Pairs.put name n state.assigned }
          return n
      else choice idle fuel
    | _ => choice idle fuel

end

def eval (text : String) : Except Error (Int × List (String × Int)) := do
  let ts := tokens (text.length + 1) text.toList
  let (n, s) ← (assignment value? false (8 * (ts.length + 2))).run { tokens := ts }
  if s.tokens.isEmpty then return (n, s.assigned) else throw (.expecting "EOF")

end Keyforge.Shell.Arithmetic
