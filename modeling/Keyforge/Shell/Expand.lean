import Keyforge.Shell.Arithmetic
import Keyforge.Shell.Pattern
import Keyforge.Shell.Word

/-!
# Expansion

What the words of a command stand for when it is run. The value of a piece that is not in quotes is
cut into fields, so that one word may give several fields or none, and a field may be a pattern for
the names of files.
-/

namespace Keyforge.Shell

/-! ### Fields -/

inductive Atom where
  | char (c : Char) (inQuotes splits : Bool)
  | quotes
  | cut
  deriving Repr, DecidableEq

def atoms (text : String) (inQuotes splits : Bool) : List Atom :=
  text.toList.map (.char · inQuotes splits)

def isFieldBlank (c : Char) : Bool := c == ' ' || c == '\t' || c == '\n'

structure Fields where
  complete : List Field := []
  current? : Option Field := none
  afterBlank : Bool := false

namespace Fields

def cut (f : Fields) (afterBlank : Bool := false) : Fields :=
  ⟨(f.current?.map List.reverse).toList ++ f.complete, none, afterBlank⟩

def step (separators : List Char) (f : Fields) : Atom → Fields
  | .quotes => { f with current? := some (f.current?.getD []), afterBlank := false }
  | .cut => f.cut
  | .char c inQuotes splits =>
    if splits && separators.contains c then
      if isFieldBlank c then if f.current?.isSome then f.cut true else f
      else if f.afterBlank then { f with afterBlank := false }
      else ({ f with current? := some (f.current?.getD []) } : Fields).cut
    else { f with current? := some (⟨c, !inQuotes⟩ :: f.current?.getD []), afterBlank := false }

def ofAtoms (separators : List Char) (parts : List Atom) : List Field :=
  (parts.foldl (step separators) {}).cut.complete.reverse

end Fields

def marksOf (parts : List Atom) : Field :=
  parts.filterMap fun
    | .char c inQuotes _ => some ⟨c, !inQuotes⟩
    | _ => none

/-! ### Parameters -/

def optionOrder : List Char := "pubaCEVvxsnmiIfe".toList

def Machine.separators (m : Machine) : List Char := ((m.value? "IFS").getD " \t\n").toList

def Machine.joinedArguments (m : Machine) : String :=
  String.intercalate (String.ofList (m.separators.take 1)) m.arguments

def Machine.parameter? (m : Machine) (name : String) : Option String :=
  match name with
  | "?" => some (Text.natText m.status)
  | "$" => some (Text.natText m.process)
  | "#" => some (Text.natText m.arguments.length)
  | "!" => (m.jobs.getLast?).map fun job => Text.natText job.process
  | "-" => some (String.ofList (optionOrder.filter m.options.contains))
  | "@" | "*" => if m.arguments.isEmpty then none else some m.joinedArguments
  | name =>
    if name.toList.all Char.isDigit then
      match Text.natOfDigits name.toList with
      | 0 => some m.name
      | n + 1 => m.arguments[n]?
    else m.value? name

structure Context where
  isSplit : Bool := false
  splits : Bool := false

def Machine.valueAtoms (m : Machine) (c : Context) (name value : String) (inQuotes : Bool) :
    List Atom :=
  let each (argument : String) : List Atom :=
    if inQuotes then .quotes :: atoms argument true false else atoms argument false true
  if c.isSplit && (name == "@" || (name == "*" && !inQuotes)) then
    ((m.arguments.map each).intersperse [.cut]).flatten
  else atoms value inQuotes (!inQuotes)

def Machine.home? (m : Machine) (user : String) : Option String :=
  if user == "" then m.value? "HOME" else [("root", "/root")].lookup user

def Machine.withHome (m : Machine) (text : List Char) (isOpen : Bool) : Word :=
  match text with
  | '~' :: rest =>
    let user := rest.takeWhile (· != '/')
    let behind := rest.dropWhile (· != '/')
    match if isOpen && behind.isEmpty then none else m.home? (String.ofList user) with
    | some home => [.literal home true, .literal (String.ofList behind) false]
    | none => [.literal (String.ofList text) false]
  | text => [.literal (String.ofList text) false]

def Machine.withHomes (m : Machine) : Word → Word
  | .literal text false :: rest => m.withHome text.toList (!rest.isEmpty) ++ rest
  | w => w

def outputText (bytes : List UInt8) : String :=
  ofOctets ((bytes.filter (· != 0)).reverse.dropWhile (· == 10)).reverse

/-! ### Words -/

variable (outputOf : Option Command → Run (List UInt8))

mutual

def expandPieces : (fuel : Nat) → Context → Word →
    Run (List Atom)
  | 0, _, _ => return []
  | _ + 1, _, [] => return []
  | fuel + 1, c, piece :: rest => do
    let first ← match piece with
      | .literal text inQuotes => pure (atoms text inQuotes (!inQuotes && c.splits))
      | .quotes => pure [.quotes]
      | .parameter name use inQuotes => expandParameter fuel c name use inQuotes
      | .arithmetic body inQuotes => do
        let text := (marksOf (← expandPieces fuel {} body)).text
        let m ← get
        match Arithmetic.eval m.parameter? text with
        | .error e => refuse (e.message text)
        | .ok (n, assigned) => do
          assigned.forM fun (name, n) => assign name (Text.intText n)
          pure (atoms (Text.intText n) inQuotes (!inQuotes))
      | .output script? inQuotes => do
        let bytes ← outputOf script?
        pure (atoms (outputText bytes) inQuotes (!inQuotes))
    return first ++ (← expandPieces fuel c rest)

def expandParameter : (fuel : Nat) → Context →
    (name : String) → Use → (inQuotes : Bool) → Run (List Atom)
  | 0, _, _, _, _ => return []
  | fuel + 1, c, name, use, inQuotes => do
    let m ← get
    let value? := m.parameter? name
    let isStrict := m.options.contains 'u' && name != "@" && name != "*"
    let demanded : Run String := do
      match value? with
      | some value => return value
      | none => if isStrict then refuse (name ++ ": parameter not set") else return ""
    let inPlace : Context := { c with splits := !inQuotes }
    let withHomes (w : Word) : Word := if inQuotes then w else m.withHomes w
    let present? (orEmpty : Bool) := value?.filter fun value => !(orEmpty && value == "")
    let shown (value : String) : Run (List Atom) := return m.valueAtoms c name value inQuotes
    match use with
    | .value => shown (← demanded)
    | .length => return atoms (Text.natText (← demanded).length) inQuotes (!inQuotes)
    | .fallback orEmpty word =>
      match present? orEmpty with
      | some value => shown value
      | none => expandPieces fuel inPlace (withHomes word)
    | .assigned orEmpty word =>
      match present? orEmpty with
      | some value => shown value
      | none =>
        let text := (marksOf (← expandPieces fuel {} (withHomes word))).text
        if !isName name then refuse (name ++ ": bad variable name")
        else
          assign name text
          return atoms text inQuotes (!inQuotes)
    | .replaced orEmpty word =>
      match present? orEmpty with
      | some _ => expandPieces fuel inPlace (withHomes word)
      | none => return []
    | .demanded orEmpty word =>
      match present? orEmpty with
      | some value => shown value
      | none =>
        let text := (marksOf (← expandPieces fuel {} (withHomes word))).text
        refuse (name ++ ": " ++
          if !word.isEmpty then text
          else if orEmpty then "parameter not set or null"
          else "parameter not set")
    | .trimmed fromEnd longest pattern =>
      let value ← demanded
      let field := marksOf (← expandPieces fuel {} (withHomes pattern))
      let trimmed := Pattern.trim fromEnd longest (Pattern.ofField field) value.toList
      return atoms (String.ofList trimmed) inQuotes (!inQuotes)
    | .malformed => refuse "Bad substitution"

end

def wordDepth : Nat := 10000

def expandWhole (c : Context) (w : Word) : Run (List Atom) := do
  expandPieces outputOf wordDepth c ((← get).withHomes w)

def expandWord (w : Word) : Run (List String) := do
  let parts ← expandWhole outputOf { isSplit := true } w
  let m ← get
  return (Fields.ofAtoms m.separators parts).flatMap (·.expand m)

def expandWords : List Word → Run (List String)
  | [] => return []
  | w :: rest => do
    let fields ← expandWord outputOf w
    return fields ++ (← expandWords rest)

def expandPattern (w : Word) : Run Field := do
  return marksOf (← expandWhole outputOf {} w)

def expandText (w : Word) : Run String := do
  return (← expandPattern outputOf w).text

def expandDocument (w : Word) : Run String := do
  return (marksOf (← expandPieces outputOf wordDepth {} w)).text

end Keyforge.Shell
