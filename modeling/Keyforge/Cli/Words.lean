import Keyforge.Text.Class
import Keyforge.Text.Lines

/-!
# Words of a command line

The words behind a program's name are flags, values of flags and arguments. Reading them gives what
they ask for in the order in which it takes effect.
-/

namespace Keyforge.Cli

structure Flag where
  short? : Option String
  long : String
  takesValue : Bool
  deriving Repr, DecidableEq

def Flag.names (f : Flag) : List String := f.short?.toList ++ [f.long]

inductive Arguments where
  | none
  | one
  | rest
  deriving Repr, DecidableEq

structure Usage where
  flags : List Flag
  arguments : Arguments
  deriving Repr, DecidableEq

/-! ### Single words -/

inductive WordKind where
  | argument
  /-- A flag and what its word holds besides its name: what stands behind an equals sign, or
  right behind the letter. -/
  | flag (flag : Flag) (attached? : Option String)
  | unknownFlag
  | ambiguousFlag
  | separator
  deriving Repr, DecidableEq

def Usage.flag? (u : Usage) (name : String) : Option Flag :=
  u.flags.find? fun f => f.names.contains name

def splitValue (word : String) : String × Option String :=
  let cs := word.toList
  match cs.dropWhile (· != '=') with
  | [] => (word, none)
  | _ :: value => (String.ofList (cs.takeWhile (· != '=')), some (String.ofList value))

def startsWith (start word : String) : Bool := start.toList.isPrefixOf word.toList

def Usage.candidates (u : Usage) (word : String) : List WordKind :=
  if startsWith "--" word then
    let (start, attached?) := splitValue word
    (u.flags.filter fun f => startsWith start f.long).map (.flag · attached?)
  else
    let name := String.ofList (word.toList.take 2)
    (u.flags.filter fun f => f.short? == some name).map
      (.flag · (some (String.ofList (word.toList.drop 2))))

def isNegativeNumber (word : String) : Bool :=
  match word.toList with
  | '-' :: rest =>
    let ends (cs : List Char) : Bool := cs.isEmpty || cs == ['\n']
    let whole := rest.takeWhile Text.isDigit
    match rest.dropWhile Text.isDigit with
    | '.' :: digits => digits.head?.any Text.isDigit && ends (digits.dropWhile Text.isDigit)
    | rest => !whole.isEmpty && ends rest
  | _ => false

def Usage.kindOf (u : Usage) (word : String) : WordKind :=
  if !startsWith "-" word || word == "-" then .argument
  else
    let (name, attached?) := splitValue word
    match u.flag? word, u.flag? name with
    | some f, _ => .flag f none
    | none, some f => .flag f attached?
    | none, none =>
      match u.candidates word with
      | [kind] => kind
      | _ :: _ :: _ => .ambiguousFlag
      | [] =>
        if isNegativeNumber word || word.toList.contains ' ' then .argument else .unknownFlag

def Usage.kinds (u : Usage) : List String → List (WordKind × String)
  | [] => []
  | word :: rest =>
    if word == "--" then (.separator, word) :: rest.map fun w => (.argument, w)
    else (u.kindOf word, word) :: u.kinds rest

/-! ### Reading -/

inductive Request where
  /-- A flag, by its long name, and its value. -/
  | flag (name value : String)
  | argument (value : String)
  | rest (first : String) (words : List String)
  deriving Repr, DecidableEq

inductive Ending where
  /-- All words were read; `surplus` tells whether some of them mean nothing. -/
  | complete (surplus : Bool)
  | failed
  deriving Repr, DecidableEq

/-- What a command line asks for, in order, and how reading it ended. -/
structure Reading where
  requests : List Request
  ending : Ending
  deriving Repr, DecidableEq

namespace Reading

def after (request : Request) (r : Reading) : Reading := { r with requests := request :: r.requests }

def withSurplus (r : Reading) : Reading :=
  match r.ending with
  | .complete _ => { r with ending := .complete true }
  | .failed => r

def failure : Reading := ⟨[], .failed⟩

end Reading

structure Cluster where
  requests : List Request
  /-- The last flag, if its value is to come in the next word. -/
  pending? : Option Flag := none
  deriving Repr, DecidableEq

def Usage.cluster (u : Usage) (f : Flag) : List Char → Option Cluster
  | [] => some (if f.takesValue then ⟨[], some f⟩ else ⟨[.flag f.long ""], none⟩)
  | c :: rest =>
    if f.takesValue then some ⟨[.flag f.long (String.ofList (c :: rest))], none⟩
    else do
      let g ← u.flag? (String.ofList ['-', c])
      let more ← u.cluster g rest
      return { more with requests := .flag f.long "" :: more.requests }

def Usage.flagCluster (u : Usage) (word : String) (f : Flag) (attached? : Option String) :
    Option Cluster :=
  match attached? with
  | none => u.cluster f []
  | some text =>
    if f.takesValue then some ⟨[.flag f.long text], none⟩
    else if text == "" || startsWith "--" word then none
    else u.cluster f text.toList

def dropSeparator : List (WordKind × String) → List (WordKind × String)
  | (.separator, _) :: rest => rest
  | words => words

def Cluster.before (c : Cluster) (r : Reading) : Reading :=
  c.requests.foldr .after r

def Usage.readFrom (u : Usage) : (fuel : Nat) → (left : Arguments) → List (WordKind × String) → Reading
  | 0, _, _ => .failure
  | _ + 1, _, [] => ⟨[], .complete false⟩
  | fuel + 1, left, (.flag f attached?, word) :: rest =>
    match u.flagCluster word f attached? with
    | none => .failure
    | some cluster =>
      match cluster.pending?, rest with
      | none, rest => cluster.before (u.readFrom fuel left rest)
      | some last, (.argument, value) :: rest =>
        cluster.before ((u.readFrom fuel left rest).after (.flag last.long value))
      | some _, _ => .failure
  | fuel + 1, left, (.unknownFlag, _) :: rest => (u.readFrom fuel left rest).withSurplus
  | fuel + 1, left, words =>
    match left, words, dropSeparator words with
    | .one, _, (.argument, value) :: rest =>
      (u.readFrom fuel .none (dropSeparator rest)).after (.argument value)
    | .rest, (.argument, value) :: rest, _ => ⟨[.rest value (rest.map Prod.snd)], .complete false⟩
    | .rest, _, (.argument, _) :: _ => .failure
    | _, _, _ => (u.readFrom fuel left (words.drop 1)).withSurplus

def Usage.read (u : Usage) (words : List String) : Reading :=
  let kinds := u.kinds words
  if kinds.any fun (kind, _) => kind == .ambiguousFlag then .failure
  else u.readFrom (words.length + 1) u.arguments kinds

end Keyforge.Cli
