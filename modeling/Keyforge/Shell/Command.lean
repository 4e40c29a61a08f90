import Keyforge.Text.Utf8

/-!
# Texts of octets

Programs work on octets, which need not be the encoding of any text. What they work on is kept as a
text with one character for every octet.
-/

namespace Keyforge.Shell

def ofOctets (bytes : List UInt8) : String :=
  String.ofList (bytes.map fun b => Char.ofNat b.toNat)

def octets (s : String) : List UInt8 := s.toList.map fun c => UInt8.ofNat c.toNat

def spread (s : String) : String := ofOctets (Text.encode s)

def gather (s : String) : String := Text.decodeExact (octets s)

/-!
## Commands

Scripts of a shell as data. A word is a list of pieces, some of which stand for text that is only
known when the command is run.
-/

inductive Direction where
  | read
  | write
  | overwrite
  | append
  | readWrite
  | duplicate
  | document (number : Nat)
  deriving Repr, DecidableEq

structure Redirect (ω : Type) where
  descriptor : Nat
  direction : Direction
  target : ω
  deriving Repr, DecidableEq

mutual

/-- A piece of a word. `inQuotes` tells that what it stands for is taken as it is. -/
inductive Piece where
  | literal (text : String) (inQuotes : Bool)
  | quotes
  | parameter (name : String) (use : Use) (inQuotes : Bool)
  | arithmetic (body : List Piece) (inQuotes : Bool)
  | output (script? : Option Command) (inQuotes : Bool)

/-- What is made of a parameter. `orEmpty` tells that an empty value counts like none. -/
inductive Use where
  | value
  | length
  | fallback (orEmpty : Bool) (word : List Piece)
  | assigned (orEmpty : Bool) (word : List Piece)
  | replaced (orEmpty : Bool) (word : List Piece)
  | demanded (orEmpty : Bool) (word : List Piece)
  | trimmed (fromEnd longest : Bool) (pattern : List Piece)
  | malformed

/-- A command. Some know the line they are in. -/
inductive Command where
  | simple (line : Nat) (assignments : List (String × List Piece)) (words : List (List Piece))
    (redirects : List (Redirect (List Piece)))
  | sequence (first second : Command)
  | both (first second : Command)
  | either (first second : Command)
  | negated (command : Command)
  | pipeline (commands : List Command)
  | background (command : Command)
  | redirected (line : Nat) (body : Command) (redirects : List (Redirect (List Piece)))
  | subshell (line : Nat) (body : Command) (redirects : List (Redirect (List Piece)))
  | conditional (test yes : Command) (no? : Option Command)
  | loop (untilSuccess : Bool) (test body : Command)
  | each (line : Nat) (name : String) (words : List (List Piece)) (body : Command)
  | choice (line : Nat) (subject : List Piece) (cases : List (List (List Piece) × Option Command))
  | function (name : String) (body : Command)

end

abbrev Word := List Piece

instance : Inhabited Command := ⟨.simple 0 [] [] []⟩

end Keyforge.Shell
