import Keyforge.Text.CodePoint
import Keyforge.Text.Lines

/-!
# Paths

A path is a root, which is empty for relative paths, and the names on the way. Empty names and
single dots are dropped when a path is read; double dots stay, as they need not lead back.
-/

namespace Keyforge.File

/-- A normalized path. `root` is empty, `/` or `//`. -/
structure Path where
  root : String := ""
  parts : List String := []
  deriving Repr, DecidableEq, Inhabited

namespace Path

def ofString (s : String) : Path :=
  let cs := s.toList
  let slashes := (cs.takeWhile (· == '/')).length
  let root := if slashes = 0 then "" else if slashes = 2 then "//" else "/"
  ⟨root, ((Text.splitAt '/' cs).map String.ofList).filter fun name => name != "" && name != "."⟩

def text (p : Path) : String :=
  if p.root == "" && p.parts.isEmpty then "."
  else p.root ++ String.intercalate "/" p.parts

def join (p q : Path) : Path :=
  if q.root == "" then ⟨p.root, p.parts ++ q.parts⟩ else q

def child (p : Path) (name : String) : Path := p.join (ofString name)

def name (p : Path) : String := p.parts.getLastD ""

def parent (p : Path) : Path := ⟨p.root, p.parts.dropLast⟩

def splitName (p : Path) : String × String :=
  let cs := p.name.toList
  let after := cs.reverse.takeWhile (· != '.')
  let stem := (cs.reverse.dropWhile (· != '.')).drop 1
  if stem.isEmpty || after.isEmpty || stem.length + after.length = cs.length then (p.name, "")
  else (String.ofList stem.reverse, "." ++ String.ofList after.reverse)

def suffix (p : Path) : String := p.splitName.2

def stem (p : Path) : String := p.splitName.1

inductive NameError where
  | invalid (name : String)
  | nameless (path : Path)
  deriving Repr, DecidableEq

def shown (p : Path) : String := "PosixPath(" ++ Text.quoted p.text ++ ")"

def NameError.message : NameError → String
  | .invalid name => "Invalid name " ++ Text.quoted name
  | .nameless path => path.shown ++ " has an empty name"

def withName (p : Path) (name : String) : Except NameError Path :=
  let q := ofString name
  if p.parts.isEmpty then .error (.nameless p)
  else if name.toList.getLast? == some '/' || q.root != "" || q.parts.length != 1 then
    .error (.invalid name)
  else .ok ⟨p.root, p.parts.dropLast ++ q.parts⟩

end Path

end Keyforge.File
