import Keyforge.File.Tree
import Keyforge.Firmware.Report

/-!
# Artifacts

The generated files of one keymap. They are written to temporary names first and only moved into
place once all of them are written.
-/

namespace Keyforge.Firmware

/-- The files of a keymap by their names, and what checking its layout found. -/
structure Artifacts where
  /-- The keyboard, unless its definition names it by something else than a text. -/
  keyboard? : Option String
  keymap : String
  files : List (String × String)
  report : Report := {}
  deriving Repr, DecidableEq

namespace Artifacts

inductive WriteError where
  | file (error : File.Error)
  | name (error : File.Path.NameError)
  /-- The keyboard has no name that a directory could have. -/
  | noKeyboard
  deriving Repr, DecidableEq

/-- A file that is written under a temporary name. -/
structure Staged where
  temporary : File.Path
  target : File.Path
  deriving Repr, DecidableEq

def paths (directory : File.Path) (name : String) : Except File.Path.NameError Staged :=
  let target := directory.child name
  (target.withName ("." ++ name ++ ".tmp")).map fun temporary => ⟨temporary, target⟩

/-- Removes the temporary files. -/
def discard (tree : File.Tree) (staged : List Staged) : File.Tree :=
  staged.foldl (fun tree s => tree.remove s.temporary) tree

/-- Writes files under temporary names, after those that are written already. If the system
refuses, those are removed. -/
def stage (directory : File.Path) : List (String × String) → (staged : List Staged) → File.Tree →
    File.Tree × Except WriteError (List Staged)
  | [], staged, tree => (tree, .ok staged)
  | (name, content) :: rest, staged, tree =>
    match paths directory name with
    | .error e => (tree, .error (.name e))
    | .ok s =>
      match tree.write s.temporary content with
      | (tree, .error e) => (if e.isRefusal then discard tree staged else tree, .error (.file e))
      | (tree, .ok ()) => stage directory rest (staged ++ [s]) tree

def commit : List Staged → File.Tree → File.Tree × Except WriteError Unit
  | [], tree => (tree, .ok ())
  | s :: rest, tree =>
    match tree.move s.temporary s.target with
    | .error e => (tree, .error (.file e))
    | .ok tree => commit rest tree

/-- Writes all files under temporary names, then moves them into place. -/
def write (a : Artifacts) (directory : File.Path) (tree : File.Tree) :
    File.Tree × Except WriteError (List File.Path) :=
  match tree.makeDirectories directory with
  | (tree, .error e) => (tree, .error (.file e))
  | (tree, .ok ()) =>
    match stage directory a.files [] tree with
    | (tree, .error e) => (tree, .error e)
    | (tree, .ok staged) =>
      match commit staged tree with
      | (tree, .error e) => (tree, .error e)
      | (tree, .ok ()) => (tree, .ok (staged.map (·.target)))

end Artifacts

end Keyforge.Firmware
