import Keyforge.Cli.Run
import Keyforge.Shell.Launch

/-!
# The program

Reads the files below the working directory and the environment, runs the command line on them and
writes back what changed.
-/

namespace Keyforge.Program

def variableOf (cs : List Char) : String × String :=
  (String.ofList (cs.takeWhile (· != '=')), String.ofList ((cs.dropWhile (· != '=')).drop 1))

def environment : IO Settings.Environment := do
  let bytes ← IO.FS.readBinFile "/proc/self/environ"
  let text := Text.decodeExact bytes.toList
  return ((Text.splitAt '\x00' text.toList).filter fun cs => !cs.isEmpty).map variableOf

/-- The files below the working directory, without those in hidden directories. -/
def workingTree : IO File.Tree := do
  let top ← IO.currentDir
  let isShown (directory : String) : Bool :=
    !((File.Path.ofString directory).name.startsWith ".")
  let mut tree : File.Tree := {}
  for path in ← top.walkDir fun directory => pure (isShown directory.toString) do
    let name := Text.keep (String.ofList (path.toString.toList.drop (top.toString.length + 1)))
    if ← path.isDir then
      tree := (tree.furnish name none).1
    else
      let bytes ← IO.FS.readBinFile path
      tree := (tree.furnish name (some (Text.decode bytes.toList))).1
  return tree

def writeBack (before after : File.Tree) : IO Unit := do
  for (names, entry) in after.entries do
    if before.entryAt? names != some entry then
      let path := Text.release (String.intercalate "/" names)
      match entry with
      | .directory => IO.FS.createDirAll path
      | .file content => IO.FS.writeBinFile path ⟨(Text.encode content).toArray⟩
  for (names, entry) in before.entries do
    if after.entryAt? names == none && entry != .directory then
      IO.FS.removeFile (Text.release (String.intercalate "/" names))

def standardInput : IO String := do
  let lines ← (← IO.getStdin).lines
  return Text.keep (String.join (lines.toList.map (· ++ "\n")))

/-- The present time, in whole seconds: that of a file made just now. -/
def present : IO Time.Stamp := do
  let (_, path) ← IO.FS.createTempFile
  let made ← path.metadata
  IO.FS.removeFile path
  return (Time.Stamp.ofSeconds? made.modified.sec 0).getD { date := ⟨1970, 1, 1⟩, offset := some 0 }

end Keyforge.Program

open Keyforge Keyforge.Program in
def main (words : List String) : IO UInt32 := do
  let tree ← workingTree
  let input ← if words.contains "-" then standardInput else pure ""
  let world : Cli.World :=
    { tree, input, environment := ← environment, now := ← present, toolchain := Shell.launch }
  let (world, result) := Cli.perform world (words.map Text.keep)
  writeBack tree world.tree
  IO.print (Text.release world.output)
  for entry in world.log do
    IO.eprintln (Text.release entry.text)
  IO.eprint (Text.release world.errors)
  match result with
  | .status n => return n.toUInt32
  | .escaped error =>
    IO.eprintln (Text.release error.message)
    return 1
