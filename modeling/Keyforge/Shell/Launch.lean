import Keyforge.Build.Task
import Keyforge.Shell.Run

/-!
# Launching commands

A command line names a program and gives its arguments. It is found and run to its end in a
directory of a file tree, or the system refuses to start it.
-/

namespace Keyforge.Shell

def scriptDepth : Nat := 20000

def Ending.code : Ending → Int
  | .exited status => status
  | .killed signal => -(signal : Int)

def foundVariables : List (String × Variable) :=
  [("PATH", "/usr/local/sbin:/usr/local/bin:/usr/sbin:/usr/bin:/sbin:/bin"), ("HOME", "/root")].map
    fun (name, value) => (name, { value? := some value, isExported := true })

def Machine.start (tree : File.Tree) (directory : List String) : Machine where
  tree
  directory
  bindings := foundVariables
  openings := [{ channel := .nothing }, { channel := .console }]
  descriptors := [(0, 0), (1, 1), (2, 1)]

def refusalFor (tree : File.Tree) (p : File.Path) : File.Refusal :=
  match tree.place p with
  | .found _ _ => .forbidden
  | .vacant _ => .missing
  | .refused refusal => refusal

def resolve (m : Machine) (directory : File.Path) (name : String) : Except File.Refusal Program :=
  match m.findProgram name with
  | .ok (_, program) => .ok program
  | .error _ =>
    if name == "" || name == "." || name == ".." then .error .forbidden
    else if name.contains '/' then .error (refusalFor m.tree (directory.child name))
    else if File.Tree.nameLimit < (Text.encode name).length then .error .nameTooLong
    else .error .missing

def noDirectory? (tree : File.Tree) (p : File.Path) : Option File.Refusal :=
  match tree.place p with
  | .found _ .directory => none
  | .found _ (.file _) => some .notDirectory
  | .vacant _ => some .missing
  | .refused refusal => some refusal

def launch : Build.Toolchain := fun tree directory command =>
  let name := command.headD ""
  let m := Machine.start tree (treeRoot ++ directory.parts)
  match command.findSome? File.Tree.nameError? with
  | some error => .error error
  | none =>
    match noDirectory? tree directory, resolve m directory name with
    | some refusal, _ => .error (.refused refusal directory.text)
    | none, .error refusal => .error (.refused refusal name)
    | none, .ok program =>
      let arguments := (command.drop 1).map spread
      let (outcome, m) := (runProgram scriptDepth program arguments).run.run m
      let code := match outcome with
        | .ok ending => ending.code
        | .error e => (Ending.exited (e.status m.status)).code
      .ok ⟨m.tree, m.paused?, m.output.reverse.flatten, code⟩

end Keyforge.Shell
