import Keyforge.Shell.Expand

/-!
# Redirections

Before a command runs, its descriptors can be pointed to files, to documents of the script or to what
other descriptors stand for. First all targets are expanded, then the files are opened in order.
-/

namespace Keyforge.Shell

inductive Target where
  | file (direction : Direction) (path : String)
  | document (text : String)
  | descriptor (n : Nat)
  | nowhere

structure Pointing where
  descriptor : Nat
  target : Target

def expandRedirects (outputOf : Option Command → Run (List UInt8)) :
    List (Redirect Word) → Run (List Pointing)
  | [] => return []
  | r :: rest => do
    let target ← match r.direction with
      | .document n => do
        pure (.document (← expandDocument outputOf (((← get).documents.lookup n).getD [])))
      | .duplicate => do
        match (← expandText outputOf r.target).toList with
        | ['-'] => pure .nowhere
        | [c] =>
          if c.isDigit then pure (.descriptor (c.toNat - '0'.toNat))
          else refuse "Syntax error: Bad fd number"
        | _ => refuse "Syntax error: Bad fd number"
      | d => do pure (.file d (← expandText outputOf r.target))
    return ⟨r.descriptor, target⟩ :: (← expandRedirects outputOf rest)

def descriptorAt? (path : String) : Option Nat :=
  match path with
  | "/dev/stdin" => some 0
  | "/dev/stdout" => some 1
  | "/dev/stderr" => some 2
  | path =>
    if path.startsWith "/dev/fd/" then (String.ofList (path.toList.drop 8)).toNat? else none

def openFile (d : Direction) (path : String) : Run Nat := do
  let m ← get
  let cannot (why : String) : Run Nat :=
    refuse ("cannot " ++ (if d == .read then "open " else "create ") ++ path ++ ": " ++ why)
  let opened (names : List String) (entry : File.Entry) : Run Nat := do
    if !isInTree names then addOpening { channel := .nothing }
    else
      set { m with tree := m.tree.put names entry }
      addOpening { channel := .file names, appends := d == .append }
  match (descriptorAt? path).bind m.opening? with
  | some (n, _) => return n
  | none =>
    match m.place path with
    | .found _ .directory =>
      if d == .read then addOpening { channel := .nothing } else cannot "Is a directory"
    | .found names (.file content) =>
      if d == .write && isInTree names && m.options.contains 'C' then cannot "File exists"
      else
        opened names (.file (if d == .write || d == .overwrite then "" else content))
    | .vacant names =>
      if d == .read then cannot "No such file"
      else if path.endsWith "/" then cannot "Is a directory"
      else opened names (.file "")
    | .refused refusal =>
      match refusal with
      | .missing | .notDirectory =>
        cannot (if d == .read then "No such file" else "Directory nonexistent")
      | refusal => cannot refusal.message

def Pointing.apply (p : Pointing) : Run Unit := do
  match p.target with
  | .file d path => bindDescriptor p.descriptor (← openFile d path)
  | .document text =>
    let b ← addBuffer (octets text)
    bindDescriptor p.descriptor (← addOpening { channel := .buffer b })
  | .descriptor n =>
    match (← get).opening? n with
    | some (k, _) => bindDescriptor p.descriptor k
    | none => refuse (Text.natText n ++ ": Bad file descriptor")
  | .nowhere =>
    modify fun m => { m with descriptors := m.descriptors.filter fun (d, _) => d != p.descriptor }

def keepingDescriptors {α : Type} (body : Run α) : Run α := do
  let before := (← get).descriptors
  let outcome ← attempt body
  modify fun m => { m with descriptors := before }
  resume outcome

end Keyforge.Shell
