import Keyforge.Shell.Tool.Basic

/-!
# Tools for files

Tools that list, make, copy, move and remove files and directories.
-/

namespace Keyforge.Shell.Tool

/-! ### Listing -/

def sorted (names : List String) : List String :=
  names.mergeSort fun a b => File.Tree.textAtMost a.toList b.toList

def listKnowledge : Knowledge where
  tool := "ls"
  flags := "1aAd"
  status := 2

/-- The names in a directory that are listed. -/
def listedIn (chosen : Chosen) (tree : File.Tree) (path : List String) : List String :=
  let showsHidden := chosen.has 'a' || chosen.has 'A'
  let dots := if chosen.has 'a' then [".", ".."] else []
  sorted (dots ++ (tree.namesIn path).filter fun n => showsHidden || !n.startsWith ".")

def list : Tool := fun arguments => listKnowledge.run arguments fun chosen names => do
  let names := if names.isEmpty then ["."] else names
  let m ← get
  let status ← forEach (fun name => do
    let miss (refusal : File.Refusal) : Run Nat :=
      failed "ls" ("cannot access " ++ marked name ++ ": " ++ refusal.message) 2
    match m.place name with
    | .found _ _ => return 0
    | .vacant _ => miss .missing
    | .refused refusal => miss refusal) names
  let places := (sorted (names.map gather)).map fun name => (name, m.place name)
  let isFlat := chosen.has 'd'
  let files := places.filterMap fun
    | (name, .found _ (.file _)) => some name
    | (name, .found _ .directory) => if isFlat then some name else none
    | _ => none
  let text (names : List String) : String := String.join (names.map (· ++ "\n"))
  let parts := places.filterMap fun
    | (name, .found path .directory) =>
      if isFlat then none
      else some ((if 1 < names.length then name ++ ":\n" else "") ++ text (listedIn chosen m.tree path))
    | _ => none
  say (spread (String.intercalate "\n" ((if files.isEmpty then [] else [text files]) ++ parts)))
  return status

/-! ### Making -/

def pathFronts (path : String) : List String :=
  let parts := (path.splitOn "/").zipIdx
  parts.filterMap fun (part, n) =>
    if part == "" then none
    else some (String.intercalate "/" ((parts.take (n + 1)).map (·.1)))

def makeOne (mayExist isLast : Bool) (name : String) : Run Nat := do
  let m ← get
  let miss (why : String) : Run Nat :=
    failed "mkdir" ("cannot create directory " ++ curled name ++ ": " ++ why)
  match m.place name with
  | .found _ .directory => if mayExist then return 0 else miss File.Refusal.present.message
  | .found _ (.file _) =>
    miss (if isLast then File.Refusal.present else File.Refusal.notDirectory).message
  | .vacant path =>
    if isInTree path then set { m with tree := m.tree.put path .directory }
    return 0
  | .refused refusal =>
    let trimmed := String.ofList (name.toList.reverse.dropWhile (· == '/')).reverse
    let isThere := refusal == .notDirectory && m.isFile trimmed
    miss (if isThere then File.Refusal.present else refusal).message

def makeFronts : List String → Run Nat
  | [] => return 0
  | name :: rest => do
    let status ← makeOne true rest.isEmpty name
    if status == 0 then makeFronts rest else return status

def makeDirectories : Tool := fun arguments =>
  let k : Knowledge := { tool := "mkdir", flags := "p" }
  k.run arguments fun chosen names => do
    if names.isEmpty then misuse "mkdir" "missing operand"
    else
      forEach (fun name =>
        if chosen.has 'p' && name != "" then makeFronts (pathFronts name)
        else makeOne false true name) names

def touch : Tool := fun arguments =>
  let k : Knowledge := { tool := "touch", flags := "c" }
  k.run arguments fun chosen names => do
    if names.isEmpty then misuse "touch" "missing file operand"
    else
      forEach (fun name => do
        let m ← get
        let miss (what : String) (refusal : File.Refusal) : Run Nat :=
          failed "touch" (what ++ " " ++ marked name ++ ": " ++ refusal.message)
        match m.place name with
        | .found _ _ => return 0
        | .vacant path =>
          if chosen.has 'c' then return 0
          else if name.endsWith "/" then miss "setting times of" .missing
          else
            if isInTree path then set { m with tree := m.tree.put path (.file "") }
            return 0
        | .refused refusal => miss "cannot touch" refusal) names

/-! ### Removing -/

def withoutBelow (tree : File.Tree) (names : List String) : File.Tree :=
  ⟨tree.entries.filter fun (path, _) => !names.isPrefixOf path⟩

def remove : Tool := fun arguments =>
  let k : Knowledge := { tool := "rm", flags := "rRf" }
  k.run arguments fun chosen names => do
    let isRecursive := chosen.has 'r' || chosen.has 'R'
    let isForced := chosen.has 'f'
    if names.isEmpty then if isForced then return 0 else misuse "rm" "missing operand"
    else
      forEach (fun name => do
        let m ← get
        let miss (why : String) : Run Nat :=
          failed "rm" ("cannot remove " ++ marked name ++ ": " ++ why)
        let gone (path : List String) : Run Nat := do
          set { m with tree := withoutBelow m.tree path }
          return 0
        match m.place name with
        | .found path (.file _) => gone path
        | .found path .directory =>
          let written := ((gather name).splitOn "/").filter (· != "")
          if isRecursive && [".", ".."].contains (written.getLastD "") then
            failed "rm" ("refusing to remove '.' or '..' directory: skipping " ++ marked name)
          else if isRecursive then gone path
          else miss File.Refusal.isDirectory.message
        | .vacant _ => if isForced then return 0 else miss File.Refusal.missing.message
        | .refused refusal =>
          if isForced && (refusal == .missing || refusal == .notDirectory) then return 0
          else miss refusal.message) names

/-! ### Copying and moving -/

def lastName (path : String) : String := ((File.Path.ofString (gather path)).parts).getLastD ""

def graft (tree : File.Tree) (source target : List String) : File.Tree :=
  tree.entries.foldl (fun t (path, entry) =>
    if source.isPrefixOf path then t.put (target ++ path.drop source.length) entry else t) tree

structure Transfer where
  tool : String
  keeps : Bool
  isRecursive : Bool

def Transfer.one (t : Transfer) (target name : String) : Run Nat := do
  let m ← get
  let target := if m.isDirectory target then
      (if target.endsWith "/" then target else target ++ "/") ++ spread (lastName name)
    else target
  let done (path other : List String) : Run Nat := do
    let tree := graft m.tree path other
    if isInTree other then set { m with tree := if t.keeps then tree else withoutBelow tree path }
    return 0
  match m.place name, m.place target with
  | .vacant _, _ => failed t.tool ("cannot stat " ++ marked name ++ ": " ++ File.Refusal.missing.message)
  | .refused refusal, _ => failed t.tool ("cannot stat " ++ marked name ++ ": " ++ refusal.message)
  | .found path entry, .found other _ | .found path entry, .vacant other =>
    if path == other then failed t.tool (marked name ++ " and " ++ marked target ++ " are the same file")
    else if t.keeps && !t.isRecursive && entry == .directory then
      failed t.tool ("-r not specified; omitting directory " ++ marked name)
    else done path other
  | .found _ _, .refused refusal =>
    failed t.tool ((if t.keeps then "cannot create regular file " ++ marked target
      else "cannot move " ++ marked name ++ " to " ++ marked target) ++ ": " ++ refusal.message)

def transfer (tool : String) (keeps : Bool) : Tool := fun arguments =>
  let k : Knowledge := { tool, flags := "rRaf" }
  k.run arguments fun chosen names => do
    let t : Transfer :=
      { tool, keeps, isRecursive := chosen.has 'r' || chosen.has 'R' || chosen.has 'a' }
    match names.dropLast, names.getLast? with
    | source :: others, some target =>
      if !others.isEmpty && !(← get).isDirectory target then
        failed tool ("target " ++ marked target ++ ": " ++ File.Refusal.missing.message)
      else forEach (t.one target) (source :: others)
    | _, some name => misuse tool ("missing destination file operand after " ++ marked name)
    | _, none => misuse tool "missing file operand"

/-! ### Rights -/

/-- The rights that are set by a number with octal digits, or by adding or taking the right to execute. -/
def changed? (mode : Nat) : String → Option Nat
  | "+x" | "a+x" => some (Nat.lor mode 73)
  | "u+x" => some (Nat.lor mode 64)
  | "-x" | "a-x" => some (mode - Nat.land mode 73)
  | change =>
    let n := (Arithmetic.digitsAt 8 change.toList).1
    if change.isEmpty || !change.toList.all ("01234567".toList.contains) || 512 ≤ n then none else some n

def changeMode : Tool := fun arguments => do
  match arguments with
  | [] => misuse "chmod" "missing operand"
  | [change] => misuse "chmod" ("missing operand after " ++ curled change)
  | change :: names =>
    if (changed? 0 change).isNone then misuse "chmod" ("invalid mode: " ++ curled change)
    else
      forEach (fun name => do
        let m ← get
        let miss (refusal : File.Refusal) : Run Nat :=
          failed "chmod" ("cannot access " ++ marked name ++ ": " ++ refusal.message)
        match m.place name with
        | .found path _ =>
          let mode := (changed? (m.mode path) change).getD 0
          set { m with modes := Pairs.put path mode m.modes }
          return 0
        | .vacant _ => miss .missing
        | .refused refusal => miss refusal) names

end Keyforge.Shell.Tool
