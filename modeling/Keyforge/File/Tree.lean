import Keyforge.File.Path
import Keyforge.Pairs
import Keyforge.Text.Utf8

/-!
# File trees

The files and directories below a working directory, as a value. Operations take paths relative to
that directory and fail as they do on a disk.
-/

namespace Keyforge.File

/-! ### Errors -/

inductive Refusal where
  | missing
  | forbidden
  | busy
  | present
  | notDirectory
  | isDirectory
  | nameTooLong
  deriving Repr, DecidableEq

def Refusal.number : Refusal → Nat
  | .missing => 2
  | .forbidden => 13
  | .busy => 16
  | .present => 17
  | .notDirectory => 20
  | .isDirectory => 21
  | .nameTooLong => 36

def Refusal.message : Refusal → String
  | .missing => "No such file or directory"
  | .forbidden => "Permission denied"
  | .busy => "Device or resource busy"
  | .present => "File exists"
  | .notDirectory => "Not a directory"
  | .isDirectory => "Is a directory"
  | .nameTooLong => "File name too long"

inductive Error where
  | refused (refusal : Refusal) (path : String)
  | moveRefused (refusal : Refusal) (source target : String)
  | nullCharacter
  | unencodable (cause : Text.Unencodable)
  deriving Repr, DecidableEq

def encodingMessage (cause : Text.Unencodable) : String :=
  let what :=
    if cause.first = cause.last then
      "character " ++ Text.quoted (String.ofList (Text.ofCode cause.code)) ++ " in position " ++
        Text.natText cause.first
    else "characters in position " ++ Text.natText cause.first ++ "-" ++ Text.natText cause.last
  "'utf-8' codec can't encode " ++ what ++ ": surrogates not allowed"

def Error.message : Error → String
  | .refused refusal path =>
    "[Errno " ++ Text.natText refusal.number ++ "] " ++ refusal.message ++ ": " ++ Text.quoted path
  | .moveRefused refusal source target =>
    "[Errno " ++ Text.natText refusal.number ++ "] " ++ refusal.message ++ ": " ++
      Text.quoted source ++ " -> " ++ Text.quoted target
  | .nullCharacter => "embedded null byte"
  | .unencodable cause => encodingMessage cause

def Error.isRefusal : Error → Bool
  | .nullCharacter | .unencodable _ => false
  | _ => true

/-! ### Trees -/

inductive Entry where
  | file (content : String)
  | directory
  deriving Repr, DecidableEq

/-- A file tree. Every entry is listed once under the names that lead to it. -/
structure Tree where
  entries : List (List String × Entry) := []
  deriving Repr, DecidableEq, Inhabited

inductive Place where
  | found (names : List String) (entry : Entry)
  /-- Nothing, in a directory that exists. -/
  | vacant (names : List String)
  | refused (refusal : Refusal)
  deriving Repr, DecidableEq

namespace Tree

def entryAt? (t : Tree) (names : List String) : Option Entry :=
  if names.isEmpty then some .directory else t.entries.lookup names

def put (t : Tree) (names : List String) (entry : Entry) : Tree :=
  ⟨Pairs.put names entry t.entries⟩

def erase (t : Tree) (names : List String) : Tree := ⟨Pairs.erase names t.entries⟩

def nameLimit : Nat := 255

def follow (t : Tree) : (here : List String) → List String → Place
  | here, [] =>
    match t.entryAt? here with
    | some entry => .found here entry
    | none => .vacant here
  | here, name :: rest =>
    match t.entryAt? here with
    | none => .refused .missing
    | some (.file _) => .refused .notDirectory
    | some .directory =>
      if name == ".." then
        if here.isEmpty then .refused .missing else t.follow here.dropLast rest
      else if nameLimit < (Text.encode name).length then .refused .nameTooLong
      else t.follow (here ++ [name]) rest

def pathLimit : Nat := 4096

def place (t : Tree) (p : Path) : Place :=
  if pathLimit ≤ (Text.encode p.text).length then .refused .nameTooLong
  else if p.root == "" then t.follow [] p.parts
  else .refused .missing

def nameError? (name : String) : Option Error :=
  match Text.unencodableName? name with
  | some cause => some (.unencodable cause)
  | none => if name.toList.contains '\x00' then some .nullCharacter else none

def isFile (t : Tree) (p : Path) : Bool :=
  match t.place p with
  | .found _ (.file _) => true
  | _ => false

def isDirectory (t : Tree) (p : Path) : Bool :=
  match t.place p with
  | .found _ .directory => true
  | _ => false

def look (t : Tree) (p : Path) (see : Tree → Path → Bool) : Except Error Bool :=
  if (nameError? p.text).isSome then .ok false
  else
    match t.place p with
    | .refused .nameTooLong => .error (.refused .nameTooLong p.text)
    | _ => .ok (see t p)

def read (t : Tree) (p : Path) : Except Error String :=
  match nameError? p.text, t.place p with
  | some e, _ => .error e
  | none, .found _ (.file content) => .ok content
  | none, .found _ .directory => .error (.refused .isDirectory p.text)
  | none, .vacant _ => .error (.refused .missing p.text)
  | none, .refused refusal => .error (.refused refusal p.text)

def clear (t : Tree) (p : Path) : Except Error (Tree × List String) :=
  match nameError? p.text, t.place p with
  | some e, _ => .error e
  | none, .found names (.file _) | none, .vacant names => .ok (t.put names (.file ""), names)
  | none, .found _ .directory => .error (.refused .isDirectory p.text)
  | none, .refused refusal => .error (.refused refusal p.text)

def write (t : Tree) (p : Path) (content : String) : Tree × Except Error Unit :=
  match t.clear p, Text.unencodable? content with
  | .error e, _ => (t, .error e)
  | .ok (t, _), some cause => (t, .error (.unencodable cause))
  | .ok (t, names), none => (t.put names (.file content), .ok ())

def makeDirectory (t : Tree) (p : Path) : Except Error Tree :=
  match nameError? p.text, t.place p with
  | some e, _ => .error e
  | none, .found _ _ => .error (.refused .present p.text)
  | none, .vacant names => .ok (t.put names .directory)
  | none, .refused refusal => .error (.refused refusal p.text)

def ensureDirectory (t : Tree) (p : Path) : Tree × Except Error Unit :=
  match t.makeDirectory p with
  | .ok t => (t, .ok ())
  | .error e => (t, if !e.isRefusal || !t.isDirectory p then .error e else .ok ())

def makeDirectoriesFrom : (depth : Nat) → Tree → Path → Tree × Except Error Unit
  | 0, t, p => t.ensureDirectory p
  | depth + 1, t, p =>
    match t.makeDirectory p with
    | .error (.refused .missing _) =>
      match makeDirectoriesFrom depth t p.parent with
      | (t, .error e) => (t, .error e)
      | (t, .ok ()) => t.ensureDirectory p
    | _ => t.ensureDirectory p

def makeDirectories (t : Tree) (p : Path) : Tree × Except Error Unit :=
  makeDirectoriesFrom p.parts.length t p

def remove (t : Tree) (p : Path) : Tree :=
  match t.place p with
  | .found names (.file _) => t.erase names
  | _ => t

def noTarget? (t : Tree) (p : Path) : Option Refusal :=
  match t.place p.parent with
  | .refused refusal => some refusal
  | .vacant _ => some .missing
  | .found _ (.file _) => some .notDirectory
  | .found _ .directory => if p.name == ".." then some .busy else none

def move (t : Tree) (source target : Path) : Except Error Tree :=
  let refuse (refusal : Refusal) : Except Error Tree :=
    .error (.moveRefused refusal source.text target.text)
  match nameError? source.text <|> nameError? target.text, t.noTarget? target with
  | some e, _ => .error e
  | none, some refusal => refuse refusal
  | none, none =>
    match t.place source, t.place target with
    | .found names (.file content), .found others (.file _) =>
      .ok (if names = others then t else (t.erase names).put others (.file content))
    | .found names (.file content), .vacant others =>
      .ok ((t.erase names).put others (.file content))
    | .found _ (.file _), .found _ .directory => refuse .isDirectory
    | .found _ .directory, _ => refuse .notDirectory
    | .vacant _, _ => refuse .missing
    | .refused refusal, _ => refuse refusal
    | _, .refused refusal => refuse refusal

/-! ### Listing -/

/-- One line of a listing: the path, and the content of a file. -/
structure Listed where
  path : String
  content? : Option String
  deriving Repr, DecidableEq

def codesAtMost : List Nat → List Nat → Bool
  | [], _ => true
  | _ :: _, [] => false
  | a :: as, b :: bs => if a == b then codesAtMost as bs else a < b

def textAtMost (a b : List Char) : Bool := codesAtMost (Text.codes a) (Text.codes b)

def namesIn (t : Tree) (directory : List String) : List String :=
  let names := t.entries.filterMap fun (path, _) =>
    if path.dropLast = directory then path.getLast? else none
  names.mergeSort fun a b => textAtMost a.toList b.toList

def listing (t : Tree) : List Listed :=
  let named := t.entries.map fun (names, entry) => (String.intercalate "/" names, entry)
  (named.mergeSort fun a b => textAtMost a.1.toList b.1.toList).map fun (path, entry) =>
    match entry with
    | .file content => ⟨path, some (Text.decode (Text.encode content))⟩
    | .directory => ⟨path ++ "/", none⟩

def furnish (t : Tree) (path : String) (content? : Option String) : Tree × Except Error Unit :=
  let p := Path.ofString path
  match content? with
  | none => t.makeDirectories p
  | some content =>
    match t.makeDirectories p.parent with
    | (t, .ok ()) => t.write p content
    | failed => failed

def furnishAll (t : Tree) : List (String × Option String) → Tree × Except Error Unit
  | [] => (t, .ok ())
  | (path, content?) :: rest =>
    match t.furnish path content? with
    | (t, .ok ()) => t.furnishAll rest
    | failed => failed

end Tree

end Keyforge.File
