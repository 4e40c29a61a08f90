import Keyforge.Datum.Issue
import Keyforge.File.Tree
import Keyforge.Yaml.Cursor

/-!
# Errors of board definitions

Either no definition of a board is found, or one is found that cannot be used.
-/

namespace Keyforge.Board

/-- Why a definition could not be fetched. -/
inductive FetchError where
  | unreachable (reason : String)
  | noEntry (key : String)
  | malformed
  deriving Repr, DecidableEq

def FetchError.message : FetchError → String
  | .unreachable reason => "<urlopen error " ++ reason ++ ">"
  | .noEntry key => Text.quoted key
  | .malformed => ""

/-- Why there is no board. -/
inductive Error where
  | noFile (path : File.Path)
  | notInRoots (keyboard : String) (roots : List File.Path)
  | notOnServer (keyboard : String)
  | fetch (keyboard : String) (error : FetchError)
  | unreadableFile (path : File.Path)
  | unreadableJson (path : File.Path)
  | noMapping (keyboard : String)
  | invalid (keyboard : String) (issues : List Datum.Issue)
  | noLayouts (keyboard : String)
  | noLayout (keyboard layout : String) (available : List String)
  | geometry (keyboard : String) (issues : List Datum.Issue)
  /-- A definition file of a tree holds something else than a mapping. -/
  | partNoMapping
  | encoders
  /-- The server's answer is not shaped as a mapping of mappings. -/
  | answerShape
  | cacheSyntax
  | tooLong (digits : Nat)
  | undecodable
  | tooDeep
  /-- A value in a definition file could not be made. -/
  | load (error : Yaml.LoadError)
  | file (error : File.Error)

inductive Error.Kind where
  | notFound
  | invalid
  | other
  deriving Repr, DecidableEq

def Error.kind : Error → Error.Kind
  | .noFile _ | .notInRoots _ _ | .notOnServer _ | .fetch _ _ => .notFound
  | .unreadableFile _ | .unreadableJson _ | .noMapping _ | .invalid _ _ | .noLayouts _
  | .noLayout _ _ _ | .geometry _ _ => .invalid
  | _ => .other

/-- The wording of an error; what was found by checking is in its issues. -/
def Error.message : Error → String
  | .noFile path => "Board definition file \"" ++ path.text ++ "\" does not exist"
  | .notInRoots keyboard roots =>
    "Board \"" ++ keyboard ++ "\" was not found in any of the board roots [" ++
      String.intercalate ", " (roots.map (·.shown)) ++ "]"
  | .notOnServer keyboard =>
    "QMK keyboard \"" ++ keyboard ++ "\" not found, please make sure you specify an existing " ++
      "keyboard (hint: check from https://config.qmk.fm)"
  | .fetch keyboard error =>
    "Could not fetch QMK keyboard \"" ++ keyboard ++ "\": " ++ error.message
  | .unreadableFile path => "Board definition file \"" ++ path.text ++ "\" cannot be parsed: "
  | .unreadableJson path => "\"" ++ path.text ++ "\" is not valid JSON: "
  | .noMapping keyboard => "Board definition of \"" ++ keyboard ++ "\" must be a mapping"
  | .invalid keyboard _ => "Board definition of \"" ++ keyboard ++ "\" is invalid: "
  | .noLayouts keyboard => "Board \"" ++ keyboard ++ "\" does not define any layouts"
  | .noLayout keyboard layout available =>
    "Could not find layout \"" ++ layout ++ "\" for board \"" ++ keyboard ++
      "\", available options are: " ++ Text.quotedList available
  | .geometry keyboard _ => "Board \"" ++ keyboard ++ "\" has an invalid geometry: "
  | .file error => error.message
  | _ => ""

def Error.issues? : Error → Option (List Datum.Issue)
  | .invalid _ issues | .geometry _ issues => some issues
  | _ => none

end Keyforge.Board
