import Keyforge.Document.Cell
import Keyforge.Layout.Check
import Keyforge.Yaml.Cursor

/-!
# Problems of documents

Everything that can be wrong with a layout document, with the line and, where it is known, the
column at fault. Reading a document stops at the first problem; oddities that do not stop it become
warnings.
-/

namespace Keyforge.Document

inductive Problem where
  | noFrontmatter
  | empty
  | unterminatedFrontmatter
  | frontmatterSyntax
  | frontmatterNoMapping
  | frontmatterInvalid (issues : List Datum.Issue)
  | unsupportedVersion (version : String) (supported : List String)
  | nameTooLong (limit : Int)
  | layerNumber (expected found : Nat)
  | noProperty (line : String)
  | layerId (value : String)
  | layerColor (error : Color.Invalid)
  | layerCategory (value : String)
  | unbalancedRow
  | noSeparator
  | cellCount (cells columns : Nat)
  | cell (cause : Cell.Cause)
  | tableEnded
  | strayTable
  | noCategory (line : String)
  | repeatedCategory (id : String)
  | categoryInvalid (issues : List Datum.Issue)
  | noDescription (line : String)
  | noSetting (line : String)
  | actionWithoutName
  | repeatedAction (name action : String)
  | noTapDance (line : String)
  | noSingleTap (name : String)
  | tapDanceInvalid (issues : List Datum.Issue)
  | repeatedTapDance (name : String)
  | noLayers
  | undefinedCategory (id : String)
  | repeatedLayerId
  deriving Repr, DecidableEq

/-- The wording of a problem. Where the parts of a document were checked one by one, the issues say
more. -/
def Problem.message : Problem → String
  | .noFrontmatter => "document must start with a frontmatter block opened by '---'"
  | .empty => "document is empty"
  | .unterminatedFrontmatter => "unterminated frontmatter, missing closing '---'"
  | .frontmatterSyntax => "invalid YAML in frontmatter: "
  | .frontmatterNoMapping => "frontmatter must be a YAML mapping"
  | .frontmatterInvalid _ => "invalid frontmatter: "
  | .unsupportedVersion version supported =>
    "unsupported layout version \"" ++ version ++ "\", supported: " ++ Text.quotedList supported
  | .nameTooLong limit => "layout name is longer than " ++ Text.intText limit ++ " characters"
  | .layerNumber expected found =>
    "expected layer " ++ Text.natText expected ++ ", found layer " ++ Text.natText found
  | .noProperty line =>
    "expected a \"**Property**: value\" line or a table, got \"" ++ line ++ "\""
  | .layerId value =>
    "layer id \"" ++ value ++ "\" must contain only letters, digits and \"-\""
  | .layerColor error => error.message
  | .layerCategory value => "malformed category id \"" ++ value ++ "\""
  | .unbalancedRow => "unbalanced table row, rows must start and end with '|'"
  | .noSeparator => "expected a table separator row like |----|"
  | .cellCount cells columns =>
    "table row has " ++ Text.natText cells ++ " cells but the header declares " ++
      Text.natText columns
  | .cell cause => cause.message
  | .tableEnded => "table ended before its header and separator rows"
  | .strayTable => "table found outside of a layer block"
  | .noCategory line =>
    "expected \"- id: Name (#RRGGBB)\" category entry, got \"" ++ line ++ "\""
  | .repeatedCategory id => "category \"" ++ id ++ "\" is defined more than once"
  | .categoryInvalid _ => "invalid category: "
  | .noDescription line =>
    "expected \"- layer:row:col: text\" key description, got \"" ++ line ++ "\""
  | .noSetting line => "expected a \"**Name**: value\" setting, got \"" ++ line ++ "\""
  | .actionWithoutName => "tap dance action found before any tap dance name"
  | .repeatedAction name action =>
    "tap dance \"" ++ name ++ "\" defines \"" ++ action ++ "\" more than once"
  | .noTapDance line =>
    "expected \"- **name**:\" or \"- Single Tap/Double Tap/Hold: KEYCODE\" entry, got \"" ++ line ++
      "\""
  | .noSingleTap name => "tap dance \"" ++ name ++ "\" has no Single Tap action"
  | .tapDanceInvalid _ => "invalid tap dance: "
  | .repeatedTapDance name => "tap dance \"" ++ name ++ "\" is defined more than once"
  | .noLayers => "layout does not define any layers"
  | .undefinedCategory id =>
    "category \"" ++ id ++ "\" is not defined in the categories block"
  | .repeatedLayerId => "layer ids must be unique"

def Problem.issues? : Problem → Option (List Datum.Issue)
  | .frontmatterInvalid issues | .categoryInvalid issues | .tapDanceInvalid issues => some issues
  | _ => none

/-- A problem and where it is. Lines and columns count from one. -/
structure Located where
  problem : Problem
  line : Nat
  column? : Option Nat := none
  deriving Repr, DecidableEq

def Located.text (e : Located) : String :=
  "line " ++ Text.natText e.line ++
    (match e.column? with
      | some column => ", column " ++ Text.natText column
      | none => "") ++ ": " ++ e.problem.message

inductive ReadError where
  | located (error : Located)
  | frontmatter (error : Yaml.LoadError)
  | tooLong (digits : Nat)
  /-- A part that was read does not meet its own requirements. -/
  | rejected (part : Part) (issues : List Datum.Issue)

/-- Something odd that does not stop the reading. -/
inductive Warning where
  | unknownProperty (name : String) (line : Nat)
  | missingKey (layer : Nat) (position : Position) (line : Nat)
  deriving Repr, DecidableEq

def Warning.message : Warning → String
  | .unknownProperty name line =>
    "ignoring unknown layer property \"" ++ name ++ "\" at line " ++ Text.natText line
  | .missingKey layer position line =>
    "ignoring description for missing key " ++ Text.natText layer ++ ":" ++ position.text ++
      " at line " ++ Text.natText line

end Keyforge.Document
