import Keyforge.Board.Geometry

/-!
# Validation reports

What checking a layout against a board found. Errors keep the sources from being generated, warnings
do not.
-/

namespace Keyforge.Firmware

inductive Kind where
  | unmappedPosition
  | danglingCategory
  | lightCountMismatch
  | unknownKeycode
  | unknownLayerReference
  | keyCountMismatch
  | emptyLayer
  | unknownTapDance
  | unusedTapDance
  deriving Repr, DecidableEq

def Kind.all : List Kind :=
  [.unmappedPosition, .danglingCategory, .lightCountMismatch, .unknownKeycode,
    .unknownLayerReference, .keyCountMismatch, .emptyLayer, .unknownTapDance, .unusedTapDance]

def Kind.name : Kind → String
  | .unmappedPosition => "unmapped-position"
  | .danglingCategory => "dangling-category"
  | .lightCountMismatch => "light-count-mismatch"
  | .unknownKeycode => "unknown-keycode"
  | .unknownLayerReference => "unknown-layer-reference"
  | .keyCountMismatch => "key-count-mismatch"
  | .emptyLayer => "empty-layer"
  | .unknownTapDance => "unknown-tap-dance"
  | .unusedTapDance => "unused-tap-dance"

inductive Severity where
  | error
  | warning
  deriving Repr, DecidableEq

def Severity.name : Severity → String
  | .error => "error"
  | .warning => "warning"

/-- One finding, with the cell it concerns if there is one. -/
structure Finding where
  kind : Kind
  message : String
  severity : Severity := .error
  layer? : Option Int := none
  position? : Option Position := none
  keycode? : Option String := none
  suggestion? : Option String := none
  deriving Repr, DecidableEq

namespace Finding

/-- Whether a finding keeps the sources from being generated. -/
def isError (f : Finding) : Bool := f.severity == .error

def place (f : Finding) : String :=
  match f.layer? with
  | none => ""
  | some layer =>
    "[Layer " ++ Text.intText layer ++
      (match f.position? with
        | some p => " " ++ p.text
        | none => "") ++ "] "

/-- Whether the numbers of the place can be written. -/
def isWritable (f : Finding) : Bool :=
  f.layer?.all fun layer =>
    Number.isWritable layer && f.position?.all (·.coordinates.all Number.isWritable)

def text (f : Finding) : String :=
  f.place ++ f.kind.name ++ ": " ++ f.message ++
    match f.suggestion? with
    | none | some "" => ""
    | some suggestion => "\n  -> " ++ suggestion

end Finding

structure Report where
  errors : List Finding := []
  warnings : List Finding := []
  deriving Repr, DecidableEq, Inhabited

namespace Report

def ofFindings (findings : List Finding) : Report :=
  ⟨findings.filter Finding.isError, findings.filter fun f => !f.isError⟩

def isValid (r : Report) : Bool := r.errors.isEmpty

def isWritable (r : Report) : Bool := (r.errors ++ r.warnings).all Finding.isWritable

def text (r : Report) : String := Text.joinLines ((r.errors ++ r.warnings).map Finding.text)

def failureText (r : Report) : String :=
  "Layout has " ++ Text.natText r.errors.length ++ " validation error(s):\n" ++ r.text

end Report

end Keyforge.Firmware
