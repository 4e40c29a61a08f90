/-!
# Issues

What is wrong with a value that should describe something: where in the value, and why. `Verdict`
collects issues instead of stopping at the first one.
-/

namespace Keyforge.Datum

inductive Step where
  | field (name : String)
  | index (n : Int)
  deriving Repr, DecidableEq

inductive Cause where
  | missing
  | notText
  /-- A text cannot be encoded, or bytes are no text. -/
  | notUnicode
  | notInteger
  | unreadableInteger
  | hugeInteger
  | fractionalInteger
  | notFinite
  | notNumber
  | unreadableNumber
  | notFlag
  | unreadableFlag
  | notList
  | notSet
  | notMapping
  | notTuple
  | tooLong
  | notModel
  | notRecord
  | notChoice
  | notPath
  | notStamp
  | unreadableStamp
  | unreadableDate
  | assertion (text : String)
  | refused (text : String)
  deriving Repr, DecidableEq

def Cause.code : Cause → String
  | .missing => "missing"
  | .notText => "string_type"
  | .notUnicode => "string_unicode"
  | .notInteger => "int_type"
  | .unreadableInteger => "int_parsing"
  | .hugeInteger => "int_parsing_size"
  | .fractionalInteger => "int_from_float"
  | .notFinite => "finite_number"
  | .notNumber => "float_type"
  | .unreadableNumber => "float_parsing"
  | .notFlag => "bool_type"
  | .unreadableFlag => "bool_parsing"
  | .notList => "list_type"
  | .notSet => "set_type"
  | .notMapping => "dict_type"
  | .notTuple => "tuple_type"
  | .tooLong => "too_long"
  | .notModel => "model_type"
  | .notRecord => "dataclass_type"
  | .notChoice => "literal_error"
  | .notPath => "path_type"
  | .notStamp => "datetime_type"
  | .unreadableStamp => "datetime_parsing"
  | .unreadableDate => "datetime_from_date_parsing"
  | .assertion _ => "assertion_error"
  | .refused _ => "value_error"

def Cause.message? : Cause → Option String
  | .assertion text => some ("Assertion failed, " ++ text)
  | .refused text => some ("Value error, " ++ text)
  | _ => none

structure Issue where
  path : List Step
  cause : Cause
  deriving Repr, DecidableEq

inductive Verdict (α : Type u) where
  | ok (value : α)
  | faults (issues : List Issue)
  deriving Repr

namespace Verdict

def map (f : α → β) : Verdict α → Verdict β
  | ok a => ok (f a)
  | faults issues => faults issues

def app : Verdict (α → β) → Verdict α → Verdict β
  | ok f, ok a => ok (f a)
  | ok _, faults issues => faults issues
  | faults issues, ok _ => faults issues
  | faults first, faults second => faults (first ++ second)

instance : Applicative Verdict where
  pure := ok
  seq f a := app f (a ())

def andThen (f : α → Verdict β) : Verdict α → Verdict β
  | ok a => f a
  | faults issues => faults issues

def fault (cause : Cause) : Verdict α := faults [⟨[], cause⟩]

def within (step : Step) : Verdict α → Verdict α
  | ok a => ok a
  | faults issues => faults (issues.map fun issue => { issue with path := step :: issue.path })

def require (condition : Bool) (text : String) (value : α) : Verdict α :=
  if condition then ok value else fault (.assertion text)

end Verdict

end Keyforge.Datum
