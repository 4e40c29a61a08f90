import Keyforge.Document.Problem

/-!
# State of the reader

The reader of documents knows which region of the document it is in, and a region holds what is read
of it so far. A line that ends one region and belongs to the next is seen again there; `State.rank`
bounds how often.
-/

namespace Keyforge.Document

/-- What a document has to meet to be read. -/
structure Limits where
  versions : List String := ["1.0"]
  maxNameLength : Int := 100
  deriving Repr, DecidableEq

/-! ### State -/

/-- A layer whose block is being read. -/
structure Draft where
  name : String
  id? : Option String := none
  color? : Option Color := none
  category? : Option String := none
  colorsEnabled : Bool := true
  deriving Repr, DecidableEq

/-- A tap dance whose entry is being read. -/
structure TapDanceDraft where
  line : Nat
  name : String
  /-- The keycodes of the actions by their words. -/
  actions : List (String × String) := []
  deriving Repr, DecidableEq

/-- The description of a key, kept until all layers are read. -/
structure DescriptionNote where
  line : Nat
  layer : Nat
  position : Position
  text : String
  deriving Repr, DecidableEq

/-- A reference to a category, kept until all categories are read. -/
structure CategoryNote where
  id : String
  line : Nat
  column : Nat
  deriving Repr, DecidableEq

/-- The region a line after the frontmatter is in. -/
inductive Region where
  | body
  | skipped
  | categories
  | descriptions
  | settings
  | tapDances
  | layer (draft : Draft)
  | tableHeader (draft : Draft)
  | tableSeparator (draft : Draft) (columns : Nat)
  | table (draft : Draft) (columns rows : Nat) (keys : List (Position × Key))
  deriving Repr, DecidableEq

/-- What has been read after the frontmatter. -/
structure Content where
  metadata : Metadata
  layers : List Layer := []
  categories : List Category := []
  settings : List (String × String) := []
  tapDances : List TapDanceDraft := []
  descriptions : List DescriptionNote := []
  uses : List CategoryNote := []
  warnings : List Warning := []
  deriving Repr, DecidableEq

/-- The state of the reader between two lines. -/
inductive State where
  | start
  | frontmatter (opened : Nat) (lines : List (List Char))
  | inside (content : Content) (region : Region)
  deriving Repr, DecidableEq

/-- What becomes of a line: it is dealt with, or it is to be seen again in the new state. -/
inductive Step where
  | done (state : State)
  | again (state : State)
  deriving Repr, DecidableEq

def Region.rank : Region → Nat
  | .layer _ => 2
  | .tableHeader _ | .tableSeparator _ _ | .table _ _ _ _ => 1
  | _ => 0

def State.rank : State → Nat
  | .start => 0
  | .frontmatter _ _ => 0
  | .inside _ region => region.rank

def State.warnings : State → List Warning
  | .inside content _ => content.warnings
  | _ => []

def problemAt (problem : Problem) (line : Nat) (column? : Option Nat := none) : ReadError :=
  .located ⟨problem, line, column?⟩

end Keyforge.Document
