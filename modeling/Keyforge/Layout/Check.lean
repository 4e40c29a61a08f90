import Keyforge.Layout.Basic

/-!
# Requirements on layouts

Every part of a layout is checked when it is made: names have their forms, texts that must say
something are not blank, and the whole fits together.
-/

namespace Keyforge

open Datum (Verdict)

inductive Part where
  | category
  | key
  | layer
  | tapDance
  | metadata
  | layout
  deriving Repr, DecidableEq

structure Rejected where
  part : Part
  issues : List Datum.Issue
  deriving Repr, DecidableEq

def Part.accept (part : Part) : Verdict α → Except Rejected α
  | .ok value => .ok value
  | .faults issues => .error ⟨part, issues⟩

/-! ### Parts -/

def nonBlank (message : String) (s : String) : Verdict String :=
  Verdict.require (Text.strip s != "") message (Text.strip s)

def checkSome (f : α → Verdict β) : Option α → Verdict (Option β)
  | none => .ok none
  | some a => (f a).map some

namespace Category

def checkId (id : String) : Verdict String :=
  Verdict.require (Name.isCategoryId id.toList)
    ("Category id \"" ++ id ++ "\" must be lowercase kebab-case") id

/-- A category name, which is short and not blank. -/
def checkName (name : String) : Verdict String :=
  (nonBlank "Category name cannot be empty" name).andThen fun name =>
    Verdict.require (Text.size name.toList ≤ 50)
      ("Category name \"" ++ name ++ "\" is longer than 50 characters") name

def make (id name : String) (color : Color) (description? : Option String) : Verdict Category :=
  Category.mk <$> (checkId id).within (.field "id") <*> (checkName name).within (.field "name") <*>
    .ok color <*> .ok description?

end Category

namespace Key

def checkKeycode (keycode : String) : Verdict String := nonBlank "Keycode cannot be empty" keycode

/-- A description; a blank one is dropped. -/
def tidyDescription (description? : Option String) : Option String :=
  description?.bind fun text => if Text.strip text == "" then none else some (Text.strip text)

/-- A key whose keycode is checked and whose description is tidied. -/
def make (key : Key) : Verdict Key :=
  ((checkKeycode key.keycode).within (.field "keycode")).map fun keycode =>
    { key with keycode, description? := tidyDescription key.description? }

end Key

namespace Layer

def checkName (name : String) : Verdict String := nonBlank "Layer name cannot be empty" name

def checkId (id : String) : Verdict String :=
  Verdict.require (Name.isLayerId id.toList)
    ("Layer id \"" ++ id ++
      "\" must contain only letters, digits and \"-\", and cannot start with \"-\"") id

def numberFrom : Nat → List (Position × Key) → List (Position × Key)
  | _, [] => []
  | n, (p, key) :: rest => (p, { key with slot := (n : Int) }) :: numberFrom (n + 1) rest

/-- Keys in the order of their positions, with their slots numbered in that order. -/
def arrange (keys : List (Position × Key)) : List (Position × Key) :=
  numberFrom 0 (keys.mergeSort fun a b => a.1.atMost b.1)

def arranged (layer : Layer) : Layer := { layer with keys := arrange layer.keys }

/-- What is said of a key that is stored under another position than its own. -/
def misplacedMessage (under : Position) (key : Key) : String :=
  "Key " ++ key.keycode ++ " at " ++ key.position.text ++ " is stored under position " ++ under.text

/-- Arranges the keys of a layer, which have to be stored under their own positions. -/
def checkKeys (layer : Layer) : Verdict Layer :=
  match layer.keys.find? (fun (p, key) => !(p == key.position)) with
  | some (under, key) => .fault (.assertion (misplacedMessage under key))
  | none => .ok layer.arranged

def make (layer : Layer) : Verdict Layer :=
  let fields := (fun name id? => { layer with name, id? }) <$>
    (checkName layer.name).within (.field "name") <*>
    (checkSome checkId layer.id?).within (.field "id")
  fields.andThen checkKeys

end Layer

namespace TapDance

def checkName (name : String) : Verdict String :=
  Verdict.require (Name.isTapDanceName name.toList)
    ("Tap dance name \"" ++ name ++ "\" must contain only a-z, A-Z, 0-9 and \"_\"") name

def checkKeycode (keycode : String) : Verdict String :=
  nonBlank "Tap dance keycode cannot be empty" keycode

def make (t : TapDance) : Verdict TapDance :=
  TapDance.mk <$> (checkName t.name).within (.field "name") <*>
    (checkKeycode t.single).within (.field "single_tap") <*>
    (checkSome checkKeycode t.double?).within (.field "double_tap") <*>
    (checkSome checkKeycode t.hold?).within (.field "hold")

end TapDance

namespace Metadata

def checkName (name : String) : Verdict String := nonBlank "Layout name cannot be empty" name

def checkTags (tags : List String) : Verdict (List String) :=
  match tags.find? (fun tag => !Name.isTag tag.toList) with
  | some tag =>
    .fault (.assertion ("Tag \"" ++ tag ++
      "\" must be lowercase, containing only a-z, 0-9 and \"-\""))
  | none => .ok tags

/-- Whether the times do not contradict each other. Times of which only one has a zone cannot be
compared. -/
def datesAgree (m : Metadata) : Bool :=
  m.created.offset.isSome != m.modified.offset.isSome || m.created.instant ≤ m.modified.instant

def checkDates (m : Metadata) : Verdict Metadata :=
  Verdict.require m.datesAgree "Modification time cannot precede creation time" m

end Metadata

/-! ### The whole -/

namespace Layout

/-- The first layer whose number is not its place, with that place. -/
def misnumbered? : Nat → List Layer → Option (Nat × Layer)
  | _, [] => none
  | n, layer :: rest => if layer.index == n then misnumbered? (n + 1) rest else some (n, layer)

def CategoryUse.place (u : CategoryUse) : String :=
  match u.key? with
  | some key =>
    "key " ++ key.keycode ++ " at " ++ key.position.text ++ " on layer " ++
      Text.intText u.layer.index
  | none => "layer " ++ Text.intText u.layer.index

/-- What is wrong with a layout as a whole, if anything is. -/
def problem? (l : Layout) : Option String :=
  if l.layers.isEmpty then some "A layout needs at least the base layer"
  else
    match misnumbered? 0 l.layers with
    | some (n, layer) =>
      some ("Layer \"" ++ layer.name ++ "\" has index " ++ Text.intText layer.index ++
        ", expected " ++ Text.natText n)
    | none =>
      let ids := l.categories.map (·.id)
      if !allDistinct ids then some "Category ids must be unique"
      else if !allDistinct (l.layers.filterMap (·.id?)) then
        some "Layer ids must be unique"
      else if !allDistinct (l.tapDances.map (·.enumerator)) then
        some "Tap dance names must be unique, ignoring case"
      else
        (l.categoryUses.find? fun u => !ids.contains u.id).map fun u =>
          "Category \"" ++ u.id ++ "\" referenced by " ++ u.place ++ " is not defined"

def check (l : Layout) : Verdict Layout :=
  match l.problem? with
  | none => .ok l
  | some text => .fault (.assertion text)

end Layout

end Keyforge
