import Keyforge.Datum.Basic
import Keyforge.Pairs

/-!
# Views of data

What a value holds, for readers who know its shape: a value of another shape looks empty.
-/

namespace Keyforge.Datum

def entriesOf : Datum → List (Datum × Datum)
  | .map es => es
  | _ => []

def itemsOf : Datum → List Datum
  | .list items => items
  | _ => []

def text? : Datum → Option String
  | .text s => some s
  | _ => none

def textOf (d : Datum) : String := d.text?.getD ""

def intOf : Datum → Int
  | .int n => n
  | .bool b => if b then 1 else 0
  | _ => 0

def get (d : Datum) (name : String) : Datum := (d.get? name).getD .null

def getText? (d : Datum) (name : String) : Option String := (d.get? name).bind text?

def getText (d : Datum) (name : String) (default : String := "") : String :=
  (d.getText? name).getD default

def getItems (d : Datum) (name : String) : List Datum := itemsOf (d.get name)

def getInt (d : Datum) (name : String) : Int := intOf (d.get name)

def pairsOf (d : Datum) : List (String × String) :=
  Pairs.ofList <| (itemsOf d).map fun
    | .list [a, b] => (textOf a, textOf b)
    | _ => ("", "")

def filesOf (d : Datum) : List (String × Option String) :=
  (itemsOf d).map fun
    | .list [path, content] => (textOf path, content.text?)
    | _ => ("", none)

def hasAny (names : List String) (es : List (Datum × Datum)) : Bool :=
  es.any fun (k, _) => names.any fun name => sameKey k (.text name)

end Keyforge.Datum
