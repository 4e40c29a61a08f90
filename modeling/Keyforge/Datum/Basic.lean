import Keyforge.Time.Stamp

/-!
# Data

The value a data file holds before it is checked against what it should describe. Mappings keep the
order of their entries and may have keys of any kind.
-/

namespace Keyforge

inductive Datum where
  | null
  | bool (value : Bool)
  | int (value : Int)
  | float (value : Float)
  | text (value : String)
  | bytes (value : List UInt8)
  | date (value : Time.Date)
  | stamp (value : Time.Stamp)
  | list (items : List Datum)
  | tuple (items : List Datum)
  | set (items : List Datum)
  | map (entries : List (Datum × Datum))
  | enclosing (value : Datum)
  deriving Inhabited

namespace Datum

def integral? : Datum → Option Int
  | bool value => some (if value then 1 else 0)
  | int value => some value
  | float value =>
    match Number.view value with
    | .finite d => d.toInt?
    | _ => none
  | _ => none

/-- Whether two keys of a mapping are the same key. Numbers are compared by value, so that `1`,
`1.0` and `true` are one key, and so are stamps with zones. Collections are no keys. -/
def sameKey (a b : Datum) : Bool :=
  match a.integral?, b.integral? with
  | some m, some n => m == n
  | _, _ =>
    match a, b with
    | null, null => true
    | float x, float y => x == y || (x.isNaN && y.isNaN)
    | text s, text t => s == t
    | bytes s, bytes t => s == t
    | date s, date t => s == t
    | stamp s, stamp t => s.offset.isSome == t.offset.isSome && s.instant == t.instant
    | _, _ => false

def putEntry (key value : Datum) : List (Datum × Datum) → List (Datum × Datum)
  | [] => [(key, value)]
  | (k, v) :: rest =>
    if sameKey k key then (k, value) :: rest else (k, v) :: putEntry key value rest

def opened : Datum → Datum
  | enclosing value => value
  | value => value

def entry? (name : String) : List (Datum × Datum) → Option Datum
  | [] => none
  | (text k, v) :: rest => if k == name then some v.opened else entry? name rest
  | _ :: rest => entry? name rest

def get? (name : String) : Datum → Option Datum
  | map entries => entry? name entries
  | _ => none

def record (entries : List (String × Datum)) : Datum :=
  map (entries.map fun (name, value) => (text name, value))

def texts (items : List String) : Datum := list (items.map text)

def ofOption (f : α → Datum) : Option α → Datum
  | none => null
  | some a => f a

/-! ### Merging

A mapping laid over another one: entries of the upper mapping win, and where both sides hold
mappings these are merged in turn. Keys keep the order of the lower mapping, new ones follow. -/

def find? (key : Datum) : List (Datum × Datum) → Option Datum
  | [] => none
  | (k, v) :: rest => if sameKey k key then some v else find? key rest

mutual

def mergeEntries (lower : List (Datum × Datum)) : (upper : List (Datum × Datum)) →
    List (Datum × Datum)
  | [] => lower
  | (key, value) :: rest =>
    mergeEntries (putEntry key (mergeValue (find? key lower) value) lower) rest

def mergeValue (lower? : Option Datum) : (upper : Datum) → Datum
  | .map upper =>
    match lower? with
    | some (.map lower) => .map (mergeEntries lower upper)
    | _ => .map upper
  | value => value

end

end Datum

end Keyforge
