import Keyforge.Yaml.Node

/-!
# Loading YAML

The value a document stands for. Mappings may merge others into themselves; of entries with the same
key the last one counts.
-/

namespace Keyforge.Yaml

abbrev Check := StateT (Array Node) (Except LoadError)

namespace Check

def node (n : Nat) : Check Node := return (← get).getD n default

def refuse (error : LoadError) : Check α := (.error error : Except LoadError α)

def fail (n : Nat) (problem : String) : Check α := do
  refuse (.malformed problem (some (← node n).line))

def isComposite : Tag → Bool
  | .list | .map | .set | .orderedMap | .pairs => true
  | _ => false

/-! ### Scalars -/

def scalarText (nodes : Array Node) : (fuel : Nat) → Nat → Except LoadError String
  | 0, _ => .error .tooDeep
  | fuel + 1, n =>
    let node := nodes.getD n default
    let noText : Except LoadError String :=
      .error (.malformed "expected a scalar node" (some node.line))
    match node.content with
    | .scalar text => .ok text
    | .list _ => noText
    | .map entries =>
      match entries.find? fun (key, _) => (nodes.getD key default).tag == .value with
      | some (_, value) => scalarText nodes fuel value
      | none => noText

def scalarDatum (nodes : Array Node) (n : Nat) : Except LoadError Datum := do
  let node := nodes.getD n default
  let text := scalarText nodes (2 * depthLimit) n
  let fail (problem : String) : Except LoadError Datum :=
    .error (.malformed problem (some node.line))
  match node.tag with
  | .null =>
    let _ ← text
    return .null
  | .bool =>
    let word := Text.lower (← text)
    if ["yes", "true", "on"].contains word then return .bool true
    else if ["no", "false", "off"].contains word then return .bool false
    else .error (.noFlag word)
  | .int => return .int (← integerValue (← text))
  | .float => return .float (← floatValue (← text))
  | .binary =>
    match binaryValue? (← text) with
    | some bytes => return .bytes bytes
    | none => fail "failed to decode base64 data"
  | .stamp =>
    let text ← text
    match node.content with
    | .scalar _ => stampValue text
    | _ => .error .stampMapping
  | .text => return .text (← text)
  | _ => fail "could not determine a constructor for the tag"

def shallow (n : Nat) : Check Unit := do
  if isComposite (← node n).tag then return
  else
    let _ ← (scalarDatum (← get) n : Except LoadError Datum)

/-! ### Mappings -/

def entriesOf (n : Nat) : Check (List (Nat × Nat)) := do
  match (← node n).content with
  | .map entries => return entries
  | _ => return []

def isMap (n : Nat) : Check Bool := do
  match (← node n).content with
  | .map _ => return true
  | _ => return false

def change (n : Nat) (f : Node → Node) : Check Unit := modify fun nodes => nodes.modify n f

def flatten : (fuel : Nat) → (n index : Nat) → (merged : List (Nat × Nat)) → Check Unit
  | 0, _, _, _ => refuse .tooDeep
  | fuel + 1, n, index, merged => do
    let entries ← entriesOf n
    match entries[index]? with
    | none =>
      if !merged.isEmpty then
        change n fun node => { node with content := .map (merged ++ entries) }
    | some (key, value) =>
      match (← node key).tag with
      | .merge =>
        change n fun node => { node with content := .map (entries.eraseIdx index) }
        match (← node value).content with
        | .map _ =>
          flatten fuel value 0 []
          flatten fuel n index (merged ++ (← entriesOf value))
        | .list items =>
          let parts ← items.mapM fun item => do
            if ← isMap item then
              flatten fuel item 0 []
              entriesOf item
            else fail item "expected a mapping for merging"
          flatten fuel n index (merged ++ parts.reverse.flatten)
        | .scalar _ => fail value "expected a mapping or list of mappings for merging"
      | .value =>
        change key fun node => { node with tag := .text }
        flatten fuel n (index + 1) merged
      | _ => flatten fuel n (index + 1) merged

def flattenFuel (nodes : Array Node) : Nat := (2 * nodes.size + 2) * (2 * nodes.size + 2)

/-! ### Levels -/

def mapParts (n : Nat) : Check (List Nat) := do
  flatten (flattenFuel (← get)) n 0 []
  (← entriesOf n).mapM fun (key, value) => do
    shallow key
    if isComposite (← node key).tag then fail key "found unhashable key"
    else
      shallow value
      return value

def pairParts (item : Nat) : Check (List Nat) := do
  match (← node item).content with
  | .map [(key, value)] =>
    shallow key
    shallow value
    return [key, value]
  | _ => fail item "expected a single mapping item"

def parts (n : Nat) : Check (List Nat) := do
  let node ← node n
  match node.tag, node.content with
  | .list, .list items =>
    items.forM shallow
    return items
  | .list, _ => fail n "expected a sequence node"
  | .map, .map _ | .set, .map _ => mapParts n
  | .map, _ | .set, _ => fail n "expected a mapping node"
  | _, .list items => return (← items.mapM pairParts).flatten
  | _, _ => fail n "expected a sequence"

def levels : (fuel : Nat) → (seen : List Nat) → List Nat → Check Unit
  | _, _, [] => return
  | 0, _, _ => return
  | fuel + 1, seen, level => do
    let below := (← level.mapM parts).flatten
    let nodes ← get
    let fresh := below.filter fun n =>
      isComposite (nodes.getD n default).tag && !seen.contains n
    let fresh := fresh.eraseDups
    levels fuel (fresh ++ seen) fresh

def document (root : Nat) : Check Unit := do
  shallow root
  if isComposite (← node root).tag then levels (← get).size [root] [root]

end Check

/-! ### Values -/

def slot (count : Nat) (value : Datum) : Nat :=
  let size := if count < 5 then 8 else 2 * Nat.pow 2 (Nat.log2 count + 1)
  ((value.integral?.getD 0).emod size).toNat

def setOrder (items : List Datum) : List Datum :=
  if items.all (·.integral?.isSome) then
    items.mergeSort fun a b => slot items.length a ≤ slot items.length b
  else items

def nodeDatum (nodes : Array Node) (of : Nat → Datum) (n : Nat) : Datum :=
  let node := nodes.getD n default
  let mapping (entries : List (Nat × Nat)) : List (Datum × Datum) :=
    entries.foldl (fun acc (key, value) => Datum.putEntry (of key) (of value) acc) []
  match node.tag, node.content with
  | .map, .map entries => .map (mapping entries)
  | .set, .map entries => .set (setOrder ((mapping entries).map (·.1)))
  | .list, .list items => .list (items.map of)
  | .orderedMap, .list items | .pairs, .list items =>
    .list (items.map fun item =>
      match (nodes.getD item default).content with
      | .map ((key, value) :: _) => .tuple [of key, of value]
      | _ => .null)
  | _, _ =>
    match Check.scalarDatum nodes n with
    | .ok value => value
    | .error _ => .null

def valuesFrom (nodes : Array Node) (earlier : Array Datum) (order : List Nat) : Array Datum :=
  let step (acc : Array (Option Datum)) (n : Nat) : Array (Option Datum) :=
    let of (part : Nat) : Datum :=
      match acc.getD part none with
      | some value => value
      | none => .enclosing (earlier.getD part .null)
    acc.setIfInBounds n (some (nodeDatum nodes of n))
  (order.foldl step (Array.replicate nodes.size none)).map (·.getD .null)

def repetitions : Nat := 3

def Graph.datum (g : Graph) (root : Nat) : Datum :=
  let order := g.complete.reverse
  let hollow : Array Datum := g.nodes.map fun node =>
    match node.content with
    | .map _ => .map []
    | _ => .list []
  let values := (List.range repetitions).foldl (fun acc _ => valuesFrom g.nodes acc order) hollow
  values.getD root .null

def load (s : String) : Except LoadError Datum := do
  match ← Graph.ofText? s with
  | none => return .null
  | some (g, root) =>
    let (_, nodes) ← (Check.document root).run g.nodes
    return { g with nodes }.datum root

end Keyforge.Yaml
