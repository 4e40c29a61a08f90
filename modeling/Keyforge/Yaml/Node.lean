import Keyforge.Yaml.Tag
import Keyforge.Yaml.Token.Stream

/-!
# Nodes of YAML

The nodes a document consists of. Nodes have numbers, and a collection names its parts by them, so
that an alias is the number of the node it refers to: a node may be a part of several others, and
even of itself.
-/

namespace Keyforge.Yaml

/-- What a node holds; parts are given by their numbers. -/
inductive Content where
  | scalar (text : String)
  | list (items : List Nat)
  | map (entries : List (Nat × Nat))
  deriving Repr, DecidableEq, Inhabited

structure Node where
  tag : Tag
  content : Content
  line : Nat
  deriving Repr, DecidableEq

instance : Inhabited Node := ⟨.null, .scalar "", 0⟩

structure Graph where
  nodes : Array Node := #[]
  /-- The numbers of the nodes that are complete, the last one first. A node is complete after its
  parts, unless it is a part of theirs. -/
  complete : List Nat := []
  deriving Repr

namespace Graph

def start (g : Graph) (node : Node) : Graph := { g with nodes := g.nodes.push node }

def finish (g : Graph) (n : Nat) (content : Content) : Graph :=
  ⟨g.nodes.modify n fun node => { node with content }, n :: g.complete⟩

end Graph

structure Builder where
  stream : Stream
  handles : List (String × String)
  anchors : List (String × Nat) := []
  graph : Graph := {}
  depth : Nat := 0

def depthLimit : Nat := 488

abbrev Build := StateT Builder (Except LoadError)

namespace Build

def standardHandles : List (String × String) := [("!", "!"), ("!!", standardPrefix)]

def peek : Build Token := do
  let b ← get
  let (token, stream) ← (b.stream.peek : Except LoadError _)
  set { b with stream }
  return token

def drop : Build Unit := modify fun b => { b with stream := b.stream.drop }

def mark : Build Mark := return (← peek).mark

def fail (problem : String) (line : Nat) : Build α :=
  (.error (.malformed problem (some line)) : Except LoadError α)

def setAnchor (anchor : Option String) (n : Nat) : Build Unit :=
  match anchor with
  | none => return
  | some name => modify fun b => { b with anchors := (name, n) :: b.anchors }

def start (node : Node) : Build Nat := do
  let n := (← get).graph.nodes.size
  modify fun b => { b with graph := b.graph.start node }
  return n

def finish (n : Nat) (content : Content) : Build Unit :=
  modify fun b => { b with graph := b.graph.finish n content }

def empty (line : Nat) : Build Nat := do
  let n ← start ⟨.null, .scalar "", line⟩
  finish n (.scalar "")
  return n

/-- The properties in front of a node: its anchor, its tag's full name, and their line. -/
structure Properties where
  anchor : Option String := none
  tag : Option String := none
  line : Option Nat := none

def expandTag (handle : Option String) (suffix : String) (line : Nat) : Build String := do
  match handle with
  | none => return suffix
  | some handle =>
    match (← get).handles.lookup handle with
    | some expansion => return expansion ++ suffix
    | none => fail "found undefined tag handle" line

def properties : Build Properties := do
  let first ← peek
  match first.mark with
  | .anchor name =>
    drop
    let second ← peek
    match second.mark with
    | .tag handle suffix =>
      drop
      let uri ← expandTag handle suffix second.line
      return ⟨some name, some uri, some first.line⟩
    | _ => return ⟨some name, none, some first.line⟩
  | .tag handle suffix =>
    drop
    let second ← peek
    match second.mark with
    | .anchor name =>
      drop
      let uri ← expandTag handle suffix first.line
      return ⟨some name, some uri, some first.line⟩
    | _ =>
      let uri ← expandTag handle suffix first.line
      return ⟨none, some uri, some first.line⟩
  | _ => return {}

def collectionTag (own : Option String) (default : Tag) : Tag :=
  match own with
  | none | some "!" => default
  | some uri => .ofUri uri

def scalarTag (own : Option String) (text : String) (style : Scalar) : Tag :=
  match own with
  | none => if style = .plain then plainTag text else .text
  | some "!" => plainTag text
  | some uri => .ofUri uri

def checkAnchor (anchor : Option String) (line : Nat) : Build Unit := do
  match anchor with
  | none => return
  | some name =>
    if ((← get).anchors.lookup name).isSome then fail "found duplicate anchor" line

def scalarNode (props : Properties) (text : String) (style : Scalar) (line : Nat) : Build Nat := do
  checkAnchor props.anchor line
  let n ← start ⟨scalarTag props.tag text style, .scalar text, line⟩
  finish n (.scalar text)
  setAnchor props.anchor n
  return n

def collection (props : Properties) (default : Tag) (line : Nat) (parts : Build Content) :
    Build Nat := do
  checkAnchor props.anchor line
  if depthLimit ≤ (← get).depth then (.error .tooDeep : Except LoadError Unit)
  let n ← start ⟨collectionTag props.tag default, .list [], line⟩
  setAnchor props.anchor n
  modify fun b => { b with depth := b.depth + 1 }
  let content ← parts
  modify fun b => { b with depth := b.depth - 1 }
  finish n content
  return n

mutual

def node : Nat → (block indentless : Bool) → Build Nat
  | 0, _, _ => fail "too deeply nested" 0
  | fuel + 1, block, indentless => do
    let first ← peek
    match first.mark with
    | .alias name =>
      drop
      match (← get).anchors.lookup name with
      | some n => return n
      | none => fail "found undefined alias" first.line
    | _ =>
      let props ← properties
      let token ← peek
      let line := props.line.getD token.line
      let content : Build Nat := do
        match token.mark with
        | .scalar text style =>
          drop
          scalarNode props text style line
        | .listStart =>
          collection props .list line do
            drop
            return .list (← flowItems fuel true)
        | .mapStart =>
          collection props .map line do
            drop
            return .map (← flowEntries fuel true)
        | mark =>
          if block && mark == .blockListStart then
            collection props .list line do
              drop
              return .list (← blockItems fuel)
          else if block && mark == .blockMapStart then
            collection props .map line do
              drop
              return .map (← blockEntries fuel)
          else if props.anchor.isSome || props.tag.isSome then scalarNode props "" .plain line
          else fail "expected the node content" token.line
      if indentless && token.mark == .blockEntry then
        collection props .list line do
          return .list (← indentlessItems fuel)
      else content

def blockItems : Nat → Build (List Nat)
  | 0 => fail "too deeply nested" 0
  | fuel + 1 => do
    let token ← peek
    match token.mark with
    | .blockEntry =>
      drop
      let item ←
        match (← mark) with
        | .blockEntry | .blockEnd => empty token.line
        | _ => node fuel true false
      return item :: (← blockItems fuel)
    | .blockEnd =>
      drop
      return []
    | _ => fail "expected the end of a block" token.line

def indentlessItems : Nat → Build (List Nat)
  | 0 => fail "too deeply nested" 0
  | fuel + 1 => do
    let token ← peek
    match token.mark with
    | .blockEntry =>
      drop
      let item ←
        match (← mark) with
        | .blockEntry | .key | .value | .blockEnd => empty token.line
        | _ => node fuel true false
      return item :: (← indentlessItems fuel)
    | _ => return []

def blockValue : Nat → Build Nat
  | 0 => fail "too deeply nested" 0
  | fuel + 1 => do
    let token ← peek
    match token.mark with
    | .value =>
      drop
      match (← mark) with
      | .key | .value | .blockEnd => empty token.line
      | _ => node fuel true true
    | _ => empty token.line

def blockEntries : Nat → Build (List (Nat × Nat))
  | 0 => fail "too deeply nested" 0
  | fuel + 1 => do
    let token ← peek
    match token.mark with
    | .key =>
      drop
      let key ←
        match (← mark) with
        | .key | .value | .blockEnd => empty token.line
        | _ => node fuel true true
      let value ← blockValue fuel
      return (key, value) :: (← blockEntries fuel)
    | .blockEnd =>
      drop
      return []
    | _ => fail "expected the end of a block" token.line

def flowItems : Nat → (first : Bool) → Build (List Nat)
  | 0, _ => fail "too deeply nested" 0
  | fuel + 1, first => do
    let token ← peek
    match token.mark with
    | .listEnd =>
      drop
      return []
    | mark =>
      if !first && mark != .flowEntry then fail "expected a comma or a bracket" token.line
      else
        if !first then drop
        let token ← peek
        match token.mark with
        | .listEnd =>
          drop
          return []
        | .key =>
          let item ← collection {} .map token.line do
            drop
            let key ←
              match (← Build.mark) with
              | .value | .flowEntry | .listEnd => empty token.line
              | _ => node fuel false false
            return .map [(key, ← flowValue fuel .listEnd)]
          return item :: (← flowItems fuel false)
        | _ =>
          let item ← node fuel false false
          return item :: (← flowItems fuel false)

def flowValue : Nat → (closing : Mark) → Build Nat
  | 0, _ => fail "too deeply nested" 0
  | fuel + 1, closing => do
    let token ← peek
    match token.mark with
    | .value =>
      drop
      let ahead ← mark
      if ahead == .flowEntry || ahead == closing then empty token.line
      else node fuel false false
    | _ => empty token.line

def flowEntries : Nat → (first : Bool) → Build (List (Nat × Nat))
  | 0, _ => fail "too deeply nested" 0
  | fuel + 1, first => do
    let token ← peek
    match token.mark with
    | .mapEnd =>
      drop
      return []
    | mark =>
      if !first && mark != .flowEntry then fail "expected a comma or a brace" token.line
      else
        if !first then drop
        let token ← peek
        match token.mark with
        | .mapEnd =>
          drop
          return []
        | .key =>
          drop
          let key ←
            match (← Build.mark) with
            | .value | .flowEntry | .mapEnd => empty token.line
            | _ => node fuel false false
          let value ← flowValue fuel .mapEnd
          return (key, value) :: (← flowEntries fuel false)
        | _ =>
          let key ← node fuel false false
          let after ← peek
          let value ← empty after.line
          return (key, value) :: (← flowEntries fuel false)

end

def dropDocumentEnds : Nat → Build Unit
  | 0 => return
  | fuel + 1 => do
    if (← mark) == .documentEnd then
      drop
      dropDocumentEnds fuel

def directives : Nat → (versionSeen : Bool) → List (String × String) → Build (List (String × String))
  | 0, _, handles => return handles
  | fuel + 1, versionSeen, handles => do
    let token ← peek
    match token.mark with
    | .version major _ =>
      drop
      if versionSeen then fail "found duplicate version directive" token.line
      else if major ≠ 1 then fail "found incompatible document version" token.line
      else directives fuel true handles
    | .tagPrefix handle expansion =>
      drop
      if (handles.lookup handle).isSome then fail "duplicate tag handle" token.line
      else directives fuel versionSeen (handles ++ [(handle, expansion)])
    | .otherDirective =>
      drop
      directives fuel versionSeen handles
    | _ => return handles

def documentStart (fuel : Nat) : Build (Option Nat) := do
  dropDocumentEnds fuel
  let token ← peek
  if token.mark == .streamEnd then return none
  else
    let handles ← directives fuel false []
    let start ← peek
    if start.mark != .documentStart then fail "expected the start of a document" start.line
    else
      drop
      let missing := standardHandles.filter fun (handle, _) => (handles.lookup handle).isNone
      modify fun b => { b with handles := handles ++ missing }
      return some token.line

def documentContent (fuel : Nat) : Build Nat := do
  let token ← peek
  match token.mark with
  | .version .. | .tagPrefix .. | .otherDirective | .documentStart | .documentEnd | .streamEnd =>
    empty token.line
  | _ => node fuel true false

def single (fuel : Nat) : Build (Option Nat) := do
  let _ ← peek
  drop
  let token ← peek
  let root ←
    match token.mark with
    | .version .. | .tagPrefix .. | .otherDirective | .documentStart | .streamEnd => do
      match (← documentStart fuel) with
      | none => pure none
      | some _ => pure (some (← documentContent fuel))
    | _ => pure (some (← node fuel true false))
  match root with
  | none => return none
  | some root =>
    if (← mark) == .documentEnd then drop
    match (← documentStart fuel) with
    | none => return some root
    | some line => fail "expected a single document in the stream" line

end Build

def Graph.ofText? (s : String) : Except LoadError (Option (Graph × Nat)) := do
  let cs := s.toList
  if !(Text.codes cs).all isAllowed then .error (.malformed "special characters are not allowed" none)
  else
    let start : Builder := { stream := { cursor := { rest := cs } }, handles := Build.standardHandles }
    let (root?, b) ← (Build.single (4 * cs.length + 16)).run start
    return root?.map fun root => (b.graph, root)

end Keyforge.Yaml
