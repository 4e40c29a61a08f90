import Keyforge.Header.Pattern
import Keyforge.Log
import Keyforge.Pairs
import Keyforge.Text.Lines

/-!
# Configuration headers

A board's configuration header is taken over with generated definitions at its end. Definitions that
are deprecated are left out, and nothing the header defines is defined again.
-/

namespace Keyforge.Header

structure Rules where
  banner : String
  deprecatedNames : List String
  deprecatedPatterns : List Pattern

def Rules.bannerLine (r : Rules) : String := "// " ++ r.banner

def Rules.isDeprecated (r : Rules) (name : String) : Bool :=
  r.deprecatedNames.contains name || r.deprecatedPatterns.any fun p => p.accepts name.toList

def beginMarker : String := "/* BEGIN keymap-compiler generated defines */"

def endMarker : String := "/* END keymap-compiler generated defines */"

/-! ### Definitions -/

/-- The name a line defines and its value, which may be empty and ends with the line. -/
def define? (line : String) : Option (String × String) := do
  let rest ← Text.after? ['#'] (Text.trimLeft line.toList)
  let rest ← Text.skipBlanks1? (← Text.after? "define".toList (Text.trimLeft rest))
  let name := rest.takeWhile Text.isWord
  let value := rest.dropWhile Text.isWord
  if name.isEmpty || value.contains '\n' then none
  return (String.ofList name, String.ofList (Text.trim value))

def continues (line : String) : Bool := (Text.trimRight line.toList).getLast? == some '\\'

/-! ### Filtering -/

/-- Drops the lines of earlier runs. `inBlock` tells that generated definitions are open. -/
def stripGenerated (r : Rules) : (inBlock : Bool) → List String → List String
  | _, [] => []
  | inBlock, line :: rest =>
    let stripped := Text.strip line
    if stripped == beginMarker then stripGenerated r true rest
    else if stripped == endMarker then stripGenerated r false rest
    else if inBlock || stripped == r.bannerLine then stripGenerated r inBlock rest
    else line :: stripGenerated r inBlock rest

/-- What filtering leaves: lines, what they define, and the names whose definitions were dropped. -/
structure Filtered where
  kept : List String := []
  defines : List (String × String) := []
  dropped : List String := []
  deriving Repr, DecidableEq

def Filtered.keep (f : Filtered) (line : String) : Filtered :=
  { f with
    kept := f.kept ++ [line]
    defines :=
      match define? line with
      | some (name, value) => Pairs.put name value f.defines
      | none => f.defines }

/-- The name a line defines, if it is a deprecated one. -/
def deprecated? (r : Rules) (line : String) : Option String :=
  match define? line with
  | some (name, _) => if r.isDeprecated name then some name else none
  | none => none

/-- Drops deprecated definitions with the lines they go on in. `dropping` tells that the line goes
on one that was dropped. -/
def filterFrom (r : Rules) : (dropping : Bool) → Filtered → List String → Filtered
  | _, f, [] => f
  | true, f, line :: rest => filterFrom r (continues line) f rest
  | false, f, line :: rest =>
    match deprecated? r line with
    | some name =>
      filterFrom r (continues line) { f with dropped := f.dropped ++ [name] } rest
    | none => filterFrom r false (f.keep line) rest

/-- Drops deprecated definitions from the lines of a header. -/
def filterDeprecated (r : Rules) (lines : List String) : Filtered := filterFrom r false {} lines

def Filtered.log (f : Filtered) : Log :=
  f.dropped.map fun name =>
    .warning ("removing deprecated define " ++ name ++ " from base config")

/-! ### Merging -/

/-- Whether a guard against repeated inclusion is at the front of a text. -/
def pragmaAhead (cs : List Char) : Bool :=
  let rest? := do
    let rest ← Text.after? ['#'] (Text.trimLeft cs)
    let rest ← Text.skipBlanks1? (← Text.after? "pragma".toList (Text.trimLeft rest))
    Text.after? "once".toList rest
  match rest? with
  | none => false
  | some rest => !rest.head?.any Text.isWord

/-- Whether a line of a text starts with a guard against repeated inclusion. `atStart` tells that a
line starts here. -/
def hasPragma : (atStart : Bool) → List Char → Bool
  | atStart, [] => atStart && pragmaAhead []
  | atStart, c :: rest => (atStart && pragmaAhead (c :: rest)) || hasPragma (c == '\n') rest

def trimNewlines (cs : List Char) : List Char :=
  Text.dropWhileEnd (· == '\n') (cs.dropWhile (· == '\n'))

/-- The text of the kept lines, with a guard against repeated inclusion. -/
def bodyText (kept : List String) : String :=
  let body := trimNewlines (Text.joinLines kept).toList
  if hasPragma true body then String.ofList body
  else if body.isEmpty then "#pragma once"
  else "#pragma once\n\n" ++ String.ofList body

def defineLine (name value : String) : String :=
  Text.stripRight ("#define " ++ name ++ " " ++ value)

def newLines (present : List (String × String)) (declarations : List (String × String)) :
    List String :=
  (declarations.filter fun (name, _) => !Pairs.has name present).map fun (name, value) =>
    defineLine name value

/-- What is said of declarations that differ from what is defined already. -/
def conflictLog (present : List (String × String)) (declarations : List (String × String)) : Log :=
  declarations.filterMap fun (name, value) =>
    match present.lookup name with
    | some old =>
      if old == value then none
      else some (.warning ("base config already defines " ++ name ++ " as " ++ Text.quoted old ++
        ", not overriding it with " ++ Text.quoted value))
    | none => none

/-- The lines of a header that are taken over, and what they define. -/
def taken (r : Rules) (base : String) : Filtered :=
  filterDeprecated r (stripGenerated r false (Text.splitLines base))

/-- The banner, what is taken over, and the declarations it does not make. -/
def mergeText (r : Rules) (base : String) (declarations : List (String × String)) : String :=
  let f := taken r base
  let block := newLines f.defines declarations
  let tail := if block.isEmpty then [] else ["", beginMarker] ++ block ++ [endMarker]
  Text.joinLines ([r.bannerLine, "", bodyText f.kept] ++ tail) ++ "\n"

/-- Merges declarations into a header: the text, and what is said on the way. -/
def merge (r : Rules) (base : String) (declarations : List (String × String)) : Log × String :=
  let f := taken r base
  (f.log ++ conflictLog f.defines declarations, mergeText r base declarations)

end Keyforge.Header
