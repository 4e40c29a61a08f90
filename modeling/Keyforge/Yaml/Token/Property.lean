import Keyforge.Datum.Decode
import Keyforge.Json.Reader
import Keyforge.Yaml.Cursor

/-!
# Directives, anchors and tags of YAML

The tokens that say something about a document or about the node that follows.
-/

namespace Keyforge.Yaml

def isNameChar (c : Char) : Bool := c.isAlphanum || c == '-' || c == '_'

def name (c : Cursor) : Except LoadError (String × Cursor) :=
  let (found, rest) := c.takeWhile isNameChar
  if found.isEmpty then c.fail "expected alphabetic or numeric character"
  else .ok (String.ofList found, rest)

def reference (mark : String → Mark) (c : Cursor) : Except LoadError (Token × Cursor) := do
  let (found, rest) ← name c.next
  let ch := rest.peek
  if isGap ch || ['?', ':', ',', ']', '\x7d', '%', '@', Char.ofNat 0x60].contains ch then
    return (⟨mark found, c.line⟩, rest)
  else rest.fail "expected alphabetic or numeric character"

def uriBytes : Nat → Cursor → Except LoadError (List UInt8 × Cursor)
  | 0, c => .ok ([], c)
  | fuel + 1, c => do
    if c.peek == '%' then
      match Json.hexNumber? [c.peek 1, c.peek 2] with
      | none => c.fail "expected hexadecimal numbers in an escape"
      | some n =>
        let (more, c) ← uriBytes fuel (c.advance 3)
        return (n.toUInt8 :: more, c)
    else return ([], c)

def isUriChar (c : Char) : Bool :=
  c.isAlphanum ||
    ['-', ';', '/', '?', ':', '@', '&', '=', '+', '$', ',', '_', '.', '!', '~', '*', '\'', '(',
      ')', '[', ']'].contains c

def uriChars : Nat → Cursor → Except LoadError (List Char × Cursor)
  | 0, c => .ok ([], c)
  | fuel + 1, c => do
    let (run, rest) := c.takeWhile isUriChar
    if rest.peek == '%' then
      let (bytes, after) ← uriBytes (rest.rest.length + 1) rest
      match Datum.Decoder.textOfBytes? bytes with
      | none => rest.fail "escaped bytes are no text"
      | some text =>
        let (more, after) ← uriChars fuel after
        return (run ++ text.toList ++ more, after)
    else return (run, rest)

def uri (c : Cursor) : Except LoadError (String × Cursor) := do
  let (found, rest) ← uriChars (c.rest.length + 1) c
  if found.isEmpty then rest.fail "expected URI" else return (String.ofList found, rest)

def handle (c : Cursor) : Except LoadError (String × Cursor) :=
  if c.peek != '!' then c.fail "expected an exclamation mark"
  else if c.peek 1 == ' ' then .ok ("!", c.next)
  else
    let (found, rest) := c.next.takeWhile isNameChar
    if rest.peek != '!' then rest.fail "expected an exclamation mark"
    else .ok (String.ofList ('!' :: found ++ ['!']), rest.next)

def tag (c : Cursor) : Except LoadError (Token × Cursor) := do
  let (found, suffix, rest) ←
    if c.peek 1 == '<' then do
      let (suffix, rest) ← uri (c.advance 2)
      if rest.peek != '>' then rest.fail "expected a closing angle bracket"
      else pure (none, suffix, rest.next)
    else if isGap (c.peek 1) then pure (none, "!", c.next)
    else if ((c.rest.drop 1).takeWhile (fun ch => !endsWord ch)).contains '!' then do
      let (found, rest) ← handle c
      let (suffix, rest) ← uri rest
      pure (some found, suffix, rest)
    else do
      let (suffix, rest) ← uri c.next
      pure (some "!", suffix, rest)
  if endsWord rest.peek then return (⟨.tag found suffix, c.line⟩, rest)
  else rest.fail "expected a blank after a tag"

def versionNumber (c : Cursor) : Except LoadError (Nat × Cursor) :=
  let (digits, rest) := c.takeWhile Char.isDigit
  if digits.isEmpty then c.fail "expected a digit"
  else
    match Number.ofDigits digits with
    | .ok n => .ok (n, rest)
    | .error _ => .error (.unreadable (Number.tooLongMessage digits.length))

def directiveEnd (c : Cursor) : Except LoadError Cursor :=
  let c := c.skipSpaces.skipComment
  if endsLine c.peek then .ok ((c.lineBreak?.map (·.2)).getD c)
  else c.fail "expected a comment or a line break"

def directive (c : Cursor) : Except LoadError (Token × Cursor) := do
  let (found, rest) ← name c.next
  if !endsWord rest.peek then rest.fail "expected a blank after a directive's name"
  else
    let (mark, rest) ←
      if found == "YAML" then do
        let (major, rest) ← versionNumber rest.skipSpaces
        if rest.peek != '.' then rest.fail "expected a digit or a point"
        else
          let (minor, rest) ← versionNumber rest.next
          if endsWord rest.peek then pure (Mark.version major minor, rest)
          else rest.fail "expected a digit or a blank"
      else if found == "TAG" then do
        let (found, rest) ← handle rest.skipSpaces
        if rest.peek != ' ' then rest.fail "expected a blank after a handle"
        else
          let (expansion, rest) ← uri rest.skipSpaces
          if endsWord rest.peek then pure (Mark.tagPrefix found expansion, rest)
          else rest.fail "expected a blank after a directive"
      else pure (Mark.otherDirective, rest.skipWhile (fun ch => !endsLine ch))
    let rest ← directiveEnd rest
    return (⟨mark, c.line⟩, rest)

end Keyforge.Yaml
