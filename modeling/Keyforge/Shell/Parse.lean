import Keyforge.Shell.Word

/-!
# Reading scripts

The tokens of a script make commands: programs with their arguments, joined by operators or put
between words such as `if` and `fi`.
-/

namespace Keyforge.Shell

def specialCommands : List String :=
  [".", ":", "break", "continue", "eval", "exec", "exit", "export", "local", "readonly", "return",
    "set", "shift", "times", "trap", "unset"]

/-! ### Tokens -/

def unexpected {α : Type} (t : Token) (expected? : Option Token := none) : Reader α :=
  fail (.unexpected t.name (expected?.map Token.name))

def Token.endsList : Token → Bool
  | .finish => true
  | .operator symbol => symbol == ")" || symbol == ";;"
  | .keyword text => ["do", "done", "elif", "else", "esac", "fi", "then", "\x7d"].contains text
  | _ => false

variable (nested : Nested)

def expectKeyword (text : String) : Reader Unit := do
  match ← token nested { keywords := true } with
  | .keyword found =>
    if found == text then return () else unexpected (.keyword found) (some (.keyword text))
  | t => unexpected t (some (.keyword text))

def expectOperator (symbol : String) : Reader Unit := do
  match ← token nested with
  | .operator found =>
    if found == symbol then return () else unexpected (.operator found) (some (.operator symbol))
  | t => unexpected t (some (.operator symbol))

def onNewLine : Lookout := { skipsNewlines := true, keywords := true }

def onSameLine : Lookout := { keywords := true }

/-! ### Parts of commands -/

def assignment? : Word → Option (String × Word)
  | .literal text false :: rest =>
    let name := String.ofList (text.toList.takeWhile (· != '='))
    match text.toList.dropWhile (· != '=') with
    | [] => none
    | _ :: value =>
      if !isName name then none
      else
        let value := String.ofList value
        some (name, if value == "" then rest else .literal value false :: rest)
  | _ => none

def redirectTail (descriptor : Nat) : Arrow → Reader (Redirect Word)
  | .direction d => do
    match ← token nested with
    | .word target => return ⟨descriptor, d, target⟩
    | t => unexpected t
  | .document stripsTabs => do
    let _ ← takeChars fun c => c == ' ' || c == '\t'
    if (← peekChar?).all endsWord then unexpected (← token nested)
    else
      let (delimiter, isPlain) ← delimiterFrom ((← get).chars.length + 1)
      let number := (← get).nextDocument
      modify fun s =>
        { s with
          nextDocument := number + 1
          awaited := s.awaited ++ [⟨number, delimiter, stripsTabs, isPlain⟩] }
      return ⟨descriptor, .document number, []⟩

def redirectsFrom : (fuel : Nat) → Reader (List (Redirect Word))
  | 0 => return []
  | fuel + 1 => do
    match ← token nested onSameLine with
    | .arrow descriptor a =>
      let r ← redirectTail nested descriptor a
      return r :: (← redirectsFrom fuel)
    | t =>
      pushBack t
      return []

def withRedirects (line : Nat) (c : Command) : Reader Command := do
  match ← redirectsFrom nested ((← get).chars.length + 1) with
  | [] => return c
  | rs =>
    match c with
    | .subshell line body _ => return .subshell line body rs
    | c => return .redirected line c rs

def loopWordsFrom : (fuel : Nat) → Reader (List Word × Token)
  | 0 => return ([], .finish)
  | fuel + 1 => do
    match ← token nested with
    | .word w =>
      let (words, t) ← loopWordsFrom fuel
      return (w :: words, t)
    | t => return ([], t)

def loopName : Reader String := do
  match ← token nested with
  | .word w =>
    match plainText? w with
    | some name => if isName name then return name else fail .loopVariable
    | none => fail .loopVariable
  | _ => fail .loopVariable

def loopWords : Reader (List Word) := do
  match ← token nested onNewLine with
  | .keyword "in" =>
    match ← loopWordsFrom nested ((← get).chars.length + 1) with
    | (words, .newline) | (words, .operator ";") => return words
    | (_, t) => unexpected t
  | t =>
    match t with
    | .operator ";" => pure ()
    | t => pushBack t
    return [[.parameter "@" .value true]]

def Token.pattern : Token → Word
  | .word w => w
  | .keyword text => [.literal text false]
  | _ => []

def patternsFrom : (fuel : Nat) → Token → Reader (List Word)
  | 0, _ => return []
  | fuel + 1, t => do
    match ← token nested with
    | .operator "|" => return t.pattern :: (← patternsFrom fuel (← token nested))
    | .operator ")" => return [t.pattern]
    | found => unexpected found (some (.operator ")"))

def functionName? (w : Word) : Option String :=
  (plainText? w).filter fun name => isName name && !specialCommands.contains name

/-! ### Commands -/

mutual

def nestedAt : (fuel : Nat) → Nested
  | 0 => ⟨return none, return none⟩
  | fuel + 1 =>
    { inParentheses := do
        let script? ← listFrom fuel false true none
        expectOperator (nestedAt fuel) ")"
        return script?
      toEnd := do
        let script? ← listFrom fuel false true none
        match ← token (nestedAt fuel) with
        | .finish => return script?
        | t => unexpected t }

def listFrom : (fuel : Nat) → (top mayEnd : Bool) → (first? : Option Command) →
    Reader (Option Command)
  | 0, _, _, first? => return first?
  | fuel + 1, top, mayEnd, first? => do
    match ← token (nestedAt fuel) { onSameLine with skipsNewlines := !top } with
    | .newline => return first?
    | t =>
      pushBack t
      match t with
      | .finish => return first?
      | t =>
        if mayEnd && t.endsList then return first?
        else
          let c ← chainFrom fuel
          let t ← token (nestedAt fuel)
          let c := match t with
            | .operator "&" => .background c
            | _ => c
          let joined? := some (match first? with
            | some first => .sequence first c
            | none => c)
          match t with
          | .newline => if top then return joined? else listFrom fuel top true joined?
          | .operator ";" | .operator "&" => listFrom fuel top (!top) joined?
          | .finish =>
            pushBack t
            return joined?
          | t =>
            if top then unexpected t
            else
              pushBack t
              return joined?

def chainFrom : (fuel : Nat) → Reader Command
  | 0 => return default
  | fuel + 1 => do chainTail fuel (← pipelineFrom fuel false)

def chainTail : (fuel : Nat) → Command → Reader Command
  | 0, first => return first
  | fuel + 1, first => do
    match ← token (nestedAt fuel) with
    | .operator "&&" => chainTail fuel (.both first (← pipelineFrom fuel true))
    | .operator "||" => chainTail fuel (.either first (← pipelineFrom fuel true))
    | t =>
      pushBack t
      return first

def pipelineFrom : (fuel : Nat) → (skipsNewlines : Bool) → Reader Command
  | 0, _ => return default
  | fuel + 1, skipsNewlines => do
    match ← token (nestedAt fuel) { onSameLine with skipsNewlines } with
    | .keyword "!" => return .negated (← pipelineTail fuel (← commandFrom fuel false))
    | t =>
      pushBack t
      pipelineTail fuel (← commandFrom fuel false)

def pipelineTail : (fuel : Nat) → Command → Reader Command
  | 0, first => return first
  | fuel + 1, first => do
    match ← token (nestedAt fuel) with
    | .operator "|" =>
      match ← pipelineTail fuel (← commandFrom fuel true) with
      | .pipeline rest => return .pipeline (first :: rest)
      | second => return .pipeline [first, second]
    | t =>
      pushBack t
      return first

def commandFrom : (fuel : Nat) → (skipsNewlines : Bool) → Reader Command
  | 0, _ => return default
  | fuel + 1, skipsNewlines => do
    let nested := nestedAt fuel
    let line := (← get).line
    match ← token nested { onSameLine with skipsNewlines } with
    | .keyword "if" =>
      let c ← conditionalFrom fuel
      expectKeyword nested "fi"
      withRedirects nested line c
    | .keyword "while" => withRedirects nested line (← loopFrom fuel false)
    | .keyword "until" => withRedirects nested line (← loopFrom fuel true)
    | .keyword "for" =>
      let name ← loopName nested
      let words ← loopWords nested
      match ← token nested onNewLine with
      | .keyword "do" =>
        let body ← listFrom fuel false false none
        expectKeyword nested "done"
        withRedirects nested line (.each line name words (body.getD default))
      | t => unexpected t (some (.keyword "do"))
    | .keyword "case" =>
      match ← token nested with
      | .word subject =>
        match ← token nested onNewLine with
        | .keyword "in" => withRedirects nested line (.choice line subject (← casesFrom fuel))
        | t => unexpected t (some (.keyword "in"))
      | t => unexpected t (some (.word []))
    | .keyword "\x7b" =>
      let body ← listFrom fuel false false none
      expectKeyword nested "\x7d"
      withRedirects nested line (body.getD default)
    | .operator "(" =>
      let body ← listFrom fuel false false none
      expectOperator nested ")"
      withRedirects nested line (.subshell line (body.getD default) [])
    | .word w =>
      pushBack (.word w)
      simpleFrom fuel (← get).line [] [] []
    | .arrow descriptor a =>
      pushBack (.arrow descriptor a)
      simpleFrom fuel (← get).line [] [] []
    | t => unexpected t

def simpleFrom : (fuel line : Nat) → (assignments : List (String × Word)) → (words : List Word) →
    (redirects : List (Redirect Word)) → Reader Command
  | 0, line, assignments, words, redirects => return .simple line assignments words redirects
  | fuel + 1, line, assignments, words, redirects => do
    let nested := nestedAt fuel
    match ← token nested with
    | .arrow descriptor a =>
      simpleFrom fuel line assignments words (redirects ++ [← redirectTail nested descriptor a])
    | .word w =>
      match words, assignment? w with
      | [], some a => simpleFrom fuel line (assignments ++ [a]) words redirects
      | _, _ => simpleFrom fuel line assignments (words ++ [w]) redirects
    | t =>
      match t, assignments, words, redirects with
      | .operator "(", [], [name], [] =>
        expectOperator nested ")"
        match functionName? name with
        | some name => return .function name (← commandFrom fuel true)
        | none => fail .functionName
      | t, _, _, _ =>
        pushBack t
        return .simple line assignments words redirects

def conditionalFrom : (fuel : Nat) → Reader Command
  | 0 => return default
  | fuel + 1 => do
    let nested := nestedAt fuel
    let test ← listFrom fuel false false none
    expectKeyword nested "then"
    let yes ← listFrom fuel false false none
    let no? ← do
      match ← token nested { keywords := true } with
      | .keyword "elif" => pure (some (← conditionalFrom fuel))
      | .keyword "else" => listFrom fuel false false none
      | t =>
        pushBack t
        pure none
    return .conditional (test.getD default) (yes.getD default) no?

def loopFrom : (fuel : Nat) → (untilSuccess : Bool) → Reader Command
  | 0, _ => return default
  | fuel + 1, untilSuccess => do
    let nested := nestedAt fuel
    let test ← listFrom fuel false false none
    expectKeyword nested "do"
    let body ← listFrom fuel false false none
    expectKeyword nested "done"
    return .loop untilSuccess (test.getD default) (body.getD default)

def casesFrom : (fuel : Nat) → Reader (List (List Word × Option Command))
  | 0 => return []
  | fuel + 1 => do
    let nested := nestedAt fuel
    match ← token nested { skipsNewlines := true, keywords := true } with
    | .keyword "esac" => return []
    | t =>
      let t ← match t with
        | .operator "(" => token nested
        | t => pure t
      let patterns ← patternsFrom nested ((← get).chars.length + 1) t
      let body? ← listFrom fuel false true none
      match ← token nested { skipsNewlines := true, keywords := true } with
      | .keyword "esac" => return [(patterns, body?)]
      | .operator ";;" => return (patterns, body?) :: (← casesFrom fuel)
      | t => unexpected t (some (.operator ";;"))

end

/-! ### Scripts -/

def nextLine : Reader (Option (Option Command)) := do
  let fuel := 8 * ((← get).chars.length + 8)
  match ← token (nestedAt fuel) onSameLine with
  | .finish => return none
  | t =>
    pushBack t
    return some (← listFrom fuel true false none)

end Keyforge.Shell
