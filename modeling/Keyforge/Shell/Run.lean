import Keyforge.Shell.Meaning
import Keyforge.Shell.Redirection

/-!
# Running scripts

What commands do to the state of the system. A script is read and run line by line.
-/

namespace Keyforge.Shell

/-! ### Processes -/

inductive Ending where
  | exited (status : Nat)
  | killed (signal : Nat)
  deriving Repr, DecidableEq

def Machine.after (before m : Machine) : Machine :=
  { before with
    tree := m.tree
    openings := m.openings
    buffers := m.buffers
    output := m.output
    documents := m.documents
    modes := m.modes
    paused? := m.paused?
    hasPaused := m.hasPaused
    aside? := m.aside?
    nextProcess := m.nextProcess
    sent := m.sent }

def finishProcess (runText : String → Run Nat) (outcome : Except Escape Nat) : Run Ending := do
  let m ← get
  let ending ← match outcome with
    | .error (.killed signal) => pure (.killed signal)
    | _ => do
      let status := match outcome with
        | .ok status => status % 256
        | .error e => e.status m.status
      match m.traps.lookup 0 with
      | none | some "" => pure (.exited status)
      | some action =>
        set { m with status, traps := Pairs.erase 0 m.traps, command? := none }
        match ← attempt (runText action) with
        | .ok _ => pure (.exited status)
        | .error (.killed signal) => pure (.killed signal)
        | .error e => pure (.exited (e.status status))
  let _ ← flush
  Builtin.finishJobs
  return ending

def inSubshell (runText : String → Run Nat) (body : Run Nat) : Run Nat := do
  let _ ← flush
  let before ← get
  let traps := before.traps.filter fun (_, action) => action == ""
  let jobs : List Job := before.jobs.map fun job =>
    { job with status := 127, written := [], isOver := true }
  set { before with isMain := false, traps, signals := [], jobs }
  let ending ← finishProcess runText (← attempt body)
  modify before.after
  match ending with
  | .exited status => return status
  | .killed signal => return 128 + signal

def inBackground (runText : String → Run Nat) (body : Run Nat) : Run Nat := do
  let before ← get
  let process := before.nextProcess
  set { before with nextProcess := process + 1 }
  if before.aside?.isSome then let _ ← inSubshell runText body
  else
    modify fun m => { m with hasPaused := false, aside? := some { limit := m.openings.length } }
    let status ← inSubshell runText body
    modify fun m =>
      let written := ((m.aside?.map (·.written)).getD []).reverse
      { m with
        aside? := none
        jobs := m.jobs ++ [{ process, status, pauses := m.hasPaused, written }] }
  return 0

def settle : Ending → Run Nat
  | .exited status => return status
  | .killed signal => do
    if let some text := signalMessages.lookup signal then complain text
    return 128 + signal

/-! ### Calls -/

structure Call where
  words : List String
  isPlain : Bool := false

def commandWords? : List String → Option (List String)
  | [] => none
  | a :: rest =>
    match a.toList with
    | ['-', '-'] => if rest.isEmpty then none else some rest
    | '-' :: c :: cs => if (c :: cs).all (· == 'p') then commandWords? rest else none
    | _ => some (a :: rest)

def Call.ofWords : (fuel : Nat) → List String → (isPlain : Bool := false) → Call
  | fuel + 1, "command" :: rest, isPlain =>
    match commandWords? rest with
    | some words => Call.ofWords fuel words true
    | none => ⟨"command" :: rest, isPlain⟩
  | _, words, isPlain => ⟨words, isPlain⟩

def Call.isSpecial (c : Call) : Bool :=
  !c.isPlain && c.words.head?.any specialCommands.contains

def Call.keepsRedirects (c : Call) : Bool := c.words == ["exec"]

def expandCall (outputOf : Option Command → Run (List UInt8)) : List Word → Run (List String)
  | [] => return []
  | w :: rest => do
    match ← expandWord outputOf w with
    | [] => expandCall outputOf rest
    | name :: more =>
      if name == "command" && more.isEmpty then return name :: (← expandCall outputOf rest)
      else if ["export", "readonly", "local"].contains name then
        let fields ← rest.mapM fun w =>
          match assignment? w with
          | some (name, value) => do return [name ++ "=" ++ (← expandText outputOf value)]
          | none => expandWord outputOf w
        return name :: more ++ fields.flatten
      else return name :: more ++ (← expandWords outputOf rest)

def showCall (outer : List (Nat × Nat)) (parts : List String) : Run Unit := do
  let m ← get
  if m.options.contains 'x' && !parts.isEmpty then
    keepingDescriptors do
      modify fun m => { m with descriptors := outer }
      complain (m.value "PS4" ++ String.intercalate " " parts)

/-! ### Loops -/

def afterRound (last : Nat) (next : Nat → Run Nat) : Except Escape (Option Nat) → Run Nat
  | .ok none => return last
  | .ok (some status) => next status
  | .error (.leave loops) => if 1 < loops then throw (.leave (loops - 1)) else return 0
  | .error (.again loops) => if 1 < loops then throw (.again (loops - 1)) else next 0
  | .error e => throw e

def asLoop (body : Run Nat) : Run Nat := do
  let depth := (← get).loopDepth
  modify fun m => { m with loopDepth := depth + 1 }
  let outcome ← attempt body
  modify fun m => { m with loopDepth := depth }
  resume outcome

def firstCase (outputOf : Option Command → Run (List UInt8)) (text : List Char) :
    List (List Word × Option Command) → Run (Option Command)
  | [] => return none
  | (patterns, body?) :: rest => do
    let rec isHit : List Word → Run Bool
      | [] => return false
      | w :: more => do
        let pattern := Pattern.ofField (← expandPattern outputOf w)
        if Pattern.fits pattern text then return true else isHit more
    if ← isHit patterns then return body? else firstCase outputOf text rest

/-! ### Shells -/

def shellOptions : (fuel : Nat) → List String → (isText : Bool := false) → Run (Bool × List String)
  | 0, rest, isText => return (isText, rest)
  | _ + 1, [], isText => return (isText, [])
  | fuel + 1, a :: rest, isText => do
    let rec letters (on : Bool) : List Char → List String → Run (List String)
      | [], rest => return rest
      | 'o' :: cs, rest => do
        Builtin.switchNamed (rest.headD "") on
        letters on cs (rest.drop 1)
      | c :: cs, rest => do
        if c != 'c' && c != 'l' then Builtin.switch c on
        letters on cs rest
    match a.toList with
    | ['-'] | ['-', '-'] => return (isText, rest)
    | '-' :: cs => do shellOptions fuel (← letters true cs rest) (isText || cs.contains 'c')
    | '+' :: cs => do shellOptions fuel (← letters false cs rest) (isText || cs.contains 'c')
    | _ => return (isText, a :: rest)

def initialVariables (m : Machine) : List (String × Variable) :=
  [("IFS", { value? := some " \t\n" }), ("OPTIND", { value? := some "1" }),
    ("PPID", { value? := m.ancestors.head?.map Text.natText }),
    ("PS1", { value? := some "# " }), ("PS2", { value? := some "> " }),
    ("PS4", { value? := some "+ " }),
    ("PWD", { value? := some (Builtin.pathText m.directory), isExported := true })]

def Machine.asNewShell (m : Machine) : Machine :=
  let found := (m.bindings.filter fun (_, v) => v.isExported).map fun (name, v) =>
    (name, { v with isFixed := false })
  let fresh : Machine :=
    { tree := m.tree
      directory := m.directory
      line := 0
      traps := m.traps.filter fun (_, action) => action == ""
      openings := m.openings
      descriptors := m.descriptors
      buffers := m.buffers
      output := m.output
      documents := m.documents
      process := m.nextProcess
      ancestors := m.process :: m.ancestors
      sent := m.sent
      nextProcess := m.nextProcess + 1
      aside? := m.aside?
      modes := m.modes
      mask := m.mask
      paused? := m.paused?
      hasPaused := m.hasPaused }
  { fresh with
    bindings := (initialVariables fresh).foldl (fun vs (name, v) => Pairs.put name v vs) found }

def nameShell (words : List String) : Run Unit := modify fun m =>
  { m with name := words.headD m.name, arguments := words.drop 1, line := 1 }

def scriptFor (arguments : List String) : Run String := do
  let (isText, rest) ← shellOptions (arguments.length + 1) arguments
  match isText, rest with
  | true, [] => refuse "-c requires an argument"
  | true, text :: rest =>
    nameShell rest
    return text
  | false, rest =>
    if rest.isEmpty then Builtin.switch 's' true
    let m ← get
    if m.options.contains 's' then
      set { m with arguments := rest, line := 1 }
      return ofOctets (← readAll 0)
    else
      let path := rest.headD ""
      match m.place path with
      | .found names _ =>
        nameShell rest
        return ofOctets (m.content names)
      | _ => refuse ("cannot open " ++ path ++ ": No such file")

def sourcePath (name : String) : Run String := do
  let m ← get
  if name.contains '/' then
    if m.isFile name || m.isDirectory name then return name
    else refuse ("cannot open " ++ name ++ ": No such file")
  else
    match (m.searchPaths name).find? m.isFile with
    | some path => return path
    | none => refuse (name ++ ": not found")

def Machine.environment (m : Machine) : List String :=
  m.bindings.filterMap fun (name, v) =>
    if v.isExported then v.value?.map fun value => name ++ "=" ++ value else none

def functionLimit : Nat := 1000

/-! ### Commands -/

mutual

def run : (fuel : Nat) → (isTested : Bool) → Command → Run Nat
  | 0, _, _ => throw (.killed 9)
  | fuel + 1, isTested, c => do
    if (← get).options.contains 'n' then return 0
    let (status, isChecked) ← match c with
      | .simple line assignments words redirects => do
        pure (← runSimple fuel isTested line assignments words redirects, true)
      | .sequence first second => do
        let _ ← run fuel isTested first
        pure (← run fuel isTested second, false)
      | .both first second => do
        let status ← run fuel true first
        pure (← if status == 0 then run fuel isTested second else pure status, false)
      | .either first second => do
        let status ← run fuel true first
        pure (← if status == 0 then pure status else run fuel isTested second, false)
      | .negated command => do
        pure (if (← run fuel true command) == 0 then 1 else 0, false)
      | .pipeline commands => do pure (← runPipeline fuel isTested none commands, true)
      | .background command => do
        let body : Run Nat := do
          bindDescriptor 0 (← addOpening { channel := .nothing })
          match command with
          | .subshell line body redirects =>
            modify fun m => { m with line }
            (← expandRedirects (outputOf fuel) redirects).forM Pointing.apply
            run fuel false body
          | command => run fuel false command
        pure (← inBackground (runText fuel false) body, false)
      | .redirected line body redirects => do
        modify fun m => { m with line }
        let pointings ← expandRedirects (outputOf fuel) redirects
        let status ← keepingDescriptors do
          match ← attempt (pointings.forM Pointing.apply) with
          | .ok () => run fuel isTested body
          | .error _ => return 2
        pure (status, false)
      | .subshell line body redirects => do
        modify fun m => { m with line }
        let pointings ← expandRedirects (outputOf fuel) redirects
        let status ← inSubshell (runText fuel false) do
          pointings.forM Pointing.apply
          run fuel isTested body
        pure (status, true)
      | .conditional test yes no? => do
        if (← run fuel true test) == 0 then pure (← run fuel isTested yes, false)
        else
          match no? with
          | some no => pure (← run fuel isTested no, false)
          | none => pure (0, false)
      | .loop untilSuccess test body => do
        pure (← asLoop (runLoop fuel isTested untilSuccess test body 0), false)
      | .each line name words body => do
        modify fun m => { m with line }
        let fields ← expandWords (outputOf fuel) words
        pure (← asLoop (runEach fuel isTested name body fields 0), false)
      | .choice line subject cases => do
        modify fun m => { m with line }
        let text ← expandText (outputOf fuel) subject
        match ← firstCase (outputOf fuel) text.toList cases with
        | some body => pure (← run fuel isTested body, false)
        | none => pure (0, false)
      | .function name body => do
        modify fun m => { m with functions := Pairs.put name body m.functions }
        pure (0, false)
    modify fun m => { m with status }
    answerSignals fuel
    if isChecked && status != 0 && !isTested && (← get).options.contains 'e' then
      throw (.exit status)
    else return status

def answerSignals : (fuel : Nat) → Run Unit
  | 0 => return ()
  | fuel + 1 => do
    let m ← get
    if m.isMain then
      set { m with sent := m.sent.filter fun (process, _) => process != m.process }
      m.sent.forM fun (process, signal) =>
        if process == m.process then Builtin.receive signal else return ()
    let m ← get
    match m.signals with
    | [] => return ()
    | signal :: rest =>
      set { m with signals := rest }
      let _ ← runText fuel false ((m.traps.lookup signal).getD "")
      modify fun now => { now with status := m.status }
      answerSignals fuel

def runLines : (fuel : Nat) → (isTested : Bool) → Source → (last : Nat) → Run Nat
  | 0, _, _, _ => throw (.killed 9)
  | fuel + 1, isTested, source, last => do
    let m ← get
    match nextLine.run { source with nextDocument := m.documents.length } with
    | .error e =>
      set { m with line := e.line }
      refuse e.message
    | .ok (none, _) => return last
    | .ok (some c?, source) =>
      set { m with documents := source.documents ++ m.documents }
      let status ← match c? with
        | some c => run fuel isTested c
        | none => pure last
      runLines fuel isTested { source with documents := [] } status

def runText : (fuel : Nat) → (isTested : Bool) → String → Run Nat
  | 0, _, _ => throw (.killed 9)
  | fuel + 1, isTested, text => runLines fuel isTested { chars := text.toList } 0

def outputOf : (fuel : Nat) → Option Command → Run (List UInt8)
  | 0, _ => throw (.killed 9)
  | _ + 1, none => do
    modify fun m => { m with outputStatus := 0 }
    return []
  | fuel + 1, some c => do
    let b ← addBuffer []
    let n ← addOpening { channel := .buffer b }
    let status ← inSubshell (runText fuel false) do
      bindDescriptor 1 n
      run fuel false c
    modify fun m => { m with outputStatus := status }
    return (← get).buffers.getD b []

def runPipeline : (fuel : Nat) → (isTested : Bool) → (input? : Option Nat) → List Command → Run Nat
  | 0, _, _, _ => throw (.killed 9)
  | _ + 1, _, _, [] => return 0
  | fuel + 1, isTested, input?, c :: rest => do
    let b ← addBuffer []
    let output ← addOpening { channel := .buffer b }
    let status ← inSubshell (runText fuel false) do
      if let some input := input? then bindDescriptor 0 input
      if !rest.isEmpty then bindDescriptor 1 output
      run fuel isTested c
    if rest.isEmpty then return status
    else runPipeline fuel isTested (some (← addOpening { channel := .buffer b })) rest

def runLoop : (fuel : Nat) → (isTested untilSuccess : Bool) → (test body : Command) → (last : Nat) →
    Run Nat
  | 0, _, _, _, _, _ => throw (.killed 9)
  | fuel + 1, isTested, untilSuccess, test, body, last => do
    let outcome ← attempt do
      if ((← run fuel true test) == 0) == untilSuccess then return none
      else return some (← run fuel isTested body)
    afterRound last (runLoop fuel isTested untilSuccess test body) outcome

def runEach : (fuel : Nat) → (isTested : Bool) → (name : String) → (body : Command) →
    (fields : List String) → (last : Nat) → Run Nat
  | 0, _, _, _, _, _ => throw (.killed 9)
  | _ + 1, _, _, _, [], last => return last
  | fuel + 1, isTested, name, body, field :: fields, last => do
    assign name field
    let outcome ← attempt do return some (← run fuel isTested body)
    afterRound last (runEach fuel isTested name body fields) outcome

def runSimple : (fuel : Nat) → (isTested : Bool) → (line : Nat) → List (String × Word) →
    List Word → List (Redirect Word) → Run Nat
  | 0, _, _, _, _, _ => throw (.killed 9)
  | fuel + 1, isTested, line, assignments, words, redirects => do
    modify fun m => { m with line, outputStatus := 0 }
    let fields ← expandCall (outputOf fuel) words
    let call := Call.ofWords fields.length fields
    let pointings ← expandRedirects (outputOf fuel) redirects
    let outer := (← get).descriptors
    match ← attempt (pointings.forM Pointing.apply) with
    | .error e =>
      modify fun m => { m with descriptors := outer }
      if call.isSpecial then throw e else return 2
    | .ok () =>
      let outcome ← attempt (runCall fuel isTested outer call fields assignments)
      if !call.keepsRedirects then modify fun m => { m with descriptors := outer }
      resume outcome

def runCall : (fuel : Nat) → (isTested : Bool) → (outer : List (Nat × Nat)) → Call →
    (fields : List String) → List (String × Word) → Run Nat
  | 0, _, _, _, _, _ => throw (.killed 9)
  | fuel + 1, isTested, outer, call, fields, assignments => do
    let lasts := call.words.isEmpty || call.isSpecial
    let m ← get
    let before := assignments.map fun (name, _) => (name, Pairs.get? name m.bindings)
    let assigned ← assignments.mapM fun (name, w) => do
      let value ← expandText (outputOf fuel) w
      assign name value
      if !lasts then Builtin.declare ({ · with isExported := true }) name
      return name ++ "=" ++ value
    showCall outer (assigned ++ fields)
    match call.words with
    | [] => return (← get).outputStatus
    | name :: arguments =>
      let outcome ← attempt (dispatch fuel isTested call name arguments)
      if !lasts then restoreVariables before
      resume outcome

def dispatch : (fuel : Nat) → (isTested : Bool) → Call → (name : String) →
    (arguments : List String) → Run Nat
  | 0, _, _, _, _ => throw (.killed 9)
  | fuel + 1, isTested, call, name, arguments => do
    let m ← get
    match (Pairs.get? name m.functions).filter fun _ => !call.isPlain && !call.isSpecial with
    | some body => runFunction fuel isTested body arguments
    | none =>
      if Builtin.isBuiltin name then runBuiltin fuel isTested call.isSpecial name arguments
      else
        match m.findProgram name with
        | .error why =>
          report (name ++ ": " ++ why.message)
          return if name.contains '/' then why.status else 127
        | .ok (_, program) =>
          settle (← runProgram fuel program arguments)

def runFunction : (fuel : Nat) → (isTested : Bool) → Command → (arguments : List String) → Run Nat
  | 0, _, _, _ => throw (.killed 9)
  | fuel + 1, isTested, body, arguments => do
    let before ← get
    if functionLimit ≤ before.functionDepth then
      refuse ("Maximum function recursion depth (" ++ Text.natText functionLimit ++ ") reached")
    set { before with
      functionDepth := before.functionDepth + 1
      arguments
      locals? := some []
      loopDepth := 0 }
    let outcome ← attempt (run fuel isTested body)
    restoreVariables ((← get).locals?.getD [])
    modify fun m =>
      { m with
        functionDepth := before.functionDepth
        arguments := before.arguments
        locals? := before.locals?
        loopDepth := before.loopDepth }
    match outcome with
    | .error (.back status) => return status
    | outcome => resume outcome

def runBuiltin : (fuel : Nat) → (isTested isSpecial : Bool) → (name : String) →
    (arguments : List String) → Run Nat
  | 0, _, _, _, _ => throw (.killed 9)
  | fuel + 1, isTested, isSpecial, name, arguments => do
    let outer := (← get).command?
    modify fun m => { m with command? := some name }
    let body : Run Nat := match name with
      | "eval" => runText fuel isTested (String.intercalate " " arguments)
      | "." => runSource fuel isTested arguments
      | "exec" => replaceShell fuel arguments
      | "command" => Builtin.describeOne arguments
      | "type" => Builtin.describeAll arguments
      | name => ((Builtin.table.lookup name).getD fun _ => return 0) arguments
    let outcome ← attempt body
    let outcome ← match outcome with
      | .ok status => do
        if ← flush then pure (.ok status)
        else
          report (name ++ ": I/O error")
          pure (.ok (Nat.lor status 1))
      | outcome => pure outcome
    modify fun m => { m with command? := outer }
    match outcome with
    | .error .failure => if isSpecial then throw .failure else return 2
    | outcome => resume outcome

def runSource : (fuel : Nat) → (isTested : Bool) → (arguments : List String) → Run Nat
  | 0, _, _ => throw (.killed 9)
  | fuel + 1, isTested, arguments => do
    match arguments with
    | [] => return 0
    | name :: _ =>
      let path ← sourcePath name
      let m ← get
      set { m with command? := some path }
      match m.place path with
      | .found names _ =>
        match ← attempt (runText fuel isTested (ofOctets (m.content names))) with
        | .error (.back status) => return status
        | outcome => resume outcome
      | _ => return 0

def replaceShell : (fuel : Nat) → (arguments : List String) → Run Nat
  | 0, _ => throw (.killed 9)
  | fuel + 1, arguments => do
    match arguments with
    | [] => return 0
    | name :: arguments =>
      match (← get).findProgram name with
      | .error why =>
        report (name ++ ": " ++ why.message)
        throw (.exit why.status)
      | .ok (_, program) =>
        let ending ← runProgram fuel program arguments
        modify fun m => { m with traps := [] }
        match ending with
        | .exited status => throw (.exit status)
        | .killed signal => throw (.killed signal)

def runProgram : (fuel : Nat) → Program → (arguments : List String) → Run Ending
  | 0, _, _ => throw (.killed 9)
  | fuel + 1, program, arguments => do
    match program with
    | .script path => runShell fuel (path :: arguments)
    | .tool "sh" | .tool "dash" => runShell fuel arguments
    | .tool "env" => runWithVariables fuel arguments
    | .tool name =>
      let held := (← get).held
      modify fun m => { m with held := [] }
      let status ← ((Tool.table.lookup name).getD fun _ => return 0) arguments
      let _ ← flush
      modify fun m => { m with held }
      return .exited status

def runWithVariables : (fuel : Nat) → (arguments : List String) → Run Ending
  | 0, _ => throw (.killed 9)
  | fuel + 1, arguments => do
    let before := (← get).bindings
    let isAssignment (a : String) := 0 < (a.toList.takeWhile (· != '=')).length && a.contains '='
    let (drops, arguments) := match arguments with
      | "-i" :: rest => (true, rest)
      | rest => (false, rest)
    if drops then modify fun m => { m with bindings := [] }
    (arguments.takeWhile isAssignment).forM fun a => do
      let (name, value?) := Builtin.assignmentIn a
      let v : Variable := { value? := some (value?.getD ""), isExported := true }
      modify fun m => { m with bindings := Pairs.put name v m.bindings }
    let m ← get
    let ending ← match arguments.dropWhile isAssignment with
      | [] => do
        let _ ← emit 1 (m.environment.flatMap fun line => octets (line ++ "\n"))
        pure (.exited 0)
      | name :: rest => do
        let searched := if drops then { m with bindings := before } else m
        match searched.findProgram name with
        | .ok (_, program) => runProgram fuel program rest
        | .error why => do
          let text := match why with
            | .missing => "No such file or directory"
            | .forbidden => "Permission denied"
          Tool.grumble "env" (Tool.curled name ++ ": " ++ text)
          pure (.exited why.status)
    modify fun m => { m with bindings := before }
    return ending

def runShell : (fuel : Nat) → (arguments : List String) → Run Ending
  | 0, _ => throw (.killed 9)
  | fuel + 1, arguments => do
    let before ← get
    set before.asNewShell
    let outcome ← attempt do
      let script ← scriptFor arguments
      let _ ← runText fuel false script
      return (← get).status
    let ending ← finishProcess (runText fuel false) outcome
    modify before.after
    return ending

end

end Keyforge.Shell
