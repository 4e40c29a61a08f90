import Keyforge.Shell.Condition
import Keyforge.Shell.Expand
import Keyforge.Shell.Format
import Keyforge.Shell.Parse

/-!
# Commands of the shell

Commands that the shell carries out itself, because they change its state or are used so often. They
get their arguments and end with a status. Those that run other commands are not here.
-/

namespace Keyforge.Shell

abbrev Builtin := List String → Run Nat

namespace Builtin

/-! ### Arguments -/

def number (s : String) : Run Nat :=
  if s != "" && s.toList.all Char.isDigit then return Text.natOfDigits s.toList
  else refuse ("Illegal number: " ++ s)

def optionsFrom (known valued : String) : (fuel : Nat) → List String →
    Run (List (Char × String) × List String)
  | 0, arguments => return ([], arguments)
  | _ + 1, [] => return ([], [])
  | fuel + 1, a :: rest =>
    let rec letters : List Char → List String → Run (List (Char × String) × List String)
      | [], rest => return ([], rest)
      | c :: cs, rest => do
        if valued.toList.contains c then
          match cs, rest with
          | [], value :: rest => return ([(c, value)], rest)
          | [], [] => refuse ("No arg for -" ++ c.toString ++ " option")
          | cs, rest => return ([(c, String.ofList cs)], rest)
        else if known.toList.contains c then
          let (more, rest) ← letters cs rest
          return ((c, "") :: more, rest)
        else refuse ("Illegal option -" ++ c.toString)
    match a.toList with
    | ['-', '-'] => return ([], rest)
    | '-' :: c :: cs => do
      let (found, rest) ← letters (c :: cs) rest
      let (more, rest) ← optionsFrom known valued fuel rest
      return (found ++ more, rest)
    | _ => return ([], a :: rest)

def options (known : String) (arguments : List String) (valued : String := "") :
    Run (List (Char × String) × List String) :=
  optionsFrom known valued (arguments.length + 1) arguments

def inQuotes (s : String) : String :=
  let pieces := (s.splitOn "'").map fun piece => "'" ++ piece ++ "'"
  String.intercalate "\"'\"" pieces

/-! ### Writing -/

def echo : Builtin := fun arguments => do
  let (lineEnd, arguments) := match arguments with
    | "-n" :: rest => ("", rest)
    | rest => ("\n", rest)
  let rec write : List String → Run Unit
    | [] => say lineEnd
    | a :: rest => do
      let (text, ends) := Format.unescape a
      say text
      if ends then return ()
      else
        if !rest.isEmpty then say " "
        write rest
  write arguments
  return 0

def printFormatted : Builtin := fun arguments => do
  let (_, arguments) ← options "" arguments
  match arguments with
  | [] => refuse "usage: printf format [arg ...]"
  | format :: rest =>
    let outcome := Format.render format rest
    outcome.complaints.forM report
    say outcome.text
    match outcome.refusal? with
    | some why => refuse why
    | none => return if outcome.complaints.isEmpty then 0 else 1

/-! ### Conditions -/

def test : Builtin := fun arguments => do
  match Condition.eval (← get) arguments with
  | .ok holds => return if holds then 0 else 1
  | .error e => refuse e.message

def bracketTest : Builtin := fun arguments => do
  if arguments.getLast? == some "]" then test arguments.dropLast else refuse "missing ]"

/-! ### Directories -/

def pathText (names : List String) : String := "/" ++ spread (String.intercalate "/" names)

def changeDirectory : Builtin := fun arguments => do
  let (_, arguments) ← options "LP" arguments
  let m ← get
  let (name, shows) := match arguments with
    | [] => (m.value "HOME", false)
    | "-" :: _ => (m.value "OLDPWD", true)
    | name :: _ => (name, false)
  let names := withoutDots (m.namesOf (gather (if name == "" then "." else name)))
  if !m.isDirectory (pathText names) then refuse ("can't cd to " ++ name)
  else
    let exported (name value : String) (m : Machine) : Machine :=
      let old := (Pairs.get? name m.bindings).getD {}
      let new := { old with value? := some value, isExported := true }
      { m with bindings := Pairs.put name new m.bindings }
    set (exported "PWD" (pathText names) (exported "OLDPWD" (pathText m.directory)
      { m with directory := names }))
    if shows then say (pathText names ++ "\n")
    return 0

def showDirectory : Builtin := fun arguments => do
  let _ ← options "LP" arguments
  say (pathText (← get).directory ++ "\n")
  return 0

/-! ### Reading -/

/-- A character that was read; one behind a backslash is `fixed` and separates nothing. -/
structure Typed where
  char : Char
  fixed : Bool := false

def readTyped (isRaw : Bool) : (fuel : Nat) → Run (List Typed × Bool)
  | 0 => return ([], false)
  | fuel + 1 => do
    let (line, isWhole) ← readLine 0
    let cs := (ofOctets (line.filter (· != 0))).toList
    if isRaw then return (cs.map ({ char := · }), isWhole)
    else
      let rec typed : List Char → List Typed × Bool
        | [] => ([], false)
        | ['\\'] => ([], true)
        | '\\' :: c :: rest =>
          let (more, joins) := typed rest
          (⟨c, true⟩ :: more, joins)
        | c :: rest =>
          let (more, joins) := typed rest
          ({ char := c } :: more, joins)
      let (ts, joins) := typed cs
      if joins && isWhole then
        let (more, isWhole) ← readTyped isRaw fuel
        return (ts ++ more, isWhole)
      else return (ts, isWhole)

def shares (separators : List Char) : (count : Nat) → List Typed → List String
  | 0, _ => []
  | count + 1, ts =>
    let separates (t : Typed) := !t.fixed && separators.contains t.char
    let isBlank (t : Typed) := separates t && isFieldBlank t.char
    let text (ts : List Typed) := String.ofList (ts.map (·.char))
    let ts := ts.dropWhile isBlank
    let field := ts.takeWhile (!separates ·)
    let rest := ts.dropWhile (!separates ·)
    if count = 0 then
      if rest.all separates && (rest.filter (!isBlank ·)).length ≤ 1 then [text field]
      else [text (ts.reverse.dropWhile isBlank).reverse]
    else
      let rest := rest.dropWhile isBlank
      let rest := match rest with
        | t :: more => if separates t then more else rest
        | [] => []
      text field :: shares separators count rest

def read : Builtin := fun arguments => do
  let (found, names) ← options "r" arguments "p"
  if names.isEmpty then refuse "arg count"
  else
    let (ts, isWhole) ← readTyped (found.any (·.1 == 'r')) 10000
    (names.zip (shares (← get).separators names.length ts)).forM fun (name, value) => do
      if isName name then assign name value else refuse (name ++ ": bad variable name")
    return if isWhole then 0 else 1

/-! ### Variables -/

def assignmentIn (a : String) : String × Option String :=
  let name := a.toList.takeWhile (· != '=')
  (String.ofList name,
    if name.length < a.length then some (String.ofList (a.toList.drop (name.length + 1))) else none)

def declare (change : Variable → Variable) (a : String) : Run Unit := do
  let (name, value?) := assignmentIn a
  if !isName name then refuse (name ++ ": bad variable name")
  else
    if let some value := value? then assign name value
    modify fun m =>
      { m with bindings := Pairs.put name (change ((Pairs.get? name m.bindings).getD {})) m.bindings }

def showVariables (word : String) (isShown : Variable → Bool) : Run Unit := do
  let shown := ((← get).bindings.filter fun (_, v) => isShown v).mergeSort fun a b =>
    File.Tree.textAtMost a.1.toList b.1.toList
  shown.forM fun (name, v) =>
    say (word ++ name ++ ((v.value?.map fun value => "=" ++ inQuotes value).getD "") ++ "\n")

def declareAll (word : String) (change : Variable → Variable) (isShown : Variable → Bool) :
    Builtin := fun arguments => do
  let (found, names) ← options "p" arguments
  if names.isEmpty || !found.isEmpty then showVariables (word ++ " ") isShown
  else names.forM (declare change)
  return 0

def makePublic : Builtin := declareAll "export" ({ · with isExported := true }) (·.isExported)

def protect : Builtin := declareAll "readonly" ({ · with isFixed := true }) (·.isFixed)

def declareLocal : Builtin := fun arguments => do
  match (← get).locals? with
  | none => refuse "not in a function"
  | some _ =>
    arguments.forM fun a => do
      let (name, value?) := assignmentIn a
      if !isName name then refuse (name ++ ": bad variable name")
      modify fun m =>
        let kept := m.locals?.getD []
        if kept.any (·.1 == name) then m
        else { m with locals? := some ((name, Pairs.get? name m.bindings) :: kept) }
      if let some value := value? then assign name value
    return 0

def unset : Builtin := fun arguments => do
  let (found, names) ← options "fv" arguments
  let isFunction := (found.getLast?.map (·.1)) == some 'f'
  names.forM fun name => do
    let m ← get
    if isFunction then set { m with functions := Pairs.erase name m.functions }
    else if (Pairs.get? name m.bindings).any (·.isFixed) then refuse (name ++ ": is read only")
    else if !isName name then refuse (name ++ ": bad variable name")
    else
      let isKept := (m.locals?.getD []).any (·.1 == name)
      set { m with bindings := if isKept then Pairs.put name {} m.bindings
        else Pairs.erase name m.bindings }
  return 0

/-! ### Options -/

def optionNames : List (String × Option Char) :=
  [("errexit", some 'e'), ("noglob", some 'f'), ("ignoreeof", some 'I'), ("interactive", some 'i'),
    ("monitor", some 'm'), ("noexec", some 'n'), ("stdin", some 's'), ("xtrace", some 'x'),
    ("verbose", some 'v'), ("vi", some 'V'), ("emacs", some 'E'), ("noclobber", some 'C'),
    ("allexport", some 'a'), ("notify", some 'b'), ("nounset", some 'u'),
    ("privileged", some 'p'), ("nolog", none), ("debug", none)]

def switch (c : Char) (on : Bool) : Run Unit := do
  if optionOrder.contains c then
    modify fun m =>
      let others := m.options.filter (· != c)
      { m with options := if on then c :: others else others }
  else refuse ("Illegal option -" ++ c.toString)

def switchNamed (name : String) (on : Bool) : Run Unit := do
  match optionNames.lookup name with
  | some (some c) => switch c on
  | some none => return ()
  | none => refuse ("Illegal option -o " ++ name)

def switchOptions : (fuel : Nat) → List String → Run (Option (List String))
  | 0, _ => return none
  | _ + 1, [] => return none
  | fuel + 1, a :: rest =>
    let rec letters (on : Bool) : List Char → List String → Run (List String)
      | [], rest => return rest
      | 'o' :: cs, rest => do
        switchNamed (rest.headD "") on
        letters on cs (rest.drop 1)
      | c :: cs, rest => do
        switch c on
        letters on cs rest
    match a.toList with
    | ['-'] => do
      modify fun m => { m with options := m.options.filter fun c => c != 'x' && c != 'v' }
      return if rest.isEmpty then none else some rest
    | ['-', '-'] => return some rest
    | '-' :: cs => do switchOptions fuel (← letters true cs rest)
    | '+' :: cs => do switchOptions fuel (← letters false cs rest)
    | _ => return some (a :: rest)

def setOptions : Builtin := fun arguments => do
  if arguments.isEmpty then showVariables "" (·.value?.isSome)
  else
    match ← switchOptions (arguments.length + 1) arguments with
    | some rest =>
      modify fun m => { m with arguments := rest }
    | none => pure ()
  return 0

def shift : Builtin := fun arguments => do
  let n ← match arguments with
    | a :: _ => number a
    | [] => pure 1
  let m ← get
  if m.arguments.length < n then refuse "can't shift that many"
  else
    set { m with arguments := m.arguments.drop n }
    return 0

def mask : Builtin := fun arguments => do
  match arguments with
  | [] =>
    let digits := Nat.toDigits 8 (← get).mask
    say (String.ofList (List.replicate (4 - digits.length) '0' ++ digits) ++ "\n")
    return 0
  | a :: _ =>
    if a.toList.all Format.isOctal then
      modify fun m => { m with mask := (Arithmetic.digitsAt 8 a.toList).1 % 512 }
      return 0
    else refuse ("Illegal number: " ++ a)

/-! ### Ways out -/

def exit : Builtin := fun arguments => do
  match arguments with
  | [] => throw (.exit (← get).status)
  | a :: _ => throw (.exit (← number a))

def comeBack : Builtin := fun arguments => do
  match arguments with
  | [] => throw (.back (← get).status)
  | a :: _ => throw (.back (← number a))

def leaveLoops (escape : Nat → Escape) : Builtin := fun arguments => do
  let n ← match arguments with
    | a :: _ => do
      let n ← number a
      if n == 0 then refuse ("Illegal number: " ++ a) else pure n
    | [] => pure 1
  let m ← get
  if m.loopDepth == 0 then return 0
  else
    set { m with status := 0 }
    throw (escape (min n m.loopDepth))

/-! ### Signals -/

def trap : Builtin := fun arguments => do
  let (_, arguments) ← options "" arguments
  match arguments with
  | [] =>
    let traps := (← get).traps.mergeSort fun a b => a.1 ≤ b.1
    traps.forM fun (n, action) =>
      say ("trap -- " ++ inQuotes action ++ " " ++ signalName n ++ "\n")
    return 0
  | first :: rest =>
    let isNumber := first != "" && first.toList.all Char.isDigit && (signal? first).isSome
    let (action?, names) := if rest.isEmpty || isNumber then (none, first :: rest)
      else (if first == "-" then none else some first, rest)
    let rec put : List String → Run Nat
      | [] => return 0
      | name :: names => do
        match signal? name with
        | none =>
          complain ("trap: " ++ name ++ ": bad trap")
          return 1
        | some n =>
          modify fun m =>
            { m with traps := match action? with
              | some action => Pairs.put n action m.traps
              | none => Pairs.erase n m.traps }
          put names
    put names

def receive (signal : Nat) : Run Unit := do
  let m ← get
  match m.traps.lookup signal with
  | some "" => if signal == 9 then throw (.killed 9)
  | some _ =>
    if signal == 9 || signal == 19 then throw (.killed signal)
    else set { m with signals := m.signals ++ [signal] }
  | none => if harmlessSignals.contains signal then return () else throw (.killed signal)

def sendTo (signal : Nat) (target : String) : Run Nat := do
  let m ← get
  let n ← if target.startsWith "%" then number (String.ofList (target.toList.drop 1))
    else number (if target.startsWith "-" then String.ofList (target.toList.drop 1) else target)
  let isTarget : Job × Nat → Bool := fun (job, index) =>
    if target.startsWith "%" then index + 1 == n else job.process == n
  if m.isMain && (target == "0" || n == m.process) then
    receive signal
    return 0
  else if target == "0" || n == m.process || m.ancestors.contains n then
    set { m with sent := m.sent ++ [(if target == "0" then m.process else n, signal)] }
    return 0
  else if m.jobs.zipIdx.any isTarget then
    let jobs := m.jobs.zipIdx.map fun (job, index) =>
      if isTarget (job, index) && job.pauses && !job.isOver && !harmlessSignals.contains signal then
        { job with status := 128 + signal, written := [] }
      else job
    set { m with jobs }
    return 0
  else
    report "No such process\n"
    return 1

def killUsage : String :=
  "Usage: kill [-s sigspec | -signum | -sigspec] [pid | job]... or\nkill -l [exitstatus]"

def kill : Builtin := fun arguments => do
  let (signal?, targets) ← do
    match arguments with
    | [] => refuse killUsage
    | a :: rest =>
      if a.startsWith "-" then
        match signal? (String.ofList (a.toList.drop 1)) with
        | some n => pure (some n, rest)
        | none =>
          let (found, rest) ← options "" arguments "s"
          match found.find? (·.1 == 's') with
          | some (_, name) =>
            match signal? name with
            | some n => pure (some n, rest)
            | none => refuse ("invalid signal number or name: " ++ name)
          | none => pure (none, rest)
      else pure (none, arguments)
  if targets.isEmpty then refuse killUsage
  else
    let statuses ← targets.mapM (sendTo (signal?.getD 15))
    return statuses.foldl max 0

/-! ### Jobs -/

def Job.deliver (job : Job) : Run Unit :=
  job.written.forM fun (n, bytes) => modify fun m => m.writeTo n bytes

def finishJobs : Run Unit := do
  let jobs := (← get).jobs
  modify fun m => { m with jobs := m.jobs.map fun job => { job with isOver := true, written := [] } }
  jobs.forM fun job => if job.isOver then return () else Job.deliver job

def finishJob (isSought : Job → Nat → Bool) : Run Nat := do
  let m ← get
  match m.jobs.zipIdx.find? fun (job, index) => isSought job index with
  | none => return 127
  | some (job, index) =>
    set { m with jobs := m.jobs.set index { job with isOver := true, written := [] } }
    if !job.isOver then
      Job.deliver job
      if 128 < job.status then
        if let some text := signalMessages.lookup (job.status - 128) then complain text
    return job.status

def wait : Builtin := fun arguments => do
  match arguments with
  | [] =>
    finishJobs
    return 0
  | targets =>
    let statuses ← targets.mapM fun target => do
      if target.startsWith "%" then
        let n ← number (String.ofList (target.toList.drop 1))
        finishJob fun _ index => index + 1 == n
      else
        let n ← number target
        finishJob fun job _ => job.process == n
    return statuses.getLastD 0

/-! ### The list -/

def table : List (String × Builtin) :=
  [(":", fun _ => return 0), ("true", fun _ => return 0), ("false", fun _ => return 1),
    ("echo", echo), ("printf", printFormatted), ("test", test), ("[", bracketTest),
    ("cd", changeDirectory), ("chdir", changeDirectory), ("pwd", showDirectory), ("read", read),
    ("export", makePublic), ("readonly", protect), ("local", declareLocal), ("unset", unset),
    ("set", setOptions), ("shift", shift), ("umask", mask), ("exit", exit),
    ("return", comeBack), ("break", leaveLoops .leave), ("continue", leaveLoops .again),
    ("trap", trap), ("kill", kill), ("wait", wait), ("jobs", fun _ => return 0)]

def runners : List String := ["eval", "exec", ".", "command", "type"]

def isBuiltin (name : String) : Bool := (table.lookup name).isSome || runners.contains name

end Builtin

end Keyforge.Shell
