import Keyforge.Build.Workshop
import Keyforge.Log

/-!
# Tasks

Callers start and cancel attempts, and every attempt that gets to its command has a worker. Each of
them is a task: what it does next.
-/

namespace Keyforge.Build

/-- What a command did: the files it left, what it wrote and how it ended. The code is that of its
exit, or the negative number of the signal that ended it. -/
structure Execution where
  tree : File.Tree
  paused? : Option File.Tree := none
  output : List UInt8
  code : Int

/-- What starts commands: it runs one in a directory of a file tree, or refuses to. -/
abbrev Toolchain := File.Tree → File.Path → List String → Except File.Error Execution

/-- The lines a command wrote, without what ends them. -/
def outputLines (bytes : List UInt8) : List String :=
  (Text.endedLines (Text.decode bytes).toList).map String.ofList

inductive Task where
  | claim (artifacts : Firmware.Artifacts)
  | validate (id : Nat) (artifacts : Firmware.Artifacts)
  | check (id : Nat) (artifacts : Firmware.Artifacts)
  | generate (id : Nat) (artifacts : Firmware.Artifacts) (home : File.Path)
  | write (id : Nat) (artifacts : Firmware.Artifacts) (home : File.Path)
  | prepare (id : Nat) (artifacts : Firmware.Artifacts)
  | compile (id : Nat) (command : List String)
  | dispatch (id : Nat) (command : List String)
  | abort (id : Nat) (cause : Cause)
  | spawn (id : Nat) (command : List String)
  | register (id : Nat) (lines : List String) (code : Int)
  | kill (id : Nat) (lines : List String) (code : Int)
  | read (id : Nat) (lines : List String) (code : Int)
  | note (id : Nat) (line : String) (lines : List String) (code : Int)
  | post (id : Nat) (line : String) (lines : List String) (code : Int)
  | await (id : Nat) (code : Int)
  | search (id : Nat)
  | conclude (id : Nat) (completion : Completion)
  /-- Looks which attempt is in the works, to cancel it. -/
  | close
  | withdraw (id : Nat)
  | killWithdrawn (id : Nat)
  | announce (id : Nat)
  /-- No attempt was made, as another one is in the works. -/
  | rejected
  /-- The call is over; there is an attempt with this number. -/
  | started (id : Nat)
  /-- A name cannot be looked at or written. The attempt stays in the works. -/
  | raised (id : Nat) (error : Firmware.Artifacts.WriteError)
  | answered (cancelled : Bool)
  | ended (id : Nat)
  deriving Repr, DecidableEq

structure System where
  workshop : Workshop := {}
  options : Options := {}
  tree : File.Tree := {}
  killed : List Nat := []
  /-- What the files will be once the command of an attempt, which is paused, has come to its end. -/
  outcomes : List (Nat × File.Tree) := []
  log : Log := []
  tasks : List Task := []

namespace System

def killCode : Int := -9

def kill (s : System) (id : Nat) : System := { s with killed := id :: s.killed }

def withWorkshop (s : System) (workshop : Workshop) : System := { s with workshop }

/-- Takes the place for an attempt, if it is free. -/
def claim (s : System) (artifacts : Firmware.Artifacts) : System × Task :=
  match s.workshop.claim (artifacts.keyboard?.getD "") artifacts.keymap with
  | some (id, workshop) => (s.withWorkshop workshop, .validate id artifacts)
  | none => (s, .rejected)

def advance (s : System) (id : Nat) (status : Status) (text : String) (next : Task) :
    System × Task :=
  match s.workshop.advance id status text with
  | (true, workshop) => (s.withWorkshop workshop, next)
  | (false, workshop) => (s.withWorkshop workshop, .started id)

def checked (s : System) (id : Nat) (artifacts : Firmware.Artifacts) : Task :=
  if !artifacts.report.isValid then .abort id .invalidLayout
  else
    match s.options.home? with
    | none => .abort id (.noHome none)
    | some home =>
      match s.tree.look home File.Tree.isDirectory with
      | .ok true => .generate id artifacts home
      | .ok false => .abort id (.noHome (some home))
      | .error error => .raised id (.file error)

def writeSources (s : System) (id : Nat) (artifacts : Firmware.Artifacts) (home : File.Path) :
    System × Task :=
  match artifacts.keyboard? with
  | none => (s, .raised id .noKeyboard)
  | some keyboard =>
    let (tree, result) := artifacts.write (keymapDirectory home keyboard artifacts.keymap) s.tree
    let s := { s with tree }
    match result with
    | .ok _ => (s, .prepare id artifacts)
    | .error (.file error) =>
      if error.isRefusal then (s, .abort id (.unwritable error)) else (s, .raised id (.file error))
    | .error error => (s, .raised id error)

def prepared (s : System) (id : Nat) (artifacts : Firmware.Artifacts) : Task :=
  match s.options.commandFor (artifacts.keyboard?.getD "") artifacts.keymap with
  | [] => .abort id .emptyCommand
  | command => .compile id command

/-- Starts the command of an attempt. -/
def spawn (toolchain : Toolchain) (s : System) (id : Nat) (command : List String) : System × Task :=
  match toolchain s.tree (s.options.home?.getD {}) command with
  | .ok e =>
    let s := match e.paused? with
      | none => { s with tree := e.tree }
      | some tree => { s with tree, outcomes := Pairs.put id e.tree s.outcomes }
    (s, .register id (outputLines e.output) e.code)
  | .error error => (s, .conclude id (.failed ⟨.notStarted (command.headD "") error, []⟩))

def register (s : System) (id : Nat) (lines : List String) (code : Int) : System × Task :=
  match s.workshop.register id with
  | (true, workshop) => (s.withWorkshop workshop, .kill id lines code)
  | (false, workshop) => (s.withWorkshop workshop, .read id lines code)

def nextLine (s : System) (id : Nat) : (lines : List String) → (code : Int) → Task
  | [], code => .await id code
  | line :: lines, code =>
    if s.workshop.isCancelled id then .read id lines code else .note id line lines code

/-- Puts in what a command left behind after its pause, unless it was killed. -/
def settle (s : System) (id : Nat) : System :=
  match s.outcomes.lookup id with
  | some tree => if s.killed.contains id then s else { s with tree }
  | none => s

def awaited (s : System) (id : Nat) (code : Int) : Task :=
  let code := if s.killed.contains id then killCode else code
  if code = 0 then .search id else .conclude id (.failed ⟨.exited code, s.workshop.logOf id⟩)

def withdraw (s : System) (id : Nat) : System × Task :=
  match s.workshop.withdraw id with
  | (true, workshop) =>
    (s.withWorkshop workshop,
      if s.workshop.hasProcess id then .killWithdrawn id else .announce id)
  | (false, workshop) => (s.withWorkshop workshop, .answered false)

def searched (s : System) (id : Nat) : Task :=
  match s.workshop.attempt? id with
  | none => .conclude id (.succeeded none)
  | some a =>
    match s.options.findFirmware s.tree a.keyboard a.keymap with
    | .ok firmware? => .conclude id (.succeeded firmware?)
    | .error _ => .ended id

/-- One step of a task, and what is still to do. -/
def act (toolchain : Toolchain) (s : System) : Task → System × Task
  | .claim artifacts => s.claim artifacts
  | .validate id artifacts => s.advance id .validating "Validating layout" (.check id artifacts)
  | .check id artifacts => (s, s.checked id artifacts)
  | .generate id artifacts home =>
    s.advance id .generating "Writing firmware sources" (.write id artifacts home)
  | .write id artifacts home => s.writeSources id artifacts home
  | .prepare id artifacts => (s, s.prepared id artifacts)
  | .compile id command =>
    s.advance id .compiling ("Running " ++ String.intercalate " " command) (.dispatch id command)
  | .dispatch id command => ({ s with tasks := s.tasks ++ [.spawn id command] }, .started id)
  | .abort id cause => (s.withWorkshop (s.workshop.complete id (.failed ⟨cause, []⟩)), .started id)
  | .spawn id command => s.spawn toolchain id command
  | .register id lines code => s.register id lines code
  | .kill id lines code => (s.kill id, .read id lines code)
  | .read id lines code => (s, s.nextLine id lines code)
  | .note id line lines code =>
    (s.withWorkshop (s.workshop.note id line), .post id line lines code)
  | .post id line lines code =>
    (s.withWorkshop (s.workshop.post id (s.options.classify line) line), .read id lines code)
  | .await id code => (s.settle id, s.awaited id code)
  | .search id => (s, s.searched id)
  | .conclude id completion => (s.withWorkshop (s.workshop.complete id completion), .ended id)
  | .close => (s, (s.workshop.active?.map .withdraw).getD (.answered false))
  | .withdraw id => s.withdraw id
  | .killWithdrawn id => (s.kill id, .announce id)
  | .announce id =>
    ({ s with log := s.log ++ [.info ("build " ++ Text.natText id ++ " cancelled")] }, .answered true)
  | task => (s, task)

end System

/-! ### Ends of tasks -/

namespace Task

def isOver : Task → Bool
  | .rejected | .started _ | .raised _ _ | .answered _ | .ended _ => true
  | _ => false

@[simp] def stage : Task → Nat
  | .claim _ => 18
  | .validate _ _ => 17
  | .check _ _ => 16
  | .generate _ _ _ => 15
  | .write _ _ _ => 14
  | .prepare _ _ => 13
  | .compile _ _ => 12
  | .dispatch _ _ => 11
  | .abort _ _ => 10
  | .spawn _ _ => 9
  | .register _ _ _ => 8
  | .kill _ _ _ => 7
  | .read _ _ _ | .note _ _ _ _ | .post _ _ _ _ => 6
  | .await _ _ => 5
  | .search _ | .close => 4
  | .conclude _ _ | .withdraw _ => 3
  | .killWithdrawn _ => 2
  | .announce _ => 1
  | _ => 0

@[simp] def pending : Task → Nat
  | .read _ lines _ => 3 * lines.length
  | .note _ _ lines _ => 3 * lines.length + 2
  | .post _ _ lines _ => 3 * lines.length + 1
  | _ => 0

def rank (t : Task) : Nat × Nat := (t.stage, t.pending)

/-- Where a step of a task can lead. -/
def Leads : Task → Task → Prop
  | .claim artifacts, u => u = .rejected ∨ ∃ id, u = .validate id artifacts
  | .validate id artifacts, u => u = .check id artifacts ∨ u = .started id
  | .check id artifacts, u =>
    (∃ home, u = .generate id artifacts home) ∨ (∃ cause, u = .abort id cause) ∨
      ∃ error, u = .raised id error
  | .generate id artifacts home, u => u = .write id artifacts home ∨ u = .started id
  | .write id artifacts _, u =>
    u = .prepare id artifacts ∨ (∃ cause, u = .abort id cause) ∨ ∃ error, u = .raised id error
  | .prepare id _, u => (∃ cause, u = .abort id cause) ∨ ∃ command, u = .compile id command
  | .compile id command, u => u = .dispatch id command ∨ u = .started id
  | .dispatch id _, u | .abort id _, u => u = .started id
  | .spawn id _, u =>
    (∃ lines code, u = .register id lines code) ∨ ∃ completion, u = .conclude id completion
  | .register id lines code, u => u = .kill id lines code ∨ u = .read id lines code
  | .kill id lines code, u => u = .read id lines code
  | .read id lines code, u =>
    u = .await id code ∨ ∃ line rest, lines = line :: rest ∧
      (u = .read id rest code ∨ u = .note id line rest code)
  | .note id line lines code, u => u = .post id line lines code
  | .post id _ lines code, u => u = .read id lines code
  | .await id _, u => u = .search id ∨ ∃ completion, u = .conclude id completion
  | .search id, u => (∃ completion, u = .conclude id completion) ∨ u = .ended id
  | .conclude id _, u => u = .ended id
  | .close, u => (∃ id, u = .withdraw id) ∨ u = .answered false
  | .withdraw id, u => u = .killWithdrawn id ∨ u = .announce id ∨ u = .answered false
  | .killWithdrawn id, u => u = .announce id
  | .announce _, u => u = .answered true
  | t, u => u = t

theorem Leads.rank_lt {t u : Task} (h : t.Leads u) (hover : t.isOver = false) :
    Prod.Lex (· < ·) (· < ·) u.rank t.rank := by
  rw [Prod.lex_def]
  cases t with
  | read id lines code =>
    rcases h with rfl | ⟨line, rest, rfl, rfl | rfl⟩ <;> simp [rank]
    omega
  | rejected | started | raised | answered | ended => cases hover
  | _ => grind [Leads, rank, stage, pending]

end Task

namespace System

section Steps

variable (toolchain : Toolchain) (s : System)

theorem advance_eq (id : Nat) (status : Status) (text : String) (next : Task) :
    s.advance id status text next = (s.withWorkshop (s.workshop.advance id status text).2,
      if s.workshop.isActive id then next else .started id) := by
  unfold advance Workshop.advance
  cases s.workshop.isActive id <;> rfl

theorem register_eq (id : Nat) (lines : List String) (code : Int) :
    s.register id lines code = (s.withWorkshop (s.workshop.register id).2,
      if s.workshop.isCancelled id then .kill id lines code else .read id lines code) := by
  unfold register Workshop.register
  cases s.workshop.isCancelled id <;> rfl

theorem withdraw_eq (id : Nat) :
    s.withdraw id = (s.withWorkshop (s.workshop.withdraw id).2,
      if s.workshop.isActive id then
        if s.workshop.hasProcess id then .killWithdrawn id else .announce id
      else .answered false) := by
  unfold withdraw Workshop.withdraw
  cases s.workshop.isActive id <;> rfl

theorem act_leads (t : Task) : t.Leads (s.act toolchain t).2 := by
  cases t with
  | claim artifacts =>
    show (Task.claim artifacts).Leads (s.claim artifacts).2
    unfold claim
    split
    · exact .inr ⟨_, rfl⟩
    · exact .inl rfl
  | validate | generate | compile =>
    rw [act, advance_eq]
    dsimp only
    split
    · exact .inl rfl
    · exact .inr rfl
  | check id artifacts =>
    show (Task.check id artifacts).Leads (s.checked id artifacts)
    unfold checked
    split
    · exact .inr (.inl ⟨_, rfl⟩)
    · split
      · exact .inr (.inl ⟨_, rfl⟩)
      · split
        · exact .inl ⟨_, rfl⟩
        · exact .inr (.inl ⟨_, rfl⟩)
        · exact .inr (.inr ⟨_, rfl⟩)
  | write id artifacts home =>
    show (Task.write id artifacts home).Leads (s.writeSources id artifacts home).2
    unfold writeSources
    dsimp only
    split
    · exact .inr (.inr ⟨_, rfl⟩)
    · split
      · exact .inl rfl
      · split
        · exact .inr (.inl ⟨_, rfl⟩)
        · exact .inr (.inr ⟨_, rfl⟩)
      · exact .inr (.inr ⟨_, rfl⟩)
  | prepare id artifacts =>
    show (Task.prepare id artifacts).Leads (s.prepared id artifacts)
    unfold prepared
    split
    · exact .inl ⟨_, rfl⟩
    · exact .inr ⟨_, rfl⟩
  | spawn id command =>
    show (Task.spawn id command).Leads (s.spawn toolchain id command).2
    unfold spawn
    split
    · exact .inl ⟨_, _, rfl⟩
    · exact .inr ⟨_, rfl⟩
  | register id lines code =>
    rw [act, register_eq]
    dsimp only
    split
    · exact .inl rfl
    · exact .inr rfl
  | read id lines code =>
    cases lines with
    | nil => exact .inl rfl
    | cons line lines =>
      refine .inr ⟨line, lines, rfl, ?_⟩
      show s.nextLine id (line :: lines) code = _ ∨ s.nextLine id (line :: lines) code = _
      unfold nextLine
      cases s.workshop.isCancelled id with
      | true => exact .inl rfl
      | false => exact .inr rfl
  | await id code =>
    show (Task.await id code).Leads (s.awaited id code)
    unfold awaited
    dsimp only
    split <;> split <;> first | exact .inl rfl | exact .inr ⟨_, rfl⟩
  | search id =>
    show (Task.search id).Leads (s.searched id)
    unfold searched
    split
    · exact .inl ⟨_, rfl⟩
    · split
      · exact .inl ⟨_, rfl⟩
      · exact .inr rfl
  | close =>
    show Task.close.Leads ((s.workshop.active?.map Task.withdraw).getD (.answered false))
    cases s.workshop.active? with
    | none => exact .inr rfl
    | some id => exact .inl ⟨id, rfl⟩
  | withdraw id =>
    rw [act, withdraw_eq]
    dsimp only
    split
    · split
      · exact .inl rfl
      · exact .inr (.inl rfl)
    · exact .inr (.inr rfl)
  | dispatch | abort | kill | note | post | conclude | killWithdrawn | announce | rejected | started
  | raised | answered | ended => rfl

end Steps

def finish (toolchain : Toolchain) (s : System) (t : Task) : System × Task :=
  if _h : t.isOver then (s, t)
  else finish toolchain (s.act toolchain t).1 (s.act toolchain t).2
termination_by t.rank
decreasing_by exact (act_leads toolchain s t).rank_lt (by simpa using _h)

def step (toolchain : Toolchain) (n : Nat) (s : System) : System :=
  match s.tasks[n]? with
  | none => s
  | some t =>
    let (s, next) := s.act toolchain t
    { s with tasks := s.tasks.set n next }

/-- What can happen to the system: a call comes in, or a task takes a step. -/
inductive Move where
  | call (task : Task)
  | step (n : Nat)
  deriving Repr, DecidableEq

def move (toolchain : Toolchain) (s : System) : Move → System
  | .call task => { s with tasks := s.tasks ++ [task] }
  | .step n => s.step toolchain n

def run (toolchain : Toolchain) (s : System) (moves : List Move) : System :=
  moves.foldl (move toolchain) s

end System

end Keyforge.Build
