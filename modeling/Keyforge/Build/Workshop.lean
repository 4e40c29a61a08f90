import Keyforge.Build.Message

/-!
# The workshop

All attempts to build firmware, of which at most one is in the works. Callers and workers share the
workshop; each function here is one step that nothing else can come between.
-/

namespace Keyforge.Build

/-- An attempt, as seen by the one who asked for it. -/
structure Attempt where
  id : Nat
  keyboard : String
  keymap : String
  /-- All messages, oldest first. -/
  messages : List Message := []
  taken : Nat := 0
  log : List String := []
  hasProcess : Bool := false
  isCancelled : Bool := false
  isFinished : Bool := false
  deriving Repr, DecidableEq

def Attempt.put (a : Attempt) (message : Message) : Attempt :=
  { a with messages := a.messages ++ [message] }

structure Workshop where
  /-- Every attempt that was ever made, in order. -/
  attempts : List Attempt := []
  active? : Option Nat := none
  status : Status := .idle
  lastStatus? : Option Status := none
  deriving Repr, DecidableEq

namespace Workshop

def attempt? (w : Workshop) (id : Nat) : Option Attempt := w.attempts.find? fun a => a.id == id

def update (w : Workshop) (id : Nat) (f : Attempt → Attempt) : Workshop :=
  { w with attempts := w.attempts.map fun a => if a.id == id then f a else a }

def isActive (w : Workshop) (id : Nat) : Bool := w.active? == some id

def isCancelled (w : Workshop) (id : Nat) : Bool := (w.attempt? id).any (·.isCancelled)

def nextId (w : Workshop) : Nat := w.attempts.length + 1

/-- Makes an attempt and gives it the place. -/
def claim (w : Workshop) (keyboard keymap : String) : Option (Nat × Workshop) :=
  match w.active? with
  | some _ => none
  | none =>
    let id := w.nextId
    some (id, { w with attempts := w.attempts ++ [{ id, keyboard, keymap }], active? := some id })

def advance (w : Workshop) (id : Nat) (status : Status) (text : String) : Bool × Workshop :=
  if w.isActive id then
    (true, { w.update id (·.put (.progress id status text)) with status })
  else (false, w)

/-- Ends the attempt that has the place, with its last two messages. -/
def complete (w : Workshop) (id : Nat) (completion : Completion) : Workshop :=
  if w.isActive id then
    let w := w.update id fun a =>
      { (a.put (.progress id completion.status completion.text)).put (.complete id completion) with
        isFinished := true }
    { w with lastStatus? := some completion.status, status := .idle, active? := none }
  else w

def register (w : Workshop) (id : Nat) : Bool × Workshop :=
  (w.isCancelled id, w.update id fun a => { a with hasProcess := true })

/-- Cancels the attempt that has the place, and frees it. -/
def withdraw (w : Workshop) (id : Nat) : Bool × Workshop :=
  if w.isActive id then
    let w := w.update id fun a => { a with isCancelled := true, isFinished := true }
    (true, { w with active? := none, status := .idle })
  else (false, w)

def hasProcess (w : Workshop) (id : Nat) : Bool := (w.attempt? id).any (·.hasProcess)

def note (w : Workshop) (id : Nat) (line : String) : Workshop :=
  w.update id fun a => { a with log := a.log ++ [line] }

def post (w : Workshop) (id : Nat) (level : Level) (line : String) : Workshop :=
  w.update id (·.put (.output id level line))

def logOf (w : Workshop) (id : Nat) : List String := ((w.attempt? id).map (·.log)).getD []

def take (w : Workshop) (id : Nat) : List Message × Workshop :=
  (((w.attempt? id).map fun a => a.messages.drop a.taken).getD [],
    w.update id fun a => { a with taken := a.messages.length })

end Workshop

end Keyforge.Build
