import Keyforge.Build.Task

/-!
# Sessions

The builds of a single caller. A call is over before the next one comes in; a worker goes on when
the caller waits for it.
-/

namespace Keyforge.Build

def Task.worksOn? : Task → Option Nat
  | .spawn id _ | .register id _ _ | .kill id _ _ | .read id _ _ | .note id _ _ _ | .post id _ _ _
  | .await id _ | .search id | .conclude id _ | .ended id => some id
  | _ => none

def Task.isStarting : Task → Bool
  | .spawn _ _ | .register _ _ _ => true
  | _ => false

inductive Start where
  | attempt (id : Nat)
  | rejected
  | raised (error : Firmware.Artifacts.WriteError)
  deriving Repr, DecidableEq

namespace System

def start (toolchain : Toolchain) (s : System) (artifacts : Firmware.Artifacts) : System × Start :=
  match s.finish toolchain (.claim artifacts) with
  | (s, .started id) => (s, .attempt id)
  | (s, .raised _ error) => (s, .raised error)
  | (s, _) => (s, .rejected)

def cancel (toolchain : Toolchain) (s : System) (id : Nat) : System × Bool :=
  match s.finish toolchain (.withdraw id) with
  | (s, .answered cancelled) => (s, cancelled)
  | (s, _) => (s, false)

def closeDown (toolchain : Toolchain) (s : System) : System := (s.finish toolchain .close).1

def workerOf? (s : System) (id : Nat) : Option Nat :=
  s.tasks.findIdx? fun t => t.worksOn? == some id

def awaitEnd (toolchain : Toolchain) (s : System) (id : Nat) : System :=
  match s.workerOf? id with
  | none => s
  | some n =>
    match s.tasks[n]? with
    | none => s
    | some t =>
      let (s, t) := s.finish toolchain t
      { s with tasks := s.tasks.set n t }

def nudge (toolchain : Toolchain) (s : System) (id : Nat) : System :=
  match s.workerOf? id with
  | none => s
  | some n => if (s.tasks[n]?).any (·.isStarting) then s.step toolchain n else s

def awaitProcess (toolchain : Toolchain) (s : System) (id : Nat) : System :=
  (s.nudge toolchain id).nudge toolchain id

def hasProcessEnded (s : System) (id : Nat) : Bool :=
  s.workshop.hasProcess id &&
    (s.killed.contains id || s.tasks.any fun
      | .search i | .conclude i _ | .ended i => i == id
      | _ => false)

def poll (s : System) (id : Nat) : System × List Message :=
  let (messages, workshop) := s.workshop.take id
  (s.withWorkshop workshop, messages)

def collect (toolchain : Toolchain) (s : System) (id : Nat) : System × List Message :=
  (s.awaitEnd toolchain id).poll id

end System

end Keyforge.Build
