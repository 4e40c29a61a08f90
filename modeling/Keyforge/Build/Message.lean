import Keyforge.Build.Invocation

/-!
# Messages of builds

What an attempt to build firmware tells the one who asked for it: how far it is, what the command
writes, and at last how it ended.
-/

namespace Keyforge.Build

inductive Status where
  | idle
  | validating
  | generating
  | compiling
  | success
  | failed
  deriving Repr, DecidableEq, Inhabited

def Status.name : Status → String
  | .idle => "idle"
  | .validating => "validating"
  | .generating => "generating"
  | .compiling => "compiling"
  | .success => "success"
  | .failed => "failed"

/-! ### Failures -/

inductive Cause where
  | invalidLayout
  | noHome (home? : Option File.Path)
  | unwritable (error : File.Error)
  | emptyCommand
  | notStarted (command : String) (error : File.Error)
  | exited (code : Int)
  deriving Repr, DecidableEq

inductive Phase where
  | setup
  | spawn
  | exit
  deriving Repr, DecidableEq

def Phase.name : Phase → String
  | .setup => "setup"
  | .spawn => "spawn"
  | .exit => "exit"

namespace Cause

def phase : Cause → Phase
  | .invalidLayout | .noHome _ | .unwritable _ => .setup
  | .emptyCommand | .notStarted _ _ => .spawn
  | .exited _ => .exit

def message : Cause → String
  | .invalidLayout => "Layout has validation errors"
  | .noHome home? => "QMK home " ++ (home?.map (·.text)).getD "None" ++ " is not a directory"
  | .unwritable error => "Could not write sources: " ++ error.message
  | .emptyCommand => "Build command is empty"
  | .notStarted command error =>
    "Could not start build command " ++ Text.quoted command ++ ": " ++ error.message
  | .exited code => "Build failed with exit code " ++ Text.intText code

def code? : Cause → Option Int
  | .exited code => some code
  | _ => none

end Cause

/-- A failure, with the output of the command if it was run. -/
structure Failure where
  cause : Cause
  log : List String := []
  deriving Repr, DecidableEq

/-! ### Messages -/

inductive Completion where
  | succeeded (firmware? : Option File.Path)
  | failed (failure : Failure)
  deriving Repr, DecidableEq

namespace Completion

def status : Completion → Status
  | .succeeded _ => .success
  | .failed _ => .failed

def text : Completion → String
  | .succeeded _ => "Build succeeded"
  | .failed failure => failure.cause.message

def code? : Completion → Option Int
  | .succeeded _ => some 0
  | .failed failure => failure.cause.code?

def firmware? : Completion → Option File.Path
  | .succeeded firmware? => firmware?
  | .failed _ => none

def failure? : Completion → Option Failure
  | .succeeded _ => none
  | .failed failure => some failure

end Completion

inductive Message where
  | progress (id : Nat) (status : Status) (text : String)
  | output (id : Nat) (level : Level) (line : String)
  | complete (id : Nat) (completion : Completion)
  deriving Repr, DecidableEq

def Message.id : Message → Nat
  | .progress id _ _ | .output id _ _ | .complete id _ => id

def Message.isComplete : Message → Bool
  | .complete _ _ => true
  | _ => false

end Keyforge.Build
