/-!
# Log

What a run has to say beside its result.
-/

namespace Keyforge

inductive Log.Level where
  | info
  | warning
  | error
  | visit
  deriving Repr, DecidableEq

structure Log.Entry where
  level : Log.Level
  message : String
  deriving Repr, DecidableEq

/-- The notes of a run, oldest first. -/
abbrev Log := List Log.Entry

namespace Log

def Level.name : Level → String
  | .info => "INFO"
  | .warning => "WARNING"
  | .error => "ERROR"
  | .visit => "URL"

def Entry.text (entry : Entry) : String := entry.level.name ++ ": " ++ entry.message

def Entry.info (message : String) : Entry := ⟨.info, message⟩

def Entry.warning (message : String) : Entry := ⟨.warning, message⟩

def Entry.error (message : String) : Entry := ⟨.error, message⟩

def Entry.visit (address : String) : Entry := ⟨.visit, address⟩

end Log

end Keyforge
