/-!
# The log

What is logged while the library works: a level and a message, in the order of events.
-/

namespace LanguageHub

/-- How much a message matters. -/
inductive Level where
  | trace
  | debug
  | info
  | warn
deriving DecidableEq, Repr

/-- The name of a level. -/
def Level.text : Level → String
  | .trace => "TRACE"
  | .debug => "DEBUG"
  | .info => "INFO"
  | .warn => "WARN"

/-- A message of a level. -/
structure LogEntry where
  level : Level
  message : String
deriving DecidableEq, Repr

namespace LogEntry

/-- A message that traces a step. -/
def trace (message : String) : LogEntry := ⟨.trace, message⟩

/-- A message for who looks for a fault. -/
def debug (message : String) : LogEntry := ⟨.debug, message⟩

/-- A message about the normal course of things. -/
def info (message : String) : LogEntry := ⟨.info, message⟩

/-- A warning. -/
def warn (message : String) : LogEntry := ⟨.warn, message⟩

end LogEntry

end LanguageHub
