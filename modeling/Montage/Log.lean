/-!
# Log events

What a render reports while it runs.
-/

namespace Montage

inductive LogLevel where
  | info
  | warning
  | error
deriving DecidableEq

def LogLevel.name : LogLevel → String
  | info => "INFO"
  | warning => "WARN"
  | error => "ERROR"

structure LogEvent where
  level : LogLevel
  message : String
deriving DecidableEq

namespace LogEvent

def info (message : String) : LogEvent := ⟨.info, message⟩

def warning (message : String) : LogEvent := ⟨.warning, message⟩

def error (message : String) : LogEvent := ⟨.error, message⟩

end LogEvent

end Montage
