/-
  ShowRelay.LogRecord

  What the relay notes about its own work.
-/

namespace ShowRelay

/-- How much a record matters, from the least to the most. -/
inductive LogLevel where
  | debug
  | info
  | warn
  | error
  deriving Repr, DecidableEq

/-- The name of a level in a written record. -/
def LogLevel.text : LogLevel → String
  | debug => "DEBUG"
  | info => "INFO"
  | warn => "WARN"
  | error => "ERROR"

/-- One line of the relay's log. -/
structure LogRecord where
  level : LogLevel
  text : String
  deriving Repr, DecidableEq

namespace LogRecord

/-- The written record: its level, a space and its text. -/
def line (r : LogRecord) : String := r.level.text ++ " " ++ r.text

end LogRecord

end ShowRelay
