import Outliner.Json.Value
/-!
# Log records

A log record has a level, a message and attributes in the order they were given. Records below a
logger's level are dropped: `debug` is the lowest level and `error` the highest.
-/

set_option autoImplicit false

namespace Outliner.Log

/-- How serious a record is. -/
inductive Level where
  | debug
  | info
  | warn
  | error
  deriving Repr, BEq, DecidableEq, Inhabited

namespace Level

def rank : Level → Nat
  | .debug => 0
  | .info => 1
  | .warn => 2
  | .error => 3

def name : Level → String
  | .debug => "DEBUG"
  | .info => "INFO"
  | .warn => "WARN"
  | .error => "ERROR"

def keeps (least l : Level) : Bool := least.rank ≤ l.rank

end Level

/-- A log record. -/
structure LogRecord where
  level : Level
  message : String
  attrs : List (String × Json)
  deriving Repr, Inhabited

def LogRecord.toJson (r : LogRecord) : Json :=
  .obj ([("level", .str r.level.name), ("msg", .str r.message)] ++ r.attrs)

end Outliner.Log
