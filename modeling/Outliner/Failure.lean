import Outliner.Text.Quoted
/-!
# Failures

Every operation of the service either succeeds or fails with a `Failure`: a class, which decides how
the failure is reported (status code, problem details), and a text that says what went wrong,
prefixed by the steps that were under way (`create item for c: …`).
-/

set_option autoImplicit false

namespace Outliner

/-- The class of a failure. -/
inductive Fault where
  /-- The snapshot's root cannot be tied to the document's root item. -/
  | invalidRoot (clientId : String)
  /-- The snapshot is deeper or larger than the limits allow. -/
  | tooLarge
  /-- The request is malformed. -/
  | validation
  /-- A document, item, style, category or session does not exist. -/
  | notFound
  /-- The caller is not logged in. -/
  | unauthorized
  /-- The caller may not do this to this document. -/
  | forbidden
  /-- The thing to create exists already; `detail` is the conflict's own message. -/
  | conflict (detail resourceType resourceId : String)
  /-- The thing to create exists already, with nothing said of it. -/
  | alreadyExists
  /-- Storage failed. -/
  | storage
  deriving Repr, BEq, DecidableEq, Inhabited

/-- A failure: its class and its text. -/
structure Failure where
  fault : Fault
  text : String
  deriving Repr, BEq, DecidableEq, Inhabited

/-- The conditions a failure can be tested for; one failure may meet several. -/
inductive Sentinel where
  | invalidRoot
  | tooLarge
  | validation
  | notFound
  | unauthorized
  | forbidden
  | conflict
  deriving Repr, BEq, DecidableEq

namespace Fault

/-- Whether a failure of this class meets a condition: an invalid root and a too large outline
are also validation failures. -/
def meets : Fault → Sentinel → Bool
  | .invalidRoot _, .invalidRoot => true
  | .invalidRoot _, .validation => true
  | .tooLarge, .tooLarge => true
  | .tooLarge, .validation => true
  | .validation, .validation => true
  | .notFound, .notFound => true
  | .unauthorized, .unauthorized => true
  | .forbidden, .forbidden => true
  | .conflict .., .conflict => true
  | .alreadyExists, .conflict => true
  | _, _ => false

end Fault

namespace Failure

def sentinelText : Sentinel → String
  | .invalidRoot => "invalid root item"
  | .tooLarge => "outline too large"
  | .validation => "validation failed"
  | .notFound => "not found"
  | .unauthorized => "not logged in"
  | .forbidden => "insufficient permissions"
  | .conflict => "already exists"

def wrap (step : String) (f : Failure) : Failure := { f with text := step ++ ": " ++ f.text }

def notFound (what : String) : Failure := ⟨.notFound, what ++ ": not found"⟩

def unauthorized : Failure := ⟨.unauthorized, "not logged in"⟩

def unauthorizedTo (step : String) : Failure := ⟨.unauthorized, step ++ ": not logged in"⟩

def forbiddenTo (step : String) : Failure := ⟨.forbidden, step ++ ": insufficient permissions"⟩

def invalid (detail : String) : Failure := ⟨.validation, "validation failed: " ++ detail⟩

def storage (text : String) : Failure := ⟨.storage, text⟩

def invalidRoot (doc clientId reason : String) : Failure :=
  ⟨.invalidRoot clientId, "document " ++ doc ++ ": root " ++ Text.quoted clientId ++ " " ++ reason⟩

def meets (f : Failure) (s : Sentinel) : Bool := f.fault.meets s

end Failure

/-- The outcome of an operation. -/
abbrev Outcome (α : Type) := Except Failure α

def Failure.during {m : Type → Type} [Monad m] [MonadExceptOf Failure m] {α : Type}
    (step : String) (x : m α) : m α :=
  tryCatchThe Failure x (fun f => throw (f.wrap step))

def Failure.raise {m : Type → Type} [MonadExceptOf Failure m] {α : Type} (f : Failure) : m α :=
  throwThe Failure f

end Outliner
