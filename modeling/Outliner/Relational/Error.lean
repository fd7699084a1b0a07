import Outliner.Failure
/-!
# Database errors

What the database client reports, and how the repositories turn it into a `Failure`: a missing row,
or an id the database cannot read as a uuid (SQLSTATE 22P02), is "not found"; a duplicate key
(23505) is a conflict on the resource; a missing referenced row (23503) is a validation failure;
anything else is a storage failure, prefixed by the operation.
-/

set_option autoImplicit false

namespace Outliner.Relational

/-- An error reported by the database server. -/
structure ServerError where
  severity : String
  code : String
  message : String
  deriving Repr, BEq, Inhabited

def ServerError.text (e : ServerError) : String :=
  e.severity ++ ": " ++ e.message ++ " (SQLSTATE " ++ e.code ++ ")"

/-- An error of the database client, with the steps it was wrapped in. -/
inductive DbError where
  /-- A query that must give a row gave none. -/
  | noRows (context : List String)
  /-- The server answered with an error. -/
  | server (context : List String) (e : ServerError)
  /-- Anything else, with its text. -/
  | other (text : String)
  deriving Repr, BEq, Inhabited

namespace DbError

def withContext (context : List String) (t : String) : String :=
  String.join (context.map (· ++ ": ")) ++ t

def text : DbError → String
  | noRows c => withContext c "no rows in result set"
  | server c e => withContext c e.text
  | other t => t

def code : DbError → String
  | server _ e => e.code
  | _ => ""

def wrap (step : String) : DbError → DbError
  | noRows c => noRows (step :: c)
  | server c e => server (step :: c) e
  | other t => other (step ++ ": " ++ t)

/-- The failure a repository reports for an error of operation `op` on the `resource` with
the given id. -/
def translate (e : DbError) (op resource id : String) : Failure :=
  match e with
  | noRows _ => Failure.notFound (resource ++ " " ++ id)
  | _ =>
    if e.code = "22P02" then Failure.notFound (resource ++ " " ++ id)
    else if e.code = "23505" then
      let m := resource ++ " " ++ id ++ " already exists"
      ⟨.conflict m resource id, m⟩
    else if e.code = "23503" then
      ⟨.validation, op ++ ": " ++ resource ++ " " ++ id ++ " references a missing row: validation failed"⟩
    else Failure.storage (op ++ ": " ++ e.text)

end DbError

end Outliner.Relational
