import Outliner.Relational.Store
import Outliner.Relational.Schema
/-!
# Applying and rolling back migrations

The versions applied are kept in the table `<prefix>schema_migrations`, created first if missing.
Applying runs, in version order, each migration not yet recorded, together with its record, in a
transaction of its own; it stops at the first failure and reports the versions applied before it.
-/

set_option autoImplicit false

namespace Outliner.Relational

def inTransaction (body : DbM (Except String Unit)) : DbM (Except String Unit) := do
  match ← beginTx with
  | .error e => pure (.error e.text)
  | .ok () =>
    match ← body with
    | .error e =>
      rollbackTx
      pure (.error e)
    | .ok () => pure ((← commitTx).mapError (·.text))

def versionTable (pre : String) : String := pre ++ "schema_migrations"

def ensureVersionTable (table : String) : DbM (Except String Unit) := do
  let sql := "CREATE TABLE IF NOT EXISTS " ++ table ++ " ( version TEXT PRIMARY KEY, applied_at TIMESTAMPTZ NOT NULL DEFAULT NOW() )"
  pure (((← execTag sql []).map fun _ => ()).mapError fun e => "ensure " ++ table ++ ": " ++ e.text)

def isApplied (table version : String) : DbM (Except String Bool) := do
  let r ← queryRow ("SELECT EXISTS(SELECT 1 FROM " ++ table ++ " WHERE version = $1)") [.text version]
    fun cs => match (cell cs 0).2.2 with
      | .bool b => .ok b
      | _ => .error (scanFailure 0 "exists" "cannot scan NULL into *bool")
  pure (r.mapError fun e => "check migration " ++ version ++ ": " ++ e.text)

def scriptThen (script : String) (scriptStep : String) (sql : String) (version stmtStep : String) :
    DbM (Except String Unit) := do
  match ← execTag script [] with
  | .error e => pure (.error (scriptStep ++ " " ++ version ++ ": " ++ e.text))
  | .ok _ =>
    match ← execTag sql [.text version] with
    | .error e => pure (.error (stmtStep ++ " " ++ version ++ ": " ++ e.text))
    | .ok _ => pure (.ok ())

/-- Applies the migrations not yet recorded: the versions applied, and the failure that
stopped it, if any. -/
def applyMigrations (pre : String) : DbM (List String × Option String) := do
  let table := versionTable pre
  match ← ensureVersionTable table with
  | .error e => pure ([], some e)
  | .ok () =>
    let step (acc : List String × Option String) (m : Migration) : DbM (List String × Option String) := do
      if acc.2.isSome then return acc
      match ← isApplied table m.version with
      | .error e => pure (acc.1, some e)
      | .ok true => pure acc
      | .ok false =>
        match ← inTransaction (scriptThen m.up "execute migration"
            ("INSERT INTO " ++ table ++ " (version) VALUES ($1)") m.version "record migration") with
        | .error e => pure (acc.1, some e)
        | .ok () => pure (acc.1 ++ [m.version], none)
    (migrations pre).foldlM step ([], none)

/-- Rolls back the recorded migrations, newest first. -/
def rollbackMigrations (pre : String) : DbM (Option String) := do
  let table := versionTable pre
  match ← ensureVersionTable table with
  | .error e => pure (some e)
  | .ok () =>
    let step (acc : Option String) (m : Migration) : DbM (Option String) := do
      if acc.isSome then return acc
      match ← isApplied table m.version with
      | .error e => pure (some e)
      | .ok done =>
        if !done || m.down.isEmpty then pure none
        else
          match ← inTransaction (scriptThen m.down "rollback migration"
              ("DELETE FROM " ++ table ++ " WHERE version = $1") m.version "unrecord migration") with
          | .error e => pure (some e)
          | .ok () => pure none
    (migrations pre).reverse.foldlM step none

end Outliner.Relational
