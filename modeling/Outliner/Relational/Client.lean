import Outliner.Relational.Server
/-!
# The database client

How the client talks to the server in each of its five modes, and where a failure surfaces.
-/

set_option autoImplicit false

namespace Outliner.Relational

/-- How statements are sent. -/
inductive ExecMode where
  | cacheStatement
  | cacheDescribe
  | describeExec
  | exec
  | simpleProtocol
  deriving Repr, BEq, DecidableEq, Inhabited

def ExecMode.name : ExecMode → String
  | .cacheStatement => "cache statement"
  | .cacheDescribe => "cache describe"
  | .describeExec => "describe exec"
  | .exec => "exec"
  | .simpleProtocol => "simple protocol"

/-- A connection: its mode and the statements prepared or described on it. -/
structure Connection where
  mode : ExecMode
  cached : List String
  deriving Repr, Inhabited

/-- The server and the client's connection to it, if connected. -/
structure Database where
  server : Server
  connection : Option Connection
  /-- Whether the caller is inside a transaction it began. -/
  inTx : Bool
  deriving Repr, Inhabited

/-- Client steps. -/
abbrev DbM := StateM Database

/-- What a query gives: its result columns, its rows, and the failure that ended the rows. -/
structure Rows where
  columns : List String
  rows : List (List Json)
  error : Option DbError
  deriving Repr, Inhabited

def currentMode : DbM ExecMode := do
  pure (((← get).connection.map (·.mode)).getD .cacheStatement)

def prepareOn (sql : String) : DbM (Option ServerError) := do
  let db ← get
  let (server, err) := db.server.parse sql
  set { db with server := server }
  pure err

def executeOn (sql : String) (params : List Param) : DbM Reply := do
  let db ← get
  let (server, reply) := db.server.execute sql params
  set { db with server := server }
  pure reply

def isCached (sql : String) : DbM Bool := do
  pure ((((← get).connection.map (·.cached)).getD []).contains sql)

def cache (sql : String) : DbM Unit :=
  modify fun db => { db with connection := db.connection.map fun c => { c with cached := c.cached ++ [sql] } }

def quoteLiteral (s : String) : String := "'" ++ "''".intercalate (s.splitOn "'") ++ "'"

def Param.literal : Param → String
  | .null => "null"
  | .text s => quoteLiteral s
  | .int n => quoteLiteral (toString n)
  | .bool b => quoteLiteral (if b then "t" else "f")
  | .time _ => quoteLiteral "<time>"

/-- A statement with its values written in for `$1`, `$2`, …, each between spaces. -/
def inline (sql : String) (params : List Param) : String :=
  let rec go : List Char → List Char → List Char
    | [], acc => acc
    | '$' :: rest, acc =>
      let ds := rest.takeWhile Char.isDigit
      if ds.isEmpty then go rest (acc ++ ['$'])
      else
        let k := ds.foldl (fun n d => 10 * n + (d.toNat - 48)) 0
        let lit := match params[k - 1]? with
          | some p => " " ++ p.literal ++ " "
          | none => "$" ++ String.ofList ds
        go (rest.drop ds.length) (acc ++ lit.toList)
    | c :: rest, acc => go rest (acc ++ [c])
  termination_by cs => cs.length
  decreasing_by all_goals simp only [List.length_drop, List.length_cons]; omega
  String.ofList (go sql.toList [])

/-- Prepares or describes a statement ahead of execution, as the mode asks; a failure here is
the statement's own failure. -/
def ahead (mode : ExecMode) (sql : String) : DbM (Option ServerError) := do
  match mode with
  | .cacheStatement | .cacheDescribe =>
    if ← isCached sql then pure none
    else
      let err ← prepareOn sql
      if err.isNone then cache sql
      pure err
  | .describeExec => prepareOn sql
  | _ => pure none

def send (mode : ExecMode) (sql : String) (params : List Param) : DbM (Except ServerError Reply) := do
  match mode with
  | .cacheDescribe | .exec =>
    match ← prepareOn sql with
    | some e => pure (.error e)
    | none => pure (.ok (← executeOn sql params))
  | _ => pure (.ok (← executeOn sql params))

/-- Runs a query and answers its rows; a failure before any result is the query's own. -/
def query (sql : String) (params : List Param) : DbM (Except DbError Rows) := do
  let sql := normalize sql
  let mode ← currentMode
  if mode == .simpleProtocol then
    let r ← executeOn (normalize (inline sql params)) []
    match r.outcome with
    | .error e => if r.columns.isEmpty then pure (.error (.server [] e)) else pure (.ok ⟨r.columns, r.rows, some (.server [] e)⟩)
    | .ok _ => pure (.ok ⟨r.columns, r.rows, none⟩)
  else
    match ← ahead mode sql with
    | some e => pure (.error (.server [] e))
    | none =>
      match ← send mode sql params with
      | .error e => pure (.ok ⟨resultColumns sql, [], some (.server [] e)⟩)
      | .ok r =>
        match r.outcome with
        | .error e => pure (.ok ⟨r.columns, r.rows, some (.server [] e)⟩)
        | .ok _ => pure (.ok ⟨r.columns, r.rows, none⟩)

/-- Runs a statement for its completion tag; every failure is its own. -/
def execTag (sql : String) (params : List Param) : DbM (Except DbError String) := do
  let sql := normalize sql
  let mode ← currentMode
  if params.isEmpty || mode == .simpleProtocol then
    let r ← executeOn (normalize (inline sql params)) []
    pure (match r.outcome with
      | .error e => .error (.server [] e)
      | .ok tag => .ok tag)
  else
    match ← ahead mode sql with
    | some e => pure (.error (.server [] e))
    | none =>
      match ← send mode sql params with
      | .error e => pure (.error (.server [] e))
      | .ok r =>
        pure (match r.outcome with
          | .error e => .error (.server [] e)
          | .ok tag => .ok tag)

def exec (sql : String) (params : List Param) : DbM (Except DbError Nat) := do
  pure ((← execTag sql params).map rowsAffected)

def reconnect : DbM Unit :=
  modify fun db => { db with
    connection := db.connection.map fun c => { c with cached := [] },
    server := { db.server with status := .idle } }

def beginTx : DbM (Except DbError Unit) := do
  pure ((← execTag "begin" []).map fun _ => ())

def commitTx : DbM (Except DbError Unit) := do
  match ← execTag "commit" [] with
  | .ok "ROLLBACK" => pure (.error (.other "commit unexpectedly resulted in rollback"))
  | .ok _ => pure (.ok ())
  | .error e =>
    if (← get).server.status != .idle then reconnect
    pure (.error e)

def rollbackTx : DbM Unit := do
  match ← execTag "rollback" [] with
  | .ok _ => pure ()
  | .error _ => reconnect

end Outliner.Relational
