import Outliner.Relational.Sql
import Outliner.Relational.Error
import Outliner.Json.Value
import Outliner.Text.Quoted
import Outliner.Time.Instant
/-!
# A scripted database server

The server answers statements from a script. Each executed statement is recorded with the values it
was given. The first script entry whose text occurs in the statement answers it and is used up (an
entry may answer several times): its rows come first, then its error or its completion tag.
-/

set_option autoImplicit false

namespace Outliner.Relational

/-- A value sent with a statement. -/
inductive Param where
  | null
  /-- Sent as text. -/
  | text (s : String)
  | int (n : Int)
  | bool (b : Bool)
  /-- A time; it is recorded without its value. -/
  | time (t : Time.Instant)
  deriving Repr, BEq, Inhabited

def Param.toJson : Param → Json
  | .null => .null
  | .text s => .str s
  | .int n => Json.int n
  | .bool b => .bool b
  | .time _ => .str "<time>"

/-- A script entry. -/
structure Entry where
  /-- The text that must occur in the statement. -/
  pattern : String
  rows : List (List Json)
  tag : Option String
  error : Option ServerError
  /-- How many more statements it answers. -/
  times : Nat
  /-- Whether it answers preparation instead of execution. -/
  atParse : Bool
  deriving Repr, Inhabited

/-- A recorded statement. -/
structure Record where
  sql : String
  args : List Param
  /-- Whether it failed being prepared. -/
  atParse : Bool
  deriving Repr, Inhabited

def Record.toJson (r : Record) : Json :=
  .obj ([("sql", .str r.sql)] ++ (if r.args.isEmpty then [] else [("args", .arr (r.args.map Param.toJson))]) ++
    (if r.atParse then [("at", .str "parse")] else []))

/-- Where a connection stands with respect to transactions. -/
inductive TxStatus where
  | idle
  | open_
  | failed
  deriving Repr, BEq, Inhabited

/-- The server. -/
structure Server where
  script : List Entry
  status : TxStatus
  /-- Ids handed out so far. -/
  issued : Nat
  /-- The error every new connection gets, if any. -/
  reject : Option ServerError
  records : List Record
  deriving Repr, Inhabited

/-- What a statement came to: result columns, rows, and an error or a completion tag. -/
structure Reply where
  columns : List String
  rows : List (List Json)
  outcome : Except ServerError String
  deriving Repr, Inhabited

def serverError (code message : String) : ServerError := ⟨"ERROR", code, message⟩

def abortedError : ServerError :=
  serverError "25P02" "current transaction is aborted, commands ignored until end of transaction block"

def serverId (n : Nat) : String := "00000000-0000-4000-9000-" ++ Text.hexPadded 12 n

namespace Server

def fresh (script : List Entry) (reject : Option ServerError) : Server := ⟨script, .idle, 0, reject, []⟩

def take (s : Server) (sql : String) (parse : Bool) : Server × Option Entry :=
  let fits (e : Entry) : Bool := e.atParse == parse && e.times > 0 && (sql.splitOn e.pattern).length > 1
  match s.script.findIdx? fits with
  | none => (s, none)
  | some i =>
    let e := s.script.getD i default
    ({ s with script := s.script.set i { e with times := e.times - 1 } }, some e)

def afterError (s : Server) : Server :=
  if s.status == TxStatus.open_ then { s with status := .failed } else s

def parse (s : Server) (sql : String) : Server × Option ServerError :=
  match s.take sql true with
  | (s', some e) =>
    let err := e.error.getD (serverError "42601" "syntax error")
    ((afterError { s' with records := s'.records ++ [⟨sql, [], true⟩] }), some err)
  | (s', none) => (s', none)

def freshValue (s : Server) (col : String) : Server × Json :=
  match columnType col with
  | .uuid => ({ s with issued := s.issued + 1 }, .str (serverId (s.issued + 1)))
  | .int4 => (s, Json.int 0)
  | .bool => (s, .bool false)
  | .timestamptz => (s, .str "2001-02-03T04:05:06Z")
  | .text => (s, .str "")

def freshRow (s : Server) (cols : List String) : Server × List Json :=
  cols.foldl (fun (acc : Server × List Json) c => let (s', v) := acc.1.freshValue c; (s', acc.2 ++ [v])) (s, [])

def badUuid (sql : String) (params : List Param) : Option String :=
  (params.zipIdx.findSome? fun (p, i) =>
    match p with
    | .text v => if paramType sql (i + 1) == .uuid && !uuidTextValid v then some v else none
    | _ => none)

def statusAfter (sql : String) (st : TxStatus) : TxStatus :=
  match (normalize sql).toLower with
  | "begin" => .open_
  | "commit" | "rollback" => .idle
  | _ => st

/-- Executes a statement with its parameters. -/
def execute (s : Server) (sql : String) (params : List Param) : Server × Reply :=
  let s : Server := { s with records := s.records ++ [(⟨sql, params, false⟩ : Record)] }
  let cols := resultColumns sql
  let lower := sql.toLower
  let ending := lower == "commit" || lower == "rollback"
  if s.status == TxStatus.failed && !ending then (s.afterError, ⟨cols, [], .error abortedError⟩)
  else match badUuid sql params with
    | some v =>
      (s.afterError, ⟨cols, [], .error (serverError "22P02" ("invalid input syntax for type uuid: \"" ++ v ++ "\""))⟩)
    | none =>
      match s.take sql false with
      | (s', some e) =>
        match e.error with
        | some err => (s'.afterError, ⟨cols, e.rows, .error err⟩)
        | none =>
          let tag := e.tag.getD (defaultTag sql e.rows.length)
          ({ s' with status := statusAfter sql s'.status }, ⟨cols, e.rows, .ok tag⟩)
      | (s', none) =>
        if lower == "commit" && s'.status == TxStatus.failed then ({ s' with status := .idle }, ⟨cols, [], .ok "ROLLBACK"⟩)
        else if (sql.splitOn " RETURNING ").length > 1 then
          let (s'', row) := s'.freshRow cols
          ({ s'' with status := statusAfter sql s''.status }, ⟨cols, [row], .ok (defaultTag sql 1)⟩)
        else if sql.startsWith "SELECT EXISTS" then
          ({ s' with status := statusAfter sql s'.status }, ⟨cols, [[.bool false]], .ok (defaultTag sql 1)⟩)
        else ({ s' with status := statusAfter sql s'.status }, ⟨cols, [], .ok (defaultTag sql 0)⟩)

end Server

end Outliner.Relational
