import Outliner.Log.Record
import Outliner.Log.Folder
import Outliner.Relational.Store
import Outliner.Relational.Connect
import Outliner.KeyValue.Server
import Outliner.Session.Address
/-!
# Running a program

A program runs against a machine: the database server and the socket folder it listens in, the
session server and its socket if one runs, the place its log folder would go, and the clock. It
writes lines as it goes and may stop with an exit code.
-/

set_option autoImplicit false

namespace Outliner.Program

/-- A line a program writes. -/
inductive Line where
  /-- A record on standard output. -/
  | record (r : Log.LogRecord)
  /-- A message on standard error, written after the time. -/
  | logged (text : String)
  /-- Text on standard error as it is. -/
  | plain (text : String)
  deriving Repr, Inhabited

/-- How a program was started: its name, its arguments, its environment, and the text of the
environment file in its folder, if there is one. -/
structure Invocation where
  program : String
  args : List String
  env : Environment
  envFile : Option String
  deriving Repr, Inhabited

/-- The machine a program runs on. -/
structure Machine where
  db : Relational.Database
  /-- The folder the database server's sockets are in. -/
  dbSocketDir : String
  /-- The session server and the socket it listens on, if one runs. -/
  keyValue : Option (String × KeyValue.Server)
  /-- Where the log folder would go. -/
  logPlace : Log.Place
  now : Time.Instant
  /-- Whether plain messages go to the record logger. -/
  redirected : Bool
  lines : List Line
  deriving Repr, Inhabited

/-- Program steps; a program stops with its exit code. -/
abbrev ProgramM := ExceptT Nat (StateM Machine)

def write (l : Line) : ProgramM Unit := modify fun m => { m with lines := m.lines ++ [l] }

def say (msg : String) : ProgramM Unit := do
  if (← get).redirected then write (.record ⟨.info, msg, []⟩) else write (.logged msg)

def fatal {α : Type} (msg : String) : ProgramM α := do
  say msg
  throw 1

def log (least : Log.Level) (level : Log.Level) (msg : String) (attrs : List (String × Json)) :
    ProgramM Unit :=
  if least.keeps level then write (.record ⟨level, msg, attrs⟩) else pure ()

def onDb {α : Type} (x : Relational.DbM α) : ProgramM α :=
  modifyGet fun m => let (a, db) := x.run m.db; (a, { m with db })

def store {α : Type} (x : Relational.StoreM α) : ProgramM (Except Failure α) := onDb x.run

/-- Connects to the session store a URL names and checks it with a ping. -/
def connectSessions (url : String) : ProgramM (Except String Unit) := do
  match Session.parseAddress url with
  | .error e => pure (.error ("parse redis url: " ++ e))
  | .ok (.tcp h p) => pure (.error ("connect to redis: dial tcp " ++ h ++ ":" ++ p ++ ": connect: connection refused"))
  | .ok (.unix path) =>
    match (← get).keyValue with
    | some (sock, srv) =>
      if sock == path then
        if srv.outage.isEmpty then pure (.ok ()) else pure (.error ("connect to redis: " ++ srv.outage))
      else pure (.error ("connect to redis: dial unix " ++ path ++ ": connect: no such file or directory"))
    | none => pure (.error ("connect to redis: dial unix " ++ path ++ ": connect: no such file or directory"))

end Outliner.Program
