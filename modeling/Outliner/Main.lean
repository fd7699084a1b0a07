import Outliner.Program.Seed
import Outliner.Program.Server
/-!
# The command line

`outliner seed [flags]` seeds sample documents and `outliner server` starts the server, each reading
its settings from this process's environment and from a `.env` file in the working folder.
-/

open Outliner

def programVariables : List String :=
  ["ENVIRONMENT", "PORT", "DATABASE_URL", "REDIS_URL", "AUTH_JWKS_URL", "CORS_ORIGINS", "TABLE_PREFIX",
   "MAX_TREE_DEPTH", "MAX_TREE_NODES", "SESSION_KEEP", "LOG_DIR", "LOG_MAX_FILES", "AUTO_MIGRATE", "DEBUG"]

def commandMachine : Program.Machine :=
  ⟨⟨Relational.Server.fresh [] none, none, false⟩, "", none, .ready [], ⟨0, 0, 0⟩, false, []⟩

def emit (l : Program.Line) : IO Unit :=
  match l with
  | .record r => do
    IO.println (Json.write r.toJson)
    (← IO.getStdout).flush
  | .logged t => IO.eprintln t
  | .plain t => IO.eprint t

/-- Runs the program the first argument names. -/
def main (args : List String) : IO UInt32 := do
  let env ← programVariables.filterMapM fun k => do
    return (← IO.getEnv k).map fun v => (k, v)
  let envFile ← try some <$> IO.FS.readFile ".env" catch _ => pure none
  let (program, run) ← match args with
    | "seed" :: _ => pure ("seed", Program.Seed.run)
    | "server" :: _ => pure ("server", Program.Server.run)
    | _ =>
      IO.eprintln "usage: outliner seed [flags] | outliner server"
      return 2
  let inv : Program.Invocation := ⟨program, args.drop 1, env, envFile⟩
  let (r, m) := (run inv).run.run commandMachine
  for l in m.lines do emit l
  return match r with
    | .ok () => 0
    | .error n => n.toUInt32
