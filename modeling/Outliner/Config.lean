import Outliner.Reconcile.Plan
import Outliner.Log.Record
/-!
# Settings

The programs take their settings from environment variables. A variable with an empty value counts
as unset, and an unset variable takes its default. Numbers are signed decimal integers of at most 64
bits, with an optional `+` or `-` and no blanks; anything else falls back to the default.
-/

set_option autoImplicit false

namespace Outliner

/-- Environment variables, each with its value; a variable can be set to the empty text. -/
abbrev Environment := List (String × String)

namespace Environment

def lookup? (env : Environment) (k : String) : Option String := (env.find? (·.1 == k)).map (·.2)

def isSet (env : Environment) (k : String) : Bool := env.any (·.1 == k)

def get (env : Environment) (k : String) : String := (env.lookup? k).getD ""

def addMissing (env extra : Environment) : Environment :=
  extra.foldl (fun acc (k, v) => if acc.isSet k then acc else acc ++ [(k, v)]) env

end Environment

def decimalValue (ds : List Char) : Nat := ds.foldl (fun n c => 10 * n + (c.toNat - '0'.toNat)) 0

/-- A signed 64-bit decimal integer: an optional sign, then one digit or more. -/
def readInt64? (s : String) : Option Int :=
  let (neg, ds) := match s.toList with
    | '+' :: r => (false, r)
    | '-' :: r => (true, r)
    | r => (false, r)
  if ds.isEmpty || !ds.all Char.isDigit then none
  else
    let n : Int := decimalValue ds
    let v := if neg then -n else n
    if -9223372036854775808 ≤ v ∧ v ≤ 9223372036854775807 then some v else none

/-- The settings of a program run. -/
structure Config where
  port : String
  environment : String
  databaseUrl : String
  /-- The session store's address; empty disables login sessions. -/
  redisUrl : String
  jwksUrl : String
  corsOrigins : String
  tablePrefix : String
  maxTreeDepth : Int
  maxTreeNodes : Int
  /-- Sessions a user keeps before the oldest go; zero keeps all. -/
  sessionKeep : Int
  logDir : String
  logMaxFiles : Int
  autoMigrate : Bool
  debug : Bool
  deriving Repr, Inhabited

namespace Config

def text (env : Environment) (k dflt : String) : String :=
  match env.get k with
  | "" => dflt
  | v => v

def number (env : Environment) (k : String) (dflt : Int) : Int :=
  match env.get k with
  | "" => dflt
  | v => (readInt64? v).getD dflt

def onByDefault (environment : String) : String := if environment == "prod" then "false" else "true"

def prefixFor (env : Environment) (environment : String) : String :=
  match env.get "TABLE_PREFIX" with
  | "" =>
    match environment with
    | "prod" => "prod_"
    | "test" => "test_"
    | _ => "dev_"
  | p => p

/-- The settings an environment gives. -/
def load (env : Environment) : Config :=
  let environment := text env "ENVIRONMENT" "dev"
  { port := text env "PORT" "8080"
    environment
    databaseUrl := text env "DATABASE_URL" ""
    redisUrl := text env "REDIS_URL" ""
    jwksUrl := text env "AUTH_JWKS_URL" ""
    corsOrigins := text env "CORS_ORIGINS" "http://localhost:3000"
    tablePrefix := prefixFor env environment
    maxTreeDepth := number env "MAX_TREE_DEPTH" Limits.standard.maxDepth
    maxTreeNodes := number env "MAX_TREE_NODES" Limits.standard.maxNodes
    sessionKeep := number env "SESSION_KEEP" 5
    logDir := text env "LOG_DIR" ""
    logMaxFiles := number env "LOG_MAX_FILES" 10
    autoMigrate := text env "AUTO_MIGRATE" (onByDefault environment) == "true"
    debug := text env "DEBUG" (onByDefault environment) == "true" }

def logLevel (c : Config) : Log.Level := if c.environment == "dev" then .debug else .info

def limits (c : Config) : Limits := ⟨c.maxTreeDepth, c.maxTreeNodes⟩

end Config

end Outliner
