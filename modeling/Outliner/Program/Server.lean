import Outliner.Program.Machine
import Outliner.Config.EnvFile
import Outliner.Relational.Migrate
import Outliner.Auth.Token
import Outliner.Log.Folder
/-!
# Starting the server

The server program reads its settings, sets up its record logger (also writing to a fresh file in
the log folder when one is set), makes it the default, and then brings up in order the token
verifier, the database pool, the schema (when automatic migration is on) and the session store (when
one is configured), logging each step.
-/

set_option autoImplicit false

namespace Outliner.Program.Server

/-- Why fetching a URL fails on a machine without a network: schemes other than `http` and
`https` are not supported, and no host name resolves. -/
def fetchFailure (url : String) : String :=
  let scheme := match Net.Url.parse url with
    | .ok u => u.scheme
    | .error _ => ""
  if scheme == "http" || scheme == "https" then
    let host := match Net.Url.parse url with
      | .ok u => u.host
      | .error _ => ""
    "Get " ++ Text.quoted url ++ ": dial tcp: lookup " ++ host ++ ": no such host"
  else "Get " ++ Text.quoted url ++ ": unsupported protocol scheme " ++ Text.quoted scheme

def portNumber (p : String) : Option Int :=
  let (neg, ds) := match p.toList with
    | '+' :: r => (false, r)
    | '-' :: r => (true, r)
    | r => (false, r)
  if !ds.all Char.isDigit then none
  else
    let n : Int := min (decimalValue ds) 1073741824
    some (if neg then -n else n)

def listenFailure (port : String) : Option String :=
  match portNumber port with
  | some n => if n < 0 || n > 65535 then some ("listen tcp: address " ++ port ++ ": invalid port") else none
  | none =>
    let known := ["ftp", "ftps", "gopher", "http", "https", "imap2", "imap3", "imaps", "pop3", "pop3s",
      "smtp", "submissions", "ssh", "telnet"]
    if known.contains port.toLower then none
    else some ("listen tcp: lookup tcp/" ++ port ++ ": unknown port")

def setupLogging (cfg : Config) : ProgramM Log.Level := do
  if cfg.logDir != "" then
    let m ← get
    match Log.openLogFile cfg.logDir m.logPlace cfg.logMaxFiles m.now with
    | .error e => fatal ("Failed to set up logging: " ++ e)
    | .ok o =>
      if let some w := o.warning then write (.plain (w ++ "\n"))
  pure cfg.logLevel

/-- The server program. -/
def run (inv : Invocation) : ProgramM Unit := do
  let env := match inv.envFile with
    | some text => EnvFile.load inv.env text
    | none => inv.env
  let cfg := Config.load env
  let level ← setupLogging cfg
  modify fun m => { m with redirected := true }
  log level .info "server starting"
    [("environment", .str cfg.environment), ("port", .str cfg.port), ("table_prefix", .str cfg.tablePrefix)]
  if let .error f := Auth.newVerifier cfg.jwksUrl then fatal ("Failed to create JWT verifier: " ++ f.text)
  log level .error "Failed to refresh HTTP JWK Set from remote HTTP resource."
    [("error", .str ("failed to perform HTTP request for JWK Set refresh: " ++ fetchFailure cfg.jwksUrl)),
     ("url", .str cfg.jwksUrl)]
  log level .info "JWT verifier initialized" [("jwks_url", .str cfg.jwksUrl)]
  let opening ← onDb (Relational.createPool (← get).dbSocketDir cfg.databaseUrl)
  if opening.switched then
    log level .debug "auto-configured cache_describe mode for PgBouncer compatibility"
      [("port", Json.int Relational.poolerPort)]
  if let .error e := opening.result then fatal ("Failed to create connection pool: " ++ e)
  log level .info "database connected" [("max_conns", Json.int 25), ("min_conns", Json.int 5)]
  if cfg.autoMigrate then
    let (applied, err) ← onDb (Relational.applyMigrations cfg.tablePrefix)
    if let some e := err then fatal ("Failed to apply migrations: " ++ e)
    log level .info "migrations applied"
      [("count", Json.int applied.length), ("versions", .arr (applied.map .str))]
  if cfg.redisUrl != "" then
    if let .error e := ← connectSessions cfg.redisUrl then fatal ("Failed to connect to redis: " ++ e)
    log level .info "session store connected" [("keep", Json.int cfg.sessionKeep)]
  else
    log level .warn "REDIS_URL not set, session tracking disabled" []
  log level .info "services initialized"
    [("max_tree_depth", Json.int cfg.maxTreeDepth), ("max_tree_nodes", Json.int cfg.maxTreeNodes)]
  log level .info "server listening" [("port", .str cfg.port)]
  if let some e := listenFailure cfg.port then fatal ("Failed to start server: " ++ e)

end Outliner.Program.Server
