import Outliner.Relational.Client
import Outliner.Time.Duration
import Outliner.Net.Url
/-!
# Connecting

A connection string is a `postgres://` URL or a list of `key=value` settings. It names the user, the
database, the host (a socket directory) and the port, and may choose how statements are sent
(`default_query_exec_mode`) and set the pool's bounds (`pool_*`).
-/

set_option autoImplicit false

namespace Outliner.Relational

/-- What a connection string says. -/
structure ConnConfig where
  user : String
  database : String
  host : String
  port : Nat
  mode : ExecMode
  deriving Repr, Inhabited

def intSyntax (s : String) : String := "strconv.ParseInt: parsing " ++ Text.quoted s ++ ": invalid syntax"

/-- A signed decimal integer of at most `bits` bits, or why not. -/
def parseBoundedInt (s : String) (bits : Nat) : Except String Int :=
  let (neg, ds) := match s.toList with
    | '-' :: r => (true, r)
    | '+' :: r => (false, r)
    | r => (false, r)
  if ds.isEmpty || !ds.all Char.isDigit then .error (intSyntax s)
  else
    let n : Nat := ds.foldl (fun n d => 10 * n + (d.toNat - 48)) 0
    let limit : Nat := Nat.pow 2 (bits - 1)
    if (neg && n > limit) || (!neg && n ≥ limit) then
      .error ("strconv.ParseInt: parsing " ++ Text.quoted s ++ ": value out of range")
    else .ok (if neg then -(n : Int) else n)

def parsePort (s : String) : Except String Nat :=
  let ds := s.toList
  if ds.isEmpty || !ds.all Char.isDigit then .error ("strconv.ParseUint: parsing " ++ Text.quoted s ++ ": invalid syntax")
  else
    let n := ds.foldl (fun n d => 10 * n + (d.toNat - 48)) 0
    if n ≥ 65536 then .error ("strconv.ParseUint: parsing " ++ Text.quoted s ++ ": value out of range")
    else if n < 1 then .error "outside range"
    else .ok n

/-- The settings of a `key=value` string, or why it does not read. -/
def keywordSettings (s : String) : Except String (List (String × String)) :=
  let rec go : Nat → List Char → List (String × String) → Except String (List (String × String))
    | 0, _, acc => .ok acc
    | fuel + 1, cs, acc =>
      let cs := cs.dropWhile (· = ' ')
      if cs.isEmpty then .ok acc
      else
        let key := cs.takeWhile fun c => c != '=' && c != ' '
        let rest := (cs.drop key.length).dropWhile (· = ' ')
        match rest with
        | '=' :: more =>
          let more := more.dropWhile (· = ' ')
          match more with
          | '\'' :: q =>
            let v := q.takeWhile (· != '\'')
            if v.length = q.length then .error "unterminated quoted string in connection info string"
            else go fuel (q.drop (v.length + 1)) (acc ++ [(String.ofList key, String.ofList v)])
          | _ =>
            let v := more.takeWhile (· != ' ')
            go fuel (more.drop v.length) (acc ++ [(String.ofList key, String.ofList v)])
        | _ => .error "invalid keyword/value"
  go (s.length + 1) s.toList []

/-- The settings of a URL string, or why it does not read. -/
def urlSettings (s : String) : Except String (List (String × String)) := do
  let u ← (Net.Url.parse s).mapError fun e =>
    match e.splitOn "\": " with
    | _ :: rest => "\": ".intercalate rest
    | [] => e
  let userPart := match u.user with
    | some (name, _) => [("user", name)]
    | none => []
  let hostPart := if u.host.isEmpty then [] else
    match (u.host.splitOn ":") with
    | [h, p] => [("host", h), ("port", p)]
    | _ => [("host", u.host)]
  let db := String.ofList (u.path.toList.dropWhile (· = '/'))
  let dbPart := if db.isEmpty then [] else [("database", db)]
  let pairs := Net.queryPairs u.rawQuery
  let query := (pairs.foldl (fun (acc : List (String × String)) (k, v) =>
      if acc.any (·.1 == k) then acc else acc ++ [(k, v)]) []).map fun (k, v) =>
    (if k == "dbname" then "database" else k, v)
  pure (userPart ++ hostPart ++ dbPart ++ query)

/-- The connection string with its password hidden. -/
def redacted (s : String) : String :=
  if s.startsWith "postgres://" || s.startsWith "postgresql://" then
    match s.splitOn "@" with
    | before :: after :: more =>
      match before.splitOn "://" with
      | [scheme, info] =>
        match info.splitOn ":" with
        | name :: _ :: _ => "@".intercalate ((scheme ++ "://" ++ name ++ ":xxxxx") :: after :: more)
        | _ => s
      | _ => s
    | _ => s
  else s

def badConnString (s msg : String) (cause : Option String) : String :=
  "cannot parse `" ++ redacted s ++ "`: " ++ msg ++ (cause.map fun c => " (" ++ c ++ ")").getD ""

def setting (settings : List (String × String)) (k : String) : Option String :=
  (settings.filter (·.1 == k)).getLast?.map (·.2)

def modeOf : String → Option ExecMode
  | "cache_statement" => some .cacheStatement
  | "cache_describe" => some .cacheDescribe
  | "describe_exec" => some .describeExec
  | "exec" => some .exec
  | "simple_protocol" => some .simpleProtocol
  | _ => none

/-- Reads a connection string. -/
def parseConnString (s : String) : Except String ConnConfig := do
  let isUrl := s.startsWith "postgres://" || s.startsWith "postgresql://"
  let settings ← if isUrl then (urlSettings s).mapError fun e => badConnString s "failed to parse as URL" (some e)
    else (keywordSettings s).mapError fun e => badConnString s "failed to parse as keyword/value" (some e)
  let get (k : String) : Option String := setting settings k
  if let some t := get "connect_timeout" then
    match parseBoundedInt t 64 with
    | .error e => throw (badConnString s "invalid connect_timeout" (some e))
    | .ok n => if n < 0 then throw (badConnString s "invalid connect_timeout" (some "negative timeout"))
  let host := (get "host").getD "/tmp"
  let port ← match get "port" with
    | some p => (parsePort p).mapError fun e => badConnString s "invalid port" (some e)
    | none => pure 5432
  if !host.startsWith "/" then
    if let some m := get "sslmode" then
      if !(["disable", "allow", "prefer", "require", "verify-ca", "verify-full"].contains m) then
        throw (badConnString s "failed to configure TLS" (some "sslmode is invalid"))
  for k in ["statement_cache_capacity", "description_cache_capacity"] do
    if let some v := get k then
      if let .error e := parseBoundedInt v 32 then throw ("cannot parse " ++ k ++ ": " ++ e)
  let mode ← match get "default_query_exec_mode" with
    | none => pure ExecMode.cacheStatement
    | some m => match modeOf m with
      | some md => pure md
      | none => throw ("invalid default_query_exec_mode: " ++ m)
  if let some v := get "pool_max_conns" then
    match parseBoundedInt v 32 with
    | .error e => throw (badConnString s "cannot parse pool_max_conns" (some e))
    | .ok n => if n < 1 then throw (badConnString s "pool_max_conns too small" none)
  for k in ["pool_min_conns", "pool_min_idle_conns"] do
    if let some v := get k then
      if let .error e := parseBoundedInt v 32 then throw (badConnString s ("cannot parse " ++ k) (some e))
  for k in ["pool_max_conn_lifetime", "pool_max_conn_idle_time", "pool_health_check_period",
      "pool_max_conn_lifetime_jitter"] do
    if let some v := get k then
      if let some e := Time.durationFault v then throw (badConnString s ("invalid " ++ k) (some e))
  let user := (get "user").getD ""
  pure ⟨user, (get "database").getD "", host, port, mode⟩

def connectFailure (c : ConnConfig) (cause : String) : String :=
  let addr := c.host ++ "/.s.PGSQL." ++ toString c.port
  "failed to connect to `user=" ++ c.user ++ " database=" ++ c.database ++ "`: " ++ addr ++ " (" ++ c.host ++ "): " ++ cause

/-- Opens a connection to a server listening in `socketDir`: the mode it uses, or why not. -/
def openConnection (socketDir : String) (c : ConnConfig) : DbM (Except String ExecMode) := do
  if c.host != socketDir || (c.port != 5432 && c.port != 6543) then
    let addr := c.host ++ "/.s.PGSQL." ++ toString c.port
    return .error (connectFailure c ("dial error: dial unix " ++ addr ++ ": connect: no such file or directory"))
  match (← get).server.reject with
  | some e => pure (.error (connectFailure c ("server error: " ++ e.text)))
  | none =>
    let conn : Connection := ⟨c.mode, []⟩
    modify fun db => { db with connection := some conn, inTx := false, server := { db.server with status := .idle } }
    pure (.ok c.mode)

def poolerPort : Nat := 5432 + 1111

def ConnConfig.forPort (c : ConnConfig) : ConnConfig :=
  if c.port = poolerPort && c.mode == .cacheStatement then { c with mode := .cacheDescribe } else c

/-- How opening a pool went: whether the port changed the mode, and the mode or the failure. -/
structure PoolOpening where
  switched : Bool
  result : Except String ExecMode
  deriving Repr, Inhabited

def createPool (socketDir url : String) : DbM PoolOpening := do
  match parseConnString url with
  | .error e => pure ⟨false, .error ("parse connection string: " ++ e)⟩
  | .ok c =>
    let c' := c.forPort
    match ← openConnection socketDir c' with
    | .error e => pure ⟨c'.mode != c.mode, .error ("ping database: " ++ e)⟩
    | .ok m => pure ⟨c'.mode != c.mode, .ok m⟩

end Outliner.Relational
