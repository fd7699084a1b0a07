import Outliner.Net.Url
import Outliner.Time.Duration
import Outliner.Config
/-!
# Session store addresses

The session store is named by a URL: `redis://` or `rediss://` with a host, a port and an optional
database number as the path, or `unix://` with the socket's path. Query options tune the client; the
database number may also come as `db`.
-/

set_option autoImplicit false

namespace Outliner.Session

/-- Where the session store listens. -/
inductive Address where
  /-- A host and port. -/
  | tcp (host port : String)
  /-- A socket path. -/
  | unix (path : String)
  deriving Repr, BEq, Inhabited

def intFault (s : String) : Option String :=
  let ds := match s.toList with
    | '+' :: r | '-' :: r => r
    | r => r
  if ds.isEmpty || !ds.all Char.isDigit then some ("strconv.Atoi: parsing " ++ Text.quoted s ++ ": invalid syntax")
  else if (readInt64? s).isNone then some ("strconv.Atoi: parsing " ++ Text.quoted s ++ ": value out of range")
  else none

/-- Reading the options: those not read yet, and the first failure. -/
structure Options where
  left : List (String × List String)
  fault : Option String
  deriving Repr, Inhabited

namespace Options

def ofQuery (q : String) : Options :=
  let add (acc : List (String × List String)) (kv : String × String) :=
    if acc.any (·.1 == kv.1) then acc.map fun e => if e.1 == kv.1 then (e.1, e.2 ++ [kv.2]) else e
    else acc ++ [(kv.1, [kv.2])]
  ⟨(Net.queryPairs q).foldl add [], none⟩

def has (o : Options) (k : String) : Bool := o.left.any (·.1 == k)

def take (o : Options) (k : String) : String × Options :=
  match o.left.find? (·.1 == k) with
  | some (_, vs) => (vs.getLastD "", { o with left := o.left.filter (·.1 != k) })
  | none => ("", o)

def fail (o : Options) (f : String) : Options := { o with fault := o.fault <|> some f }

def number (o : Options) (k : String) : Options :=
  let (v, o) := o.take k
  if v.isEmpty then o
  else match intFault v with
    | some f => o.fail ("redis: invalid " ++ k ++ " number: " ++ f)
    | none => o

def duration (o : Options) (k : String) : Options :=
  let (v, o) := o.take k
  if v.isEmpty || (intFault v).isNone then o
  else match Time.durationFault v with
    | some f => o.fail ("redis: invalid " ++ k ++ " duration: " ++ f)
    | none => o

def switch (o : Options) (k : String) : Options :=
  let (v, o) := o.take k
  if ["true", "1", "false", "0", ""].contains v then o
  else o.fail ("redis: invalid " ++ k ++ " boolean: expected true/false/1/0 or an empty string, got " ++
    Text.quoted v)

/-- Reads the options the client knows, in the order it reads them. -/
def readAll (o : Options) (secure : Bool) : Except String Unit :=
  let o := o.number "protocol"
  let o := (o.take "client_name").2
  let o := o.number "max_retries"
  let o := o.duration "min_retry_backoff"
  let o := o.duration "max_retry_backoff"
  let o := o.duration "dial_timeout"
  let o := o.duration "read_timeout"
  let o := o.duration "write_timeout"
  let o := o.switch "pool_fifo"
  let o := o.number "pool_size"
  let o := o.duration "pool_timeout"
  let o := o.number "min_idle_conns"
  let o := o.number "max_idle_conns"
  let o := o.number "max_active_conns"
  let o := if o.has "conn_max_idle_time" then o.duration "conn_max_idle_time" else o.duration "idle_timeout"
  let o := if o.has "conn_max_lifetime" then o.duration "conn_max_lifetime" else o.duration "max_conn_age"
  match o.fault with
  | some f => .error f
  | none =>
    let o := if secure && o.has "skip_verify" then o.switch "skip_verify" else o
    match o.fault with
    | some f => .error f
    | none =>
      let names := (o.left.map (·.1)).mergeSort (fun a b => decide (a ≤ b))
      if names.isEmpty then .ok () else .error ("redis: unexpected option: " ++ ", ".intercalate names)

end Options

def checkDb (o : Options) : Except String Options :=
  let (v, o) := o.take "db"
  if v.isEmpty then .ok o
  else match intFault v with
    | some f => .error ("redis: invalid database number: " ++ f)
    | none => .ok o

/-- The host and port of an authority, with the defaults `localhost` and `6379`. -/
def hostPort (host : String) : String × String :=
  let cs := host.toList
  if cs.head? == some '[' then
    match cs.findIdx? (· == ']') with
    | some i =>
      let h := String.ofList ((cs.take i).drop 1)
      let rest := cs.drop (i + 1)
      (if h.isEmpty then "localhost" else h, match rest with
        | ':' :: p => if p.isEmpty then "6379" else String.ofList p
        | _ => "6379")
    | none => (host, "6379")
  else
    match cs.reverse.findIdx? (· == ':') with
    | some ri =>
      let i := cs.length - 1 - ri
      let h := String.ofList (cs.take i)
      let p := String.ofList (cs.drop (i + 1))
      (if h.isEmpty then "localhost" else h, if p.isEmpty then "6379" else p)
    | none => (if host.isEmpty then "localhost" else host, "6379")

/-- Reads a session store URL. -/
def parseAddress (raw : String) : Except String Address := do
  let u ← Net.Url.parse raw
  match u.scheme with
  | "redis" | "rediss" =>
    let parts := (u.path.splitOn "/").filter (· != "")
    match parts with
    | [] => pure ()
    | [p] =>
      if (intFault p).isSome then throw ("redis: invalid database number: " ++ Text.quoted p)
    | _ => throw ("redis: invalid URL path: " ++ u.path)
    let o ← checkDb (Options.ofQuery u.rawQuery)
    o.readAll (u.scheme == "rediss")
    let (h, p) := hostPort u.host
    pure (.tcp h p)
  | "unix" =>
    if (u.path.toList.filter (fun c => !c.isWhitespace)).isEmpty then throw "redis: empty unix socket path"
    let o ← checkDb (Options.ofQuery u.rawQuery)
    o.readAll false
    pure (.unix u.path)
  | s => throw ("redis: invalid URL scheme: " ++ s)

end Outliner.Session
