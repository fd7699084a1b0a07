import Outliner.Http.Handlers
import Outliner.Http.Header
import Outliner.Auth.Token
import Outliner.Session.Data
/-!
# The server

A request passes three layers before its route's handler. The first gives it a request id: the
`X-Request-ID` header when present, else a freshly minted one; the answer carries it. The second
turns a crash of anything inside into a 500 problem; an abort passes through.
-/

set_option autoImplicit false

namespace Outliner.Http

open Session

/-- A request as it reaches the server. -/
structure Request where
  method : String
  target : String
  body : String
  /-- Header fields in the order they were set; a later one replaces an earlier one. -/
  headers : List (String × String)
  remoteAddr : String
  deriving Repr, Inhabited

def headerNameMarks : List Char := "!#$%&'*+-.^_|~".toList ++ [Char.ofNat 96]

def canonicalHeaderKey (k : String) : String :=
  if k.toList.all (fun c => c.toNat < 128 && (c.isAlphanum || headerNameMarks.contains c)) then
    let step (acc : List Char × Bool) (c : Char) : List Char × Bool :=
      (acc.1 ++ [if acc.2 then c.toUpper else c.toLower], c = '-')
    String.ofList (k.toList.foldl step ([], true)).1
  else k

def Request.header (r : Request) (name : String) : String :=
  let key := canonicalHeaderKey name
  match (r.headers.filter fun h => canonicalHeaderKey h.1 == key).getLast? with
  | some (_, v) => v
  | none => ""

/-- What handling a request came to. -/
inductive Reply where
  | answer (r : Response)
  /-- The handler failed unexpectedly. -/
  | crash
  /-- The handler gave up on the request; no layer answers it. -/
  | abort
  deriving Repr, Inhabited

/-- What the layers found out about a request. -/
structure RequestContext where
  requestId : String
  userId : String
  sessionId : String
  deriving Repr, Inhabited

/-- The login-session operations the server uses. -/
structure LoginSessions (m : Type → Type) where
  record : String → String → String → m SessionData
  isRevoked : String → m Bool
  listByUser : String → m (List SessionData)
  revoke : String → String → m Unit

/-- What the server runs against. -/
structure Services (m : Type → Type) where
  documents : Repository m
  sessions : Option (LoginSessions m)
  /-- Mints a request id. -/
  mintId : m String
  /-- Health checks by name; each answers `none` when healthy, else why not. -/
  checks : List (String × m (Option String))
  catalog : Catalog
  limits : Limits
  keys : Auth.KeySet
  /-- The time tokens are checked at and health reports. -/
  now : Time.Instant

/-- What a route leads to: a server operation, or a handler the caller adds. -/
inductive Target (m : Type → Type) where
  | endpoint (e : Endpoint)
  | custom (h : RequestContext → m Reply)

variable {m : Type → Type} [Monad m] [MonadExceptOf Failure m]

def healthResponse (svc : Services m) : m Response := do
  let sorted := svc.checks.mergeSort fun a b => a.1 ≤ b.1
  let results ← sorted.mapM fun (n, c) => do pure (n, (← c).isNone)
  let healthy := results.all (·.2)
  pure (.json (if healthy then 200 else 503) (.obj [
    ("checks", .obj (results.map fun (n, ok) => (n, .str (if ok then "ok" else "unavailable")))),
    ("status", .str (if healthy then "ok" else "degraded")),
    ("time", .str svc.now.text)]))

def sessionJson (current : String) (d : SessionData) : Json :=
  .obj (d.toJson.members ++ [("current", .bool (d.sessionId == current))])

/-- Answers an operation for the request's user. -/
def handleEndpoint (svc : Services m) (ctx : RequestContext) (req : Request) : Endpoint → m Response
  | .health => healthResponse svc
  | .listSessions =>
    match svc.sessions with
    | none => pure Response.notFound
    | some ss =>
      if ctx.userId.isEmpty then pure (Response.ofFailure Failure.unauthorized)
      else answer (ss.listByUser ctx.userId) fun ds => .json 200 (.arr (ds.map (sessionJson ctx.sessionId)))
  | .revokeSession id =>
    match svc.sessions with
    | none => pure Response.notFound
    | some ss =>
      if ctx.userId.isEmpty then pure (Response.ofFailure Failure.unauthorized)
      else answer (ss.revoke ctx.userId id) fun _ => .noContent
  | e => handleDocuments svc.documents svc.catalog svc.limits ctx.userId req.body e

def serverRoutes (svc : Services m) (extra : List (Route (RequestContext → m Reply))) :
    List (Route (Target m)) :=
  (documentRoutes ++ healthRoutes ++ (if svc.sessions.isSome then sessionRoutes else [])).map
    (Route.map .endpoint) ++ extra.map (Route.map .custom)

def route (svc : Services m) (extra : List (Route (RequestContext → m Reply))) (ctx : RequestContext)
    (req : Request) : m Reply :=
  match dispatch (serverRoutes svc extra) req.method req.target with
  | .found (.endpoint e) => Reply.answer <$> handleEndpoint svc ctx req e
  | .found (.custom h) => h ctx
  | .redirect loc => pure (.answer (Response.redirect req.method loc))
  | .methodNotAllowed => pure (.answer Response.methodNotAllowed)
  | .notFound => pure (.answer Response.notFound)

def refuse (status : Nat) (detail : String) : Reply := .answer (Response.problemOf status detail [])

/-- The bearer-token layer. -/
def authenticate (svc : Services m) (ctx : RequestContext) (req : Request) (next : RequestContext → m Reply) :
    m Reply := do
  let token := bearerToken (req.header "Authorization")
  if token.isEmpty then return ← next ctx
  match Auth.verify svc.keys svc.now.seconds token with
  | none => pure (refuse 401 "invalid or expired token")
  | some claims =>
    let ctx' := { ctx with userId := claims.userId, sessionId := claims.sessionId }
    match svc.sessions with
    | some ss =>
      if claims.sessionId.isEmpty then next ctx'
      else
        match ← tryCatchThe Failure (some <$> ss.isRevoked claims.sessionId) (fun _ => pure none) with
        | none => pure (refuse 503 "session store unavailable")
        | some true => pure (refuse 401 "session has been signed out")
        | some false =>
          let ip := clientIp (req.header "X-Forwarded-For") req.remoteAddr
          let failed ← tryCatchThe Failure
            (do let _ ← ss.record claims.userId claims.sessionId ip; pure none) (fun f => pure (some f))
          if (failed.map (·.meets .forbidden)).getD false then
            pure (refuse 401 "session does not belong to this user")
          else next ctx'
    | none => next ctx'

def recover (r : Reply) : Reply :=
  match r with
  | .crash => refuse 500 "internal server error"
  | other => other

def serve (svc : Services m) (extra : List (Route (RequestContext → m Reply))) (req : Request) :
    m (Reply × String) := do
  let given := req.header "X-Request-ID"
  let rid ← if given.isEmpty then svc.mintId else pure given
  let reply ← authenticate svc ⟨rid, "", ""⟩ req (fun ctx => route svc extra ctx req)
  pure (recover reply, rid)

end Outliner.Http
