import Outliner.Session.Data
import Outliner.KeyValue.Server
import Outliner.Failure
/-!
# Login sessions in the key-value server

Each session is kept under `seriatim:session:<id>`, listed in the set
`seriatim:user_sessions:<user>`, and, once revoked, marked by `seriatim:revoked:<id>` holding its
user. All three live thirty days from their last write.
-/

set_option autoImplicit false

namespace Outliner.Session

open KeyValue Time

def lifetime : Nat := 2592000

def sessionKey (id : String) : String := "seriatim:session:" ++ id

def userKey (user : String) : String := "seriatim:user_sessions:" ++ user

def revokedKey (id : String) : String := "seriatim:revoked:" ++ id

/-- The session store: the key-value server, the clock (its `n`-th reading), the readings
taken so far, and how many sessions a user keeps. -/
structure SessionStore where
  server : Server
  clock : Nat → Instant
  readings : Nat
  keep : Int
  deriving Inhabited

/-- Session store steps fail with a `Failure` and keep what they wrote. -/
abbrev SessionM := ExceptT Failure (StateM SessionStore)

def SessionStore.fresh (clock : Nat → Instant) (keep : Int) : SessionStore := ⟨Server.empty, clock, 0, keep⟩

def now : SessionM Instant := do
  let s ← get
  set { s with readings := s.readings + 1 }
  pure (s.clock (s.readings + 1))

def command {α : Type} (step : String) (x : ServerM α) : SessionM α := do
  let s ← get
  let (r, server) := x.run.run s.server
  set { s with server := server }
  match r with
  | .ok a => pure a
  | .error e => throw (Failure.storage (if step.isEmpty then e else step ++ ": " ++ e))

def missing (id : String) : Failure := Failure.notFound ("session " ++ id)

def load (id : String) : SessionM SessionData := do
  match ← command "get session" (getText (sessionKey id)) with
  | none => throw (missing id)
  | some v =>
    match SessionData.parse v with
    | .ok d => pure d
    | .error e => throw (Failure.storage ("unmarshal session data: " ++ e))

def load? (id : String) : SessionM (Option SessionData) :=
  tryCatch (some <$> load id) fun f => if f.meets .notFound then pure none else throw f

def listByUser (user : String) : SessionM (List SessionData) := do
  let ids ← command "list sessions" (members (userKey user))
  let (found, stale) ← ids.foldlM (fun (acc : List SessionData × List String) id => do
      match ← load? id with
      | some d => pure (acc.1 ++ [d], acc.2)
      | none => pure (acc.1, acc.2 ++ [id]))
    ([], [])
  if !stale.isEmpty then command "prune session index" (removeMembers (userKey user) stale)
  pure (Time.newestFirst SessionData.lastLogin found)

def revokeFor (user id : String) : SessionM Unit :=
  command "revoke session" (batch [delete (sessionKey id), removeMembers (userKey user) [id],
    setText (revokedKey id) user (some lifetime)])

def trimOldest (user : String) (keep : Int) : SessionM Unit := do
  if keep ≤ 0 then return
  let sessions ← listByUser user
  if sessions.length ≤ keep.toNat then return
  for old in sessions.drop keep.toNat do
    revokeFor user old.sessionId

def marshal (d : SessionData) : SessionM String :=
  match d.created.textFault <|> d.lastLogin.textFault with
  | some e => throw (Failure.storage ("marshal session data: json: error calling MarshalJSON for type time.Time: Time.MarshalJSON: " ++ e))
  | none => pure d.text

/-- Records a login of `user` with session `id` from address `ip`. -/
def record (user id ip : String) : SessionM SessionData := do
  let t ← now
  let data ← match ← load? id with
    | some d =>
      if d.userId != user then throw (Failure.forbiddenTo ("session " ++ id ++ " belongs to another user"))
      else pure { d with lastLogin := t, ip := ip }
    | none => pure ⟨ip, id, t, t, user⟩
  let text ← marshal data
  command "save session" (batch [setText (sessionKey id) text (some lifetime),
    addMembers (userKey user) [id], expire (userKey user) lifetime])
  trimOldest user (← get).keep
  pure data

def revoke (user id : String) : SessionM Unit := do
  let d ← load id
  if d.userId != user then throw (missing id)
  revokeFor user id

def isRevoked (id : String) : SessionM Bool :=
  command "check revoked session" (KeyValue.exists? (revokedKey id))

def ping : SessionM Unit := command "" KeyValue.ping

end Outliner.Session
