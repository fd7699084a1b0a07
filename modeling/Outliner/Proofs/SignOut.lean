import Mathlib
import Outliner.Proofs.ServerSteps
import Outliner.Store.Backend

/-!
# A signed-out session stays signed out

A session is signed out when the key-value server holds its revocation mark
`seriatim:revoked:<id>`. Revoking a session writes the mark last in its batch, so the mark is
written even when an earlier command of the batch fails (`revokeFor_marks`); a revocation
through `revoke` and every eviction by `trimOldest` go through it.

No call of the session store takes a mark away: the store deletes only session keys and user
indexes, and neither kind of key is ever a mark's, as their tenth characters differ. The
bearer-token layer asks for the mark before it records the login or runs the handler, so on a
deployment whose session server is up, every request whose token carries a signed-out session
is answered 401 and leaves the deployment as it was (`authenticate_signedOut`).

The main statement, `signed_out_session_stays_refused`, follows any run of store calls and
requests (`Backend.Event`) from a deployment that marks the session. Keys do not expire in
these runs: the only thing that takes a key away besides a command is time passing.
-/

set_option autoImplicit false

namespace Outliner.Session

open KeyValue Server

theorem getElem?_toList_append (p x : String) {i : Nat} (hi : i < p.toList.length) :
    (p ++ x).toList[i]? = p.toList[i]? := by
  rw [String.toList_append, List.getElem?_append_left hi]

theorem sessionKey_ne_revokedKey (id s : String) : sessionKey id ≠ revokedKey s := by
  unfold sessionKey revokedKey
  intro h
  have h9 := congrArg (fun t : String => t.toList[9]?) h
  rw [getElem?_toList_append _ _ (by decide), getElem?_toList_append _ _ (by decide)] at h9
  exact absurd h9 (by decide)

theorem userKey_ne_revokedKey (user s : String) : userKey user ≠ revokedKey s := by
  unfold userKey revokedKey
  intro h
  have h9 := congrArg (fun t : String => t.toList[9]?) h
  rw [getElem?_toList_append _ _ (by decide), getElem?_toList_append _ _ (by decide)] at h9
  exact absurd h9 (by decide)

variable {s : String} {s₀ : Server}

/-- The session store's server spares the mark of session `s` from `s₀`. -/
abbrev Sparing (s : String) (s₀ : Server) (st : SessionStore) : Prop :=
  Spares (revokedKey s) s₀ st.server

/-! ## Every call of the store spares every mark -/

theorem command_server {α : Type} (step : String) (x : ServerM α) (st : SessionStore) :
    ((command step x).run.run st).2 = { st with server := (x.run.run st.server).2 } := by
  unfold command
  rw [run_bind, run_get]
  dsimp only
  generalize x.run.run st.server = p
  rcases p with ⟨r, sv⟩
  dsimp only
  rw [run_bind, run_set]
  cases r <;> rfl

theorem preserves_command {α : Type} (step : String) {x : ServerM α}
    (hx : Preserves (Spares (revokedKey s) s₀) x) : Preserves (Sparing s s₀) (command step x) := by
  intro st hst
  rw [command_server]
  exact hx st.server hst

theorem preserves_now : Preserves (Sparing s s₀) now :=
  Preserves.get_bind fun _ hst => hst

theorem marshal_run (d : SessionData) (st : SessionStore) :
    ((marshal d).run.run st).2 = st ∧ ∀ text, ((marshal d).run.run st).1 = .ok text → text = d.text := by
  unfold marshal
  split
  · exact ⟨rfl, fun _ h => by cases h⟩
  · exact ⟨rfl, fun _ h => by cases h; rfl⟩

theorem marshal_bind_run {β : Type} (d : SessionData) (f : String → SessionM β) (st : SessionStore) :
    (∃ e, (marshal d >>= f).run.run st = (.error e, st)) ∨
      (marshal d >>= f).run.run st = (f d.text).run.run st := by
  rw [run_bind]
  obtain ⟨hst, htext⟩ := marshal_run d st
  rcases h : (marshal d).run.run st with ⟨r, st'⟩
  rw [h] at hst htext
  subst hst
  cases r with
  | error e => exact .inl ⟨e, rfl⟩
  | ok text => exact .inr (by rw [htext text rfl])

theorem preserves_marshal {I : SessionStore → Prop} (d : SessionData) : Preserves I (marshal d) :=
  fun st h => by
    rw [(marshal_run d st).1]
    exact h

theorem preserves_load (id : String) : Preserves (Sparing s s₀) (load id) := by
  unfold load
  refine (preserves_command _ (preserves_getText _)).bind fun r => ?_
  split
  · exact Preserves.throw _
  · split
    · exact Preserves.pure _
    · exact Preserves.throw _

theorem preserves_load? (id : String) : Preserves (Sparing s s₀) (load? id) :=
  Preserves.tryCatch ((preserves_load id).map _) fun _ =>
    Preserves.ite (Preserves.pure _) (Preserves.throw _)

theorem preserves_listByUser (user : String) : Preserves (Sparing s s₀) (listByUser user) := by
  unfold listByUser
  dsimp only
  refine (preserves_command _ (preserves_members _)).bind fun ids => ?_
  refine (Preserves.foldlM (fun acc id => ?_) ids _).bind fun r => ?_
  · exact (preserves_load? id).bind fun d => by split <;> exact Preserves.pure _
  · rcases r with ⟨found, stale⟩
    exact Preserves.ite ((preserves_command _
      (preserves_removeMembers (userKey_ne_revokedKey _ _) _)).bind fun _ => Preserves.pure _)
      (Preserves.pure _)

theorem preserves_revokeFor (user id : String) : Preserves (Sparing s s₀) (revokeFor user id) := by
  refine preserves_command _ (preserves_batch _ fun c hc => ?_)
  simp only [List.mem_cons, List.not_mem_nil, or_false] at hc
  rcases hc with rfl | rfl | rfl
  · exact preserves_delete (sessionKey_ne_revokedKey _ _)
  · exact preserves_removeMembers (userKey_ne_revokedKey _ _) _
  · exact preserves_setText _ _ _

theorem preserves_trimOldest (user : String) (keep : Int) :
    Preserves (Sparing s s₀) (trimOldest user keep) := by
  unfold trimOldest
  refine Preserves.ite (Preserves.pure _) ((preserves_listByUser user).bind fun ds => ?_)
  refine Preserves.ite (Preserves.pure _)
    ((Preserves.forIn (fun d _ => ?_) _ _).bind fun _ => Preserves.pure _)
  exact (preserves_revokeFor user _).bind fun _ => Preserves.pure _

theorem preserves_record (user id ip : String) : Preserves (Sparing s s₀) (record user id ip) := by
  unfold record
  dsimp only
  have save : ∀ data : SessionData, Preserves (Sparing s s₀) (do
      let text ← marshal data
      command "save session" (batch [setText (sessionKey id) text (some lifetime),
        addMembers (userKey user) [id], expire (userKey user) lifetime])
      let st ← get
      trimOldest user st.keep
      pure data) := by
    intro data
    refine (preserves_marshal data).bind fun text => ?_
    refine (preserves_command _ (preserves_batch _ fun c hc => ?_)).bind fun _ =>
      Preserves.get_bind fun st hst =>
        ((preserves_trimOldest user st.keep).bind fun _ => Preserves.pure data) st hst
    simp only [List.mem_cons, List.not_mem_nil, or_false] at hc
    rcases hc with rfl | rfl | rfl
    · exact preserves_setText _ _ _
    · exact preserves_addMembers _ _
    · exact preserves_expire _ _
  refine preserves_now.bind fun t => (preserves_load? id).bind fun r => ?_
  split
  · exact Preserves.ite ((Preserves.throw _).bind save) ((Preserves.pure _).bind save)
  · exact (Preserves.pure _).bind save

theorem preserves_revoke (user id : String) : Preserves (Sparing s s₀) (revoke user id) := by
  unfold revoke
  exact (preserves_load id).bind fun _ =>
    Preserves.ite ((Preserves.throw _).bind fun _ => preserves_revokeFor user id)
      (preserves_revokeFor user id)

theorem preserves_isRevoked (id : String) : Preserves (Sparing s s₀) (isRevoked id) :=
  preserves_command _ (preserves_exists? _)

/-! ## Revoking writes the mark; the mark reads as revoked -/

theorem revokeFor_marks (user id : String) {st : SessionStore} (hup : st.server.outage = "") :
    ((revokeFor user id).run.run st).2.server.outage = "" ∧
      revokedKey id ∈ ((revokeFor user id).run.run st).2.server.keys := by
  unfold revokeFor
  rw [command_server]
  dsimp only
  rw [batch_state]
  simp only [List.foldl_cons, List.foldl_nil]
  have hsp : Spares (revokedKey id) st.server
      ((removeMembers (userKey user) [id]).run.run ((delete (sessionKey id)).run.run st.server).2).2 :=
    preserves_removeMembers (userKey_ne_revokedKey _ _) _ _
      (preserves_delete (sessionKey_ne_revokedKey _ _) _ ⟨rfl, fun h => h⟩)
  rw [setText_state, if_pos (hsp.1.trans hup)]
  exact ⟨(outage_put _ _ _).trans (hsp.1.trans hup), mem_keys_put.2 (.inl rfl)⟩

theorem revoke_marks {user : String} {st st' : SessionStore} (hup : st.server.outage = "")
    (h : (revoke user s).run.run st = (.ok (), st')) : revokedKey s ∈ st'.server.keys := by
  unfold revoke at h
  rw [run_bind] at h
  rcases hl : (load s).run.run st with ⟨r, st₁⟩
  rw [hl] at h
  have hup₁ : st₁.server.outage = "" := by
    have hsp := ((preserves_load s : Preserves (Sparing s st.server) (load s)) st ⟨rfl, fun h => h⟩).1
    rw [hl] at hsp
    exact hsp.trans hup
  cases r with
  | error e => cases h
  | ok d =>
    dsimp only at h
    split at h
    · rw [run_bind] at h
      cases h
    · rw [← (Prod.mk.inj h).2]
      exact (revokeFor_marks user s hup₁).2

theorem isRevoked_marked {st : SessionStore} (hup : st.server.outage = "")
    (hs : revokedKey s ∈ st.server.keys) : (isRevoked s).run.run st = (.ok true, st) := by
  unfold isRevoked command
  rw [run_bind, run_get]
  dsimp only
  rw [exists?_run, if_pos hup, (slot?_isSome_iff _ _).2 hs]
  rfl

/-- A call of the session store. -/
inductive StoreCall where
  | record (user id ip : String)
  | revoke (user id : String)
  | listByUser (user : String)
  | trimOldest (user : String) (keep : Int)

/-- Runs a call of the session store; only its outcome is kept. -/
def StoreCall.run : StoreCall → SessionM Unit
  | record user id ip => (fun _ => ()) <$> Session.record user id ip
  | revoke user id => Session.revoke user id
  | listByUser user => (fun _ => ()) <$> Session.listByUser user
  | trimOldest user keep => Session.trimOldest user keep

theorem StoreCall.preserves (c : StoreCall) : Preserves (Sparing s s₀) c.run := by
  cases c with
  | record user id ip => exact (preserves_record user id ip).map _
  | revoke user id => exact preserves_revoke user id
  | listByUser user => exact (preserves_listByUser user).map _
  | trimOldest user keep => exact preserves_trimOldest user keep

end Outliner.Session

namespace Outliner.Backend

open Session KeyValue Http

variable {s : String} {s₀ : Server} {α : Type}

/-- The deployment keeps login sessions on a server that is up and marks session `s` revoked. -/
def SignedOut (s : String) (b : Backend) : Prop :=
  ∃ st, b.sessions = some st ∧ st.server.outage = "" ∧ revokedKey s ∈ st.server.keys

/-- The deployment keeps login sessions, and their server spares the mark of `s` from `s₀`. -/
def Keeping (s : String) (s₀ : Server) (b : Backend) : Prop :=
  ∃ st, b.sessions = some st ∧ Sparing s s₀ st

theorem onSessions_run (x : SessionM α) {b : Backend} {st : SessionStore} (hb : b.sessions = some st) :
    (onSessions x).run.run b = ((x.run.run st).1, { b with sessions := some (x.run.run st).2 }) := by
  unfold onSessions
  simp only [ExceptT.run_mk, StateT.run, hb]
  rcases x.run.run st with ⟨r, st'⟩
  rfl

theorem preserves_onSessions {x : SessionM α} (hx : Preserves (Sparing s s₀) x) :
    Preserves (Keeping s s₀) (onSessions x) := by
  rintro b ⟨st, hb, hst⟩
  rw [onSessions_run x hb]
  exact ⟨_, rfl, hx st hst⟩

theorem Preserves.signedOut {x : BackendM α} (hx : ∀ s₀, Preserves (Keeping s s₀) x) :
    Preserves (SignedOut s) x := by
  rintro b ⟨st, hb, hup, hmark⟩
  obtain ⟨st', hb', ho, hk⟩ := hx st.server b ⟨st, hb, rfl, fun h => h⟩
  exact ⟨st', hb', ho.trans hup, hk hmark⟩

/-! ## The bearer-token layer -/

/-- A request's handler that makes the given store calls in order. -/
def handle (calls : List StoreCall) : BackendM Reply := do
  for c in calls do
    onSessions c.run
  pure (.answer Response.noContent)

theorem preserves_handle (calls : List StoreCall) : Preserves (Keeping s s₀) (handle calls) :=
  (Preserves.forIn (fun c _ => (preserves_onSessions c.preserves).bind fun _ => Preserves.pure _)
    _ _).bind fun _ => Preserves.pure _

theorem preserves_authenticate {svc : Services BackendM} (hsvc : svc.sessions = some logins)
    (ctx : RequestContext) (req : Request) {next : RequestContext → BackendM Reply}
    (hnext : ∀ c, Preserves (Keeping s s₀) (next c)) :
    Preserves (Keeping s s₀) (authenticate svc ctx req next) := by
  unfold authenticate
  dsimp only
  refine Preserves.ite (hnext _) ?_
  split
  · exact Preserves.pure _
  · rw [hsvc]
    refine Preserves.ite (hnext _) ((Preserves.tryCatch
      ((preserves_onSessions (preserves_isRevoked _)).map _) fun _ => Preserves.pure _).bind
        fun r => ?_)
    split
    · exact Preserves.pure _
    · exact Preserves.pure _
    · exact (Preserves.tryCatch ((preserves_onSessions (preserves_record _ _ _)).bind
        fun _ => Preserves.pure _) fun _ => Preserves.pure _).bind fun _ =>
          Preserves.ite (Preserves.pure _) (hnext _)

theorem verify_empty (keys : Auth.KeySet) (now : Int) : Auth.verify keys now "" = none := by
  have h : "".splitOn "." = [""] := by cbv
  unfold Auth.verify
  rw [h]
  rfl

theorem authenticate_signedOut {svc : Services BackendM} (hsvc : svc.sessions = some logins)
    (hs : s ≠ "") {b : Backend} (hb : SignedOut s b) (ctx : RequestContext) (req : Request)
    (next : RequestContext → BackendM Reply) {claims : Auth.Claims}
    (hv : Auth.verify svc.keys svc.now.seconds (bearerToken (req.header "Authorization")) = some claims)
    (hsid : claims.sessionId = s) :
    (authenticate svc ctx req next).run.run b = (.ok (refuse 401 "session has been signed out"), b) := by
  obtain ⟨st, hst, hup, hmark⟩ := hb
  -- a token that verifies is not empty, and neither is its session
  have htok : (bearerToken (req.header "Authorization")).isEmpty = false := by
    cases h : (bearerToken (req.header "Authorization")).isEmpty with
    | false => rfl
    | true =>
      rw [String.isEmpty_iff.mp h, verify_empty] at hv
      cases hv
  have hsid' : claims.sessionId.isEmpty = false := by
    rw [hsid]
    cases h : s.isEmpty with
    | false => rfl
    | true => exact absurd (String.isEmpty_iff.mp h) hs
  have hrev : (logins.isRevoked claims.sessionId).run.run b = (.ok true, b) := by
    show (onSessions (isRevoked claims.sessionId)).run.run b = _
    rw [onSessions_run _ hst, hsid, isRevoked_marked hup hmark]
    rcases b with ⟨memory, sessions⟩
    cases hst
    rfl
  unfold authenticate
  dsimp only
  rw [htok, hv, hsvc]
  simp only [Bool.false_eq_true, ↓reduceIte, hsid']
  rw [run_bind, run_tryCatch, run_map, hrev]
  rfl

/-! ## Runs of store calls and requests -/

/-- One event on a deployment with login sessions: a call of the session store, or a request
through the bearer-token layer whose handler makes store calls once the request is admitted. -/
inductive Event where
  | call (c : StoreCall)
  | request (ctx : RequestContext) (req : Request) (calls : List StoreCall)

/-- Runs an event; only its outcome is kept. -/
def Event.run (svc : Services BackendM) : Event → BackendM Unit
  | .call c => onSessions c.run
  | .request ctx req calls => (fun _ => ()) <$> authenticate svc ctx req (fun _ => handle calls)

/-- The deployment after a run of events: each event starts where the one before left it,
whatever its outcome. -/
def runEvents (svc : Services BackendM) : List Event → Backend → Backend
  | [], b => b
  | e :: es, b => runEvents svc es ((e.run svc).run.run b).2

theorem Event.preserves {svc : Services BackendM} (hsvc : svc.sessions = some logins) (e : Event) :
    Preserves (Keeping s s₀) (e.run svc) := by
  cases e with
  | call c => exact preserves_onSessions c.preserves
  | request ctx req calls =>
    exact (preserves_authenticate hsvc ctx req fun _ => preserves_handle calls).map _

theorem signedOut_runEvents {svc : Services BackendM} (hsvc : svc.sessions = some logins) :
    ∀ (evs : List Event) (b : Backend), SignedOut s b → SignedOut s (runEvents svc evs b)
  | [], _, hb => hb
  | e :: es, b, hb =>
    signedOut_runEvents hsvc es _ (Preserves.signedOut (fun _ => e.preserves hsvc) b hb)

/-- A signed-out session stays signed out. Revoking a session marks it, both by a revocation
that succeeds and by the revocation that trimming runs on each session it evicts; after any run
of store calls and requests from a deployment that marks it, the mark is still there, and every
request whose token verifies and carries the session is answered 401, with the deployment left
as it was whatever its handler would have done. -/
theorem signed_out_session_stays_refused (svc : Services BackendM)
    (hsvc : svc.sessions = some logins) {s : String} (hs : s ≠ "") :
    (∀ (user : String) (st st' : SessionStore), st.server.outage = "" →
      (revoke user s).run.run st = (.ok (), st') → revokedKey s ∈ st'.server.keys) ∧
    (∀ (user : String) (st : SessionStore), st.server.outage = "" →
      revokedKey s ∈ ((revokeFor user s).run.run st).2.server.keys) ∧
    ∀ b : Backend, SignedOut s b → ∀ evs : List Event,
      SignedOut s (runEvents svc evs b) ∧
      ∀ (ctx : RequestContext) (req : Request) (next : RequestContext → BackendM Reply)
        (claims : Auth.Claims),
        Auth.verify svc.keys svc.now.seconds (bearerToken (req.header "Authorization")) = some claims →
        claims.sessionId = s →
        (authenticate svc ctx req next).run.run (runEvents svc evs b) =
          (.ok (refuse 401 "session has been signed out"), runEvents svc evs b) := by
  refine ⟨fun user st st' hup h => revoke_marks hup h,
    fun user st hup => (revokeFor_marks user s hup).2, fun b hb evs => ?_⟩
  have hb' := signedOut_runEvents hsvc evs b hb
  exact ⟨hb', fun ctx req next claims hv hsid => authenticate_signedOut hsvc hs hb' ctx req next hv hsid⟩

/-- The services of a deployment with login sessions, with the standard catalog, limits and
keys and no health checks. -/
def withSessions : Services BackendM :=
  ⟨documents, some logins, mint, [], Catalog.standard, Limits.standard, Auth.KeySet.standard, Time.Instant.ofCivil 2026 1 1 0 0 0⟩

theorem session_one_stays_refused :
    withSessions.sessions = some logins ∧ "one" ≠ "" ∧
    ((∀ (user : String) (st st' : SessionStore), st.server.outage = "" →
      (revoke user "one").run.run st = (.ok (), st') → revokedKey "one" ∈ st'.server.keys) ∧
    (∀ (user : String) (st : SessionStore), st.server.outage = "" →
      revokedKey "one" ∈ ((revokeFor user "one").run.run st).2.server.keys) ∧
    ∀ b : Backend, SignedOut "one" b → ∀ evs : List Event,
      SignedOut "one" (runEvents withSessions evs b) ∧
      ∀ (ctx : RequestContext) (req : Request) (next : RequestContext → BackendM Reply)
        (claims : Auth.Claims),
        Auth.verify withSessions.keys withSessions.now.seconds
          (bearerToken (req.header "Authorization")) = some claims →
        claims.sessionId = "one" →
        (authenticate withSessions ctx req next).run.run (runEvents withSessions evs b) =
          (.ok (refuse 401 "session has been signed out"), runEvents withSessions evs b)) :=
  ⟨rfl, by decide, signed_out_session_stays_refused withSessions rfl (by decide)⟩

end Outliner.Backend
