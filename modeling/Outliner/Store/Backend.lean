import Outliner.Store.Memory
import Outliner.Session.Store
import Outliner.Http.Server
/-!
# One deployment in memory

The server's backing services held together: the in-memory document store and, when login sessions
are kept, their session store. Steps on either keep what they wrote when they fail, and request ids
are minted from the same sequence as the store's ids.
-/

set_option autoImplicit false

namespace Outliner

open Session

/-- The document store and the session store, if sessions are kept. -/
structure Backend where
  memory : Memory
  sessions : Option SessionStore
  deriving Inhabited

/-- Steps on the deployment. -/
abbrev BackendM := ExceptT Failure (StateM Backend)

namespace Backend

def documents : Repository BackendM :=
  Memory.repositoryVia (·.memory) fun b m => { b with memory := m }

def onSessions {α : Type} (x : SessionM α) : BackendM α :=
  ExceptT.mk fun b =>
    match b.sessions with
    | some st => let (r, st') := x.run.run st; (r, { b with sessions := some st' })
    | none => (.error (Failure.storage "no session store"), b)

def logins : Http.LoginSessions BackendM where
  record := fun u s ip => onSessions (record u s ip)
  isRevoked := fun s => onSessions (isRevoked s)
  listByUser := fun u => onSessions (listByUser u)
  revoke := fun u s => onSessions (revoke u s)

def mint : BackendM String := Memory.zoom (·.memory) (fun b m => { b with memory := m }) Memory.mint

end Backend

end Outliner
