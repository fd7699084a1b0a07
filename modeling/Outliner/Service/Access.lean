import Outliner.Store.Repository
/-!
# Who may view and edit a document

The owner may view and edit a document; anyone, logged in or not, may view a public one. Viewing
loads the document first; editing first requires a login and then loads it. A caller who is not
logged in gets "not logged in", anyone else "insufficient permissions".
-/

set_option autoImplicit false

namespace Outliner.Access

variable {m : Type → Type} [Monad m] [MonadExceptOf Failure m]

def isOwner (user : String) (d : Document) : Bool := user != "" && d.userId == user

def load (r : Repository m) (docId : String) : m Document :=
  Failure.during "get document for auth" (r.getDocument docId)

def canView (r : Repository m) (user docId : String) : m Document := do
  let d ← load r docId
  if d.publiclyViewable || isOwner user d then pure d
  else if user == "" then Failure.raise (Failure.unauthorizedTo ("view document " ++ docId))
  else Failure.raise (Failure.forbiddenTo ("access denied to document " ++ docId))

def canEdit (r : Repository m) (user docId : String) : m Document := do
  if user == "" then Failure.raise (Failure.unauthorizedTo ("edit document " ++ docId))
  else
    let d ← load r docId
    if isOwner user d then pure d
    else Failure.raise (Failure.forbiddenTo ("access denied to document " ++ docId))

end Outliner.Access
