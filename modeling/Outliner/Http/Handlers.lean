import Outliner.Http.Route
import Outliner.Http.Response
import Outliner.Service.Documents
/-!
# Handling document requests

Each document or category route reads its body, if it has one, calls the operation for the caller,
and answers: 201 with the object for creations and copies, 200 with JSON for reads, deletion and
outline edits (the map of new ids only), and 204 for renames, text edits, visibility changes and
category removal.
-/

set_option autoImplicit false

namespace Outliner.Http

variable {m : Type → Type} [Monad m] [MonadExceptOf Failure m]

def answer {α : Type} (x : m α) (ok : α → Response) : m Response :=
  tryCatchThe Failure (do pure (ok (← x))) (fun f => pure (Response.ofFailure f))

def withBody {α : Type} (d : Decoder α) (zero : α) (body : String) (k : α → m Response) : m Response :=
  match Decoder.runPrefix d zero body with
  | some a => k a
  | none => pure Response.badBody

def nameDecoder : Decoder String := Decoder.record [("name", Decoder.text)]

def visibilityDecoder : Decoder Bool := Decoder.record [("publicly_viewable", Decoder.flag)]

/-- Answers a document or category request of `user`; other operations are not found. -/
def handleDocuments (r : Repository m) (catalog : Catalog) (limits : Limits) (user : String)
    (body : String) : Endpoint → m Response
  | .createDocument => answer (Documents.create r user) (fun d => .json 201 d.toJson)
  | .listDocuments => answer (Documents.list r user)
      (fun ds => .json 200 (.arr (ds.map DocumentSummary.toJson)))
  | .getDocument id => answer (Documents.view r user id) (fun v => .json 200 v.toJson)
  | .deleteDocument id => answer (Documents.delete r user id) (fun d => .json 200 d.toJson)
  | .renameDocument id => withBody nameDecoder "" body fun name =>
      answer (Documents.rename r user id name) (fun _ => .noContent)
  | .editOutline id => withBody Snapshot.decoder Snapshot.blank body fun s =>
      answer (Documents.reconcile r catalog limits user id (some s)) (fun res => .json 200 res.idsJson)
  | .editTexts id => withBody (Decoder.map Decoder.text "") [] body fun texts =>
      answer (Documents.editTexts r user id texts) (fun _ => .noContent)
  | .copyDocument id => answer (Documents.copy r user id) (fun d => .json 201 d.toJson)
  | .setVisibility id => withBody visibilityDecoder false body fun v =>
      answer (Documents.setPublic r user id v) (fun _ => .noContent)
  | .listCategories id => answer (Categories.list r user id)
      (fun cs => .json 200 (.arr (cs.map Category.toJson)))
  | .addCategory id => withBody nameDecoder "" body fun name =>
      answer (Categories.add r user id name) (fun c => .json 201 c.toJson)
  | .removeCategory id name => answer (Categories.remove r user id name) (fun _ => .noContent)
  | _ => pure Response.notFound

def serveDocuments (r : Repository m) (catalog : Catalog) (limits : Limits) (user method target body : String) :
    m Response :=
  match dispatch documentRoutes method target with
  | .found e => handleDocuments r catalog limits user body e
  | .redirect loc => pure (Response.redirect method loc)
  | .methodNotAllowed => pure Response.methodNotAllowed
  | .notFound => pure Response.notFound

end Outliner.Http
