import Outliner.Reconcile.Plan
import Outliner.Store.Repository
import Outliner.Style.Upsert
/-!
# Writing a reconciliation

A plan is written in one transaction: the document is locked, everything under the root item is
deleted, the root's text and styles are set when the snapshot gives them, the planned nodes are
created in plan order under their parents' new ids with their styles, and the table-of-contents item
is set.
-/

set_option autoImplicit false

namespace Outliner

namespace Plan

def tocItemId (p : Plan) (persisted : List String) : Option String :=
  match p.tocClientId with
  | none => none
  | some t =>
    if t = p.rootClientId then some p.rootItemId
    else ((p.nodes.zip persisted).find? (·.1.clientId == t)).map (·.2)

def result (p : Plan) (removed : Nat) (persisted : List String) : ReconcileResult :=
  let ids := p.unresolved.map (fun u => (u.1, (none : Option String)))
  let ids := (p.nodes.zip persisted).foldl (fun acc (n, i) => Decoder.upsert n.clientId (some i) acc) ids
  let ids := Decoder.upsert p.rootClientId (some p.rootItemId) ids
  ⟨ids, p.unresolved, removed, p.nodes.length, p.tocItemId persisted⟩

variable {m : Type → Type} [Monad m] [MonadExceptOf Failure m]

/-- Creates the planned nodes in order; answers their new ids. -/
def createNodes (r : Repository m) (docId : String) (p : Plan) :
    List PlannedNode → List String → m (List String)
  | [], acc => pure acc
  | n :: ns, acc => do
    let parentId := match n.parent with
      | none => p.rootItemId
      | some k => acc.getD k ""
    let item ← Failure.during ("create item for " ++ n.clientId)
      (r.createItem ⟨"", docId, some parentId, n.text, n.order, false⟩)
    if !n.styles.isEmpty then
      let _ ← Failure.during ("styles for " ++ n.clientId) (StyleWrite.apply r item.id n.styles [])
    createNodes r docId p ns (acc ++ [item.id])

/-- Writes a plan into a document in one transaction. -/
def write (r : Repository m) (d : Document) (p : Plan) : m ReconcileResult := do
  let (removed, persisted) ← r.atomically do
    Failure.during "lock document" (r.lockDocument d.id)
    let removed ← Failure.during "clear outline" (r.deleteChildren p.rootItemId)
    match p.rootText with
    | some t => Failure.during "update root text" (r.updateText d.id p.rootItemId t)
    | none => pure ()
    if !p.rootStyles.isEmpty then
      let _ ← Failure.during "root styles" (StyleWrite.upsert r p.rootItemId p.rootStyles)
    let persisted ← createNodes r d.id p p.nodes []
    Failure.during "set toc item" (r.setTocItem d.id (p.tocItemId persisted))
    let time ← r.now
    Failure.during "touch document" (r.touchDocument d.id time)
    pure (removed, persisted)
  pure (p.result removed persisted)

end Plan

end Outliner
