import Outliner.Store.Repository
import Outliner.Outline.Tree
/-!
# Copying a document

A copy is a new document of the target user whose root text is the source's title and whose items
repeat the source's tree: texts and child orders are copied, styles and categories are not.
-/

set_option autoImplicit false

namespace Outliner.Copy

variable {m : Type → Type} [Monad m] [MonadExceptOf Failure m]

def createWithRoot (r : Repository m) (user : String) : m (Document × Item) := do
  let d ← r.createDocument user false (← r.now)
  let root ← Failure.during "create root item" (r.createItem ⟨"", d.id, none, "", 0, false⟩)
  Failure.during "set root item" (r.setRootItem d.id root.id)
  pure ({ d with rootItemId := some root.id }, root)

def copyChildren (r : Repository m) (docId destId : String) :
    List Item → List String → List (String × String) → m (List (String × String) × List String)
  | [], visited, acc => pure (acc, visited)
  | src :: rest, visited, acc =>
    if visited.contains src.id then copyChildren r docId destId rest visited acc
    else do
      let dest ← Failure.during ("copy item " ++ src.id)
        (r.createItem ⟨"", docId, some destId, src.itemText, src.childOrder, false⟩)
      copyChildren r docId destId rest (src.id :: visited) (acc ++ [(src.id, dest.id)])

def walk (r : Repository m) (docId : String) (items : List Item) :
    Nat → List (String × String) → List String → m Unit
  | 0, _, _ => pure ()
  | _, [], _ => pure ()
  | fuel + 1, (src, dest) :: stack, visited => do
    let (next, visited) ← copyChildren r docId dest (ItemNode.childrenOf items src) visited []
    walk r docId items fuel (next ++ stack) visited

def replicate (r : Repository m) (source : Document) (items : List Item) (user : String) :
    m Document :=
  match items.find? (·.id == source.rootId) with
  | none => Failure.raise (Failure.notFound ("root item of document " ++ source.id))
  | some srcRoot => r.atomically do
    let (d, root) ← Failure.during "create copy" (createWithRoot r user)
    Failure.during "title copy" (r.updateText d.id root.id (effectiveTitle srcRoot.itemText))
    walk r d.id items (items.length + 1) [(srcRoot.id, root.id)] [srcRoot.id]
    pure d

end Outliner.Copy
