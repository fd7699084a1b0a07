import Outliner.Service.Access
import Outliner.Service.Copy
import Outliner.Service.FieldErrors
import Outliner.Reconcile.Write
/-!
# Document operations

What a user can do with documents: create one (with an empty root item), view one with its items,
styles, categories and tree, list their own, rename, edit item texts, change the visibility, put
away or delete, write a snapshot, and copy.
-/

set_option autoImplicit false

namespace Outliner

/-- A document as a viewer sees it. -/
structure DocumentView where
  document : Document
  title : String
  items : List Item
  /-- Styles by item id, for the items that have any. -/
  styles : List (String × List Style)
  /-- The viewer's category names on the document. -/
  categories : List String
  tree : Option ItemNode
  canEdit : Bool
  deriving Repr, Inhabited

/-- A document in a list of a user's documents. -/
structure DocumentSummary where
  document : Document
  title : String
  categories : List String
  deriving Repr, Inhabited

/-- What deleting did: put the document away, or delete it. -/
structure DeleteResult where
  trashed : Bool
  deleted : Bool
  deriving Repr, Inhabited

namespace DocumentView

def toJson (v : DocumentView) : Json :=
  .obj (v.document.jsonMembers ++
    [("title", .str v.title), ("items", .arr (v.items.map Item.toJson)),
     ("styles", .obj (v.styles.map fun (i, ss) => (i, .arr ((Style.sorted ss).map Style.toJson)))),
     ("categories", .arr (v.categories.map .str)),
     ("tree", (v.tree.map ItemNode.toJson).getD .null),
     ("permissions", .obj [("edit", .bool v.canEdit)])])

end DocumentView

def DocumentSummary.toJson (s : DocumentSummary) : Json :=
  .obj (s.document.jsonMembers ++ [("title", .str s.title), ("categories", .arr (s.categories.map .str))])

def DeleteResult.toJson (d : DeleteResult) : Json :=
  .obj [("trashed", .bool d.trashed), ("deleted", .bool d.deleted)]

def maxDocumentNameLength : Nat := 255

def maxEditTextItems : Nat := 5000

namespace Documents

variable {m : Type → Type} [Monad m] [MonadExceptOf Failure m]

def groupStyles : List Style → List (String × List Style) → List (String × List Style)
  | [], acc => acc
  | s :: ss, acc =>
    match acc.find? (·.1 == s.itemId) with
    | some _ => groupStyles ss (acc.map fun e => if e.1 == s.itemId then (e.1, e.2 ++ [s]) else e)
    | none => groupStyles ss (acc ++ [(s.itemId, [s])])

def create (r : Repository m) (user : String) : m Document :=
  if user == "" then Failure.raise Failure.unauthorized
  else r.atomically do
    let (d, _) ← Copy.createWithRoot r user
    pure d

/-- A document as the viewer sees it. -/
def view (r : Repository m) (viewer docId : String) : m DocumentView := do
  let d ← Access.canView r viewer docId
  let items ← r.listItems d.id
  let styles ← r.listDocumentStyles d.id
  let categories ← if viewer == "" then pure [] else do
    let rows ← r.listDocumentCategories viewer d.id
    pure (rows.map (·.name))
  let title := ((items.find? (·.id == d.rootId)).map (·.itemText)).getD ""
  pure { document := d, title := effectiveTitle title, items := items,
         styles := groupStyles styles [], categories := categories,
         tree := ItemNode.build items d.rootId, canEdit := Access.isOwner viewer d }

def rootTitle (r : Repository m) (d : Document) : m String :=
  match d.rootItemId with
  | none => pure ""
  | some i => tryCatchThe Failure (do pure (← r.getItem i).itemText)
      (fun f => if f.meets .notFound then pure "" else throw f)

def list (r : Repository m) (user : String) : m (List DocumentSummary) := do
  if user == "" then Failure.raise Failure.unauthorized
  else
    let docs ← r.listDocuments user
    let cats ← r.listUserCategories user
    docs.mapM fun d => do
      let t ← rootTitle r d
      pure { document := d, title := effectiveTitle t,
             categories := (cats.filter (·.documentId == d.id)).map (·.name) }

def checkName (name : String) : Except Failure Unit :=
  if name.isEmpty then .error (Failure.ofFields [("name", .message "cannot be blank")])
  else if name.length > maxDocumentNameLength then
    .error (Failure.ofFields [("name", FieldError.lengthMessage 1 maxDocumentNameLength)])
  else .ok ()

def checkTexts (texts : List (String × String)) : Except Failure Unit :=
  if texts.isEmpty then .error (Failure.ofFields [("items", .message "cannot be blank")])
  else if texts.length > maxEditTextItems then
    .error (Failure.ofFields [("items", FieldError.lengthMessage 1 maxEditTextItems)])
  else
    let long := (texts.filter fun e => e.2.length > maxItemTextLength).map fun e =>
      (e.1, FieldError.lengthMessage 0 maxItemTextLength)
    if long.isEmpty then .ok () else .error (Failure.ofFields [("items", FieldError.ofParts long)])

def check (c : Except Failure Unit) : m Unit :=
  match c with
  | .ok () => pure ()
  | .error f => Failure.raise f

def rename (r : Repository m) (user docId name : String) : m Unit := do
  check (checkName name)
  let d ← Access.canEdit r user docId
  r.atomically do
    r.updateText d.id d.rootId name
    r.touchDocument d.id (← r.now)

/-- Sets the texts of the document's items named in the map; other names are skipped. -/
def editTexts (r : Repository m) (user docId : String) (texts : List (String × String)) : m Unit := do
  check (checkTexts texts)
  let d ← Access.canEdit r user docId
  r.atomically do
    let items ← r.listItems d.id
    for i in items do
      match texts.find? (·.1 == i.id) with
      | some (_, t) => r.updateText d.id i.id t
      | none => pure ()
    r.touchDocument d.id (← r.now)

def setPublic (r : Repository m) (user docId : String) (v : Bool) : m Unit := do
  let d ← Access.canEdit r user docId
  r.setPubliclyViewable d.id v

def isTrashed (r : Repository m) (user docId : String) : m Bool :=
  tryCatchThe Failure (do let _ ← r.getCategory user docId Category.trash; pure true)
    (fun f => if f.meets .notFound then pure false else throw f)

/-- Puts a document away for the user; a document already put away is deleted, if the user
owns it. -/
def delete (r : Repository m) (user docId : String) : m DeleteResult := do
  if user == "" then Failure.raise Failure.unauthorized
  else
    let d ← Access.canView r user docId
    if !(← isTrashed r user d.id) then
      let _ ← r.createCategory user d.id Category.trash
      pure ⟨true, false⟩
    else if !Access.isOwner user d then
      Failure.raise (Failure.forbiddenTo ("delete document " ++ d.id))
    else
      r.deleteDocument d.id
      pure ⟨false, true⟩

def reconcile (r : Repository m) (catalog : Catalog) (limits : Limits) (user docId : String)
    (snap : Option Snapshot) : m ReconcileResult :=
  match snap with
  | none => Failure.raise (Failure.invalid "snapshot is required")
  | some s => do
    let d ← Access.canEdit r user docId
    match Plan.make catalog limits d s with
    | .error f => Failure.raise f
    | .ok p => p.write r d

def copy (r : Repository m) (user docId : String) : m Document := do
  if user == "" then Failure.raise Failure.unauthorized
  else
    let src ← Access.canView r user docId
    let items ← r.listItems src.id
    Copy.replicate r src items user

end Documents

namespace Categories

variable {m : Type → Type} [Monad m] [MonadExceptOf Failure m]

def cleanName (name : String) : Except Failure String :=
  let c := Category.sanitize name
  if c.isEmpty then .error (Failure.invalid "category name is empty") else .ok c

def viewable (r : Repository m) (user docId : String) : m Document :=
  if user == "" then Failure.raise Failure.unauthorized else Access.canView r user docId

def lift {α : Type} (c : Except Failure α) : m α :=
  match c with
  | .ok a => pure a
  | .error f => Failure.raise f

def add (r : Repository m) (user docId name : String) : m Category := do
  if name.isEmpty then Failure.raise (Failure.ofFields [("name", .message "cannot be blank")])
  else
    let clean ← lift (cleanName name)
    let d ← viewable r user docId
    r.createCategory user d.id clean

def remove (r : Repository m) (user docId name : String) : m Unit := do
  let clean ← lift (cleanName name)
  let d ← viewable r user docId
  r.deleteCategory user d.id clean

def list (r : Repository m) (user docId : String) : m (List Category) := do
  let d ← viewable r user docId
  r.listDocumentCategories user d.id

def trashed (r : Repository m) (user docId : String) : m Bool := do
  let d ← viewable r user docId
  Documents.isTrashed r user d.id

end Categories

end Outliner
