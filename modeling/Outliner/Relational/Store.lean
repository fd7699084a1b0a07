import Outliner.Relational.Client
import Outliner.Store.Repository
/-!
# The relational store

The repository over the database: each operation is one statement (two for a duplicate category,
which looks the existing one up), with the table names carrying a prefix. Rows are read column by
column; a `NULL` where a value is required stops the reading with the column's position and name.
-/

set_option autoImplicit false

namespace Outliner.Relational

/-- Steps of the relational store. -/
abbrev StoreM := ExceptT Failure DbM

/-- The table names for a prefix. -/
structure Tables where
  documents : String
  items : String
  styles : String
  categories : String
  deriving Repr, Inhabited

def Tables.ofPrefix (p : String) : Tables :=
  ⟨p ++ "documents", p ++ "items", p ++ "styles", p ++ "categories"⟩

/-! ## Reading rows -/

def scanFailure (i : Nat) (col what : String) : String :=
  "can't scan into dest[" ++ toString i ++ "] (col: " ++ col ++ "): " ++ what

/-- A row being read: its values with their positions and column names. -/
abbrev Cells := List (Nat × String × Json)

def cells (cols : List String) (row : List Json) : Cells :=
  (cols.zipIdx.map fun (c, i) => (i, c, row.getD i .null))

def cell (cs : Cells) (i : Nat) : Nat × String × Json := cs.getD i (i, "", .null)

def readText (c : Nat × String × Json) : Except String String :=
  match c.2.2 with
  | .str s => .ok s
  | .num n => .ok n
  | .bool b => .ok (if b then "true" else "false")
  | _ => .error (scanFailure c.1 c.2.1 "cannot scan NULL into *string")

def readOptText (c : Nat × String × Json) : Except String (Option String) :=
  match c.2.2 with
  | .null => .ok none
  | _ => (readText c).map some

def readBool (c : Nat × String × Json) : Except String Bool :=
  match c.2.2 with
  | .bool b => .ok b
  | _ => .error (scanFailure c.1 c.2.1 "cannot scan NULL into *bool")

def intOfText (t : String) : Int :=
  match t.toList with
  | '-' :: ds => -((ds.takeWhile Char.isDigit).foldl (fun n d => 10 * n + (d.toNat - 48)) 0 : Nat)
  | ds => ((ds.takeWhile Char.isDigit).foldl (fun n d => 10 * n + (d.toNat - 48)) 0 : Nat)

def readInt (c : Nat × String × Json) : Except String Int :=
  match c.2.2 with
  | .num n => .ok (intOfText n)
  | _ => .error (scanFailure c.1 c.2.1 "cannot scan NULL into *int32")

def readOptInt (c : Nat × String × Json) : Except String (Option Int) :=
  match c.2.2 with
  | .null => .ok none
  | _ => (readInt c).map some

def readTime (c : Nat × String × Json) : Except String Time.Instant :=
  match c.2.2 with
  | .null => .error (scanFailure c.1 c.2.1 "cannot scan NULL into *time.Time")
  | .str s => (Time.Instant.read s).mapError (scanFailure c.1 c.2.1)
  | _ => .error (scanFailure c.1 c.2.1 "cannot scan into *time.Time")

def readOptTime (c : Nat × String × Json) : Except String (Option Time.Instant) :=
  match c.2.2 with
  | .null => .ok none
  | _ => (readTime c).map some

def readDocument (cs : Cells) : Except String Document := do
  let id ← readText (cell cs 0)
  let user ← readText (cell cs 1)
  let root ← readOptText (cell cs 2)
  let toc ← readOptText (cell cs 3)
  let visible ← readBool (cell cs 4)
  let created ← readTime (cell cs 5)
  let modified ← readOptTime (cell cs 6)
  pure ⟨id, user, root, toc, visible, created, modified⟩

def readItem (cs : Cells) : Except String Item := do
  let id ← readText (cell cs 0)
  let doc ← readText (cell cs 1)
  let parent ← readOptText (cell cs 2)
  let text ← readText (cell cs 3)
  let order ← readInt (cell cs 4)
  let collapsed ← readBool (cell cs 5)
  pure ⟨id, doc, parent, text, order, collapsed⟩

def readStyle (cs : Cells) : Except String Style := do
  let item ← readText (cell cs 0)
  let property ← readText (cell cs 1)
  let number ← readOptInt (cell cs 2)
  let text ← readOptText (cell cs 3)
  let unit ← readOptText (cell cs 4)
  pure ⟨item, property, number, text, unit⟩

def readCategory (cs : Cells) : Except String Category := do
  let id ← readText (cell cs 0)
  let user ← readText (cell cs 1)
  let doc ← readText (cell cs 2)
  let name ← readText (cell cs 3)
  pure ⟨id, user, doc, name⟩

/-! ## Running statements -/

def client {α : Type} (x : DbM α) : StoreM α := ExceptT.lift x

def orFail {α : Type} (x : DbM (Except DbError α)) (f : DbError → Failure) : StoreM α := do
  match ← client x with
  | .ok a => pure a
  | .error e => throw (f e)

def wrapped (step : String) (e : DbError) : Failure := Failure.storage (step ++ ": " ++ e.text)

/-- The first row of a query read with `read`: no row is `noRows`, a reading failure or the
failure that ended the rows comes first. -/
def queryRow {α : Type} (sql : String) (params : List Param) (read : Cells → Except String α) :
    DbM (Except DbError α) := do
  match ← query sql params with
  | .error e => pure (.error e)
  | .ok r =>
    match r.rows with
    | row :: _ =>
      match read (cells r.columns row) with
      | .error t => pure (.error (.other t))
      | .ok a =>
        match r.error with
        | some e => pure (.error e)
        | none => pure (.ok a)
    | [] =>
      match r.error with
      | some e => pure (.error e)
      | none => pure (.error (.noRows []))

/-- All rows of a query read with `read`: the query's own failure goes to `onQuery`, a reading
failure is prefixed with `scan <what>`, and the failure that ended the rows with
`iterate <whats>`. -/
def queryAll {α : Type} (sql : String) (params : List Param) (read : Cells → Except String α)
    (onQuery : DbError → Failure) (what whats : String) : StoreM (List α) := do
  let r ← orFail (query sql params) onQuery
  let rows ← r.rows.mapM fun row =>
    match read (cells r.columns row) with
    | .ok a => pure a
    | .error t => throw (Failure.storage ("scan " ++ what ++ ": " ++ t))
  match r.error with
  | some e => throw (Failure.storage ("iterate " ++ whats ++ ": " ++ e.text))
  | none => pure rows

def execOne (sql : String) (params : List Param) (op resource id : String) (missing : Failure) :
    StoreM Unit := do
  let n ← orFail (exec sql params) fun e => e.translate op resource id
  if n = 0 then throw missing

def optParam : Option String → Param
  | some s => .text s
  | none => .null

/-! ## Documents -/

def documentColumns : String :=
  "id, user_id, root_item_id, toc_item_id, publicly_viewable, created_at, modified_at"

def itemColumns : String := "id, document_id, parent_id, item_text, child_order, collapsed"

variable (t : Tables)

def createDocument (user : String) (visible : Bool) (time : Time.Instant) : StoreM Document := do
  let sql := "INSERT INTO " ++ t.documents ++ " (user_id, publicly_viewable, created_at, modified_at) VALUES ($1, $2, $3, $4) RETURNING id, created_at"
  let (id, created) ← orFail (queryRow sql [.text user, .bool visible, .time time, .time time] fun cs => do
      let id ← readText (cell cs 0)
      let created ← readTime (cell cs 1)
      pure (id, created))
    (wrapped "create document")
  pure ⟨id, user, none, none, visible, created, some time⟩

def getDocument (id : String) : StoreM Document :=
  orFail (queryRow ("SELECT " ++ documentColumns ++ " FROM " ++ t.documents ++ " WHERE id = $1") [.text id] readDocument)
    fun e => e.translate "get document" "document" id

def listDocuments (user : String) : StoreM (List Document) :=
  queryAll ("SELECT " ++ documentColumns ++ " FROM " ++ t.documents ++ " WHERE user_id = $1 ORDER BY created_at DESC")
    [.text user] readDocument (wrapped "list documents") "document" "documents"

def setRootItem (id root : String) : StoreM Unit := do
  let n ← orFail (exec ("UPDATE " ++ t.documents ++ " SET root_item_id = $2 WHERE id = $1 AND root_item_id IS NULL")
    [.text id, .text root]) fun e => e.translate "set root item" "document" id
  if n = 0 then throw ⟨.alreadyExists, "document " ++ id ++ " has a root item or does not exist: already exists"⟩

def lockDocument (id : String) : StoreM Unit := do
  let _ ← orFail (queryRow ("SELECT id FROM " ++ t.documents ++ " WHERE id = $1 FOR UPDATE") [.text id]
    fun cs => readText (cell cs 0)) fun e => e.translate "lock document" "document" id

def noDocument (id : String) : Failure := Failure.notFound ("document " ++ id)

def setTocItem (id : String) (toc : Option String) : StoreM Unit :=
  execOne ("UPDATE " ++ t.documents ++ " SET toc_item_id = $2 WHERE id = $1") [.text id, optParam toc]
    "set toc item" "document" id (noDocument id)

def setPubliclyViewable (id : String) (v : Bool) : StoreM Unit :=
  execOne ("UPDATE " ++ t.documents ++ " SET publicly_viewable = $2 WHERE id = $1") [.text id, .bool v]
    "set publicly viewable" "document" id (noDocument id)

def touchDocument (id : String) (time : Time.Instant) : StoreM Unit :=
  execOne ("UPDATE " ++ t.documents ++ " SET modified_at = $2 WHERE id = $1") [.text id, .time time]
    "touch document" "document" id (noDocument id)

def deleteDocument (id : String) : StoreM Unit :=
  execOne ("DELETE FROM " ++ t.documents ++ " WHERE id = $1") [.text id] "delete document" "document" id (noDocument id)

/-! ## Items -/

def createItem (i : Item) : StoreM Item := do
  let sql := "INSERT INTO " ++ t.items ++ " (document_id, parent_id, item_text, child_order, collapsed) VALUES ($1, $2, $3, $4, $5) RETURNING id"
  let id ← orFail (queryRow sql [.text i.documentId, optParam i.parentId, .text i.itemText, .int i.childOrder,
      .bool i.collapsed] fun cs => readText (cell cs 0))
    fun e => e.translate "create item" "document" i.documentId
  pure { i with id := id }

def getItem (id : String) : StoreM Item :=
  orFail (queryRow ("SELECT " ++ itemColumns ++ " FROM " ++ t.items ++ " WHERE id = $1") [.text id] readItem)
    fun e => e.translate "get item" "item" id

def listItems (doc : String) : StoreM (List Item) :=
  queryAll ("SELECT " ++ itemColumns ++ " FROM " ++ t.items ++ " WHERE document_id = $1 ORDER BY parent_id NULLS FIRST, child_order")
    [.text doc] readItem (fun e => e.translate "list items" "item" doc) "item" "items"

def listChildren (p : String) : StoreM (List Item) :=
  queryAll ("SELECT " ++ itemColumns ++ " FROM " ++ t.items ++ " WHERE parent_id = $1 ORDER BY child_order")
    [.text p] readItem (fun e => e.translate "list children" "item" p) "item" "items"

def deleteChildren (p : String) : StoreM Nat :=
  orFail (exec ("DELETE FROM " ++ t.items ++ " WHERE parent_id = $1") [.text p])
    fun e => e.translate "delete children" "item" p

def deleteItem (id : String) : StoreM Unit :=
  execOne ("DELETE FROM " ++ t.items ++ " WHERE id = $1") [.text id] "delete item" "item" id
    (Failure.notFound ("item " ++ id))

def updateText (doc id text : String) : StoreM Unit :=
  execOne ("UPDATE " ++ t.items ++ " SET item_text = $3 WHERE id = $1 AND document_id = $2") [.text id, .text doc, .text text]
    "update item text" "item" id (Failure.notFound ("item " ++ id))

/-! ## Styles -/

def listItemStyles (item : String) : StoreM (List Style) :=
  queryAll ("SELECT item_id, property, value_number, value_string, unit FROM " ++ t.styles ++ " WHERE item_id = $1 ORDER BY property")
    [.text item] readStyle (fun e => e.translate "list styles" "item" item) "style" "styles"

def listDocumentStyles (doc : String) : StoreM (List Style) :=
  queryAll ("SELECT s.item_id, s.property, s.value_number, s.value_string, s.unit FROM " ++ t.styles ++ " s JOIN " ++
      t.items ++ " i ON i.id = s.item_id WHERE i.document_id = $1 ORDER BY s.item_id, s.property")
    [.text doc] readStyle (fun e => e.translate "list styles" "item" doc) "style" "styles"

def styleParams (st : Style) : List Param :=
  [.text st.itemId, .text st.property, (st.valueNumber.map Param.int).getD .null, optParam st.valueString, optParam st.unit]

def insertStyle (st : Style) : StoreM Unit := do
  let _ ← orFail (exec ("INSERT INTO " ++ t.styles ++ " (item_id, property, value_number, value_string, unit) VALUES ($1, $2, $3, $4, $5)")
    (styleParams st)) fun e => e.translate "insert style" "style" (st.itemId ++ "/" ++ st.property)

def updateStyle (st : Style) : StoreM Unit :=
  execOne ("UPDATE " ++ t.styles ++ " SET value_number = $3, value_string = $4, unit = $5 WHERE item_id = $1 AND property = $2")
    (styleParams st) "update style" "style" (st.itemId ++ "/" ++ st.property)
    (Failure.notFound ("style " ++ st.itemId ++ "/" ++ st.property))

/-! ## Categories -/

def categoryColumns : String := "id, user_id, document_id, category_name"

def getCategory (user doc name : String) : StoreM Category :=
  orFail (queryRow ("SELECT " ++ categoryColumns ++ " FROM " ++ t.categories ++
      " WHERE user_id = $1 AND document_id = $2 AND category_name = $3") [.text user, .text doc, .text name] readCategory)
    fun e => e.translate "get category" "category" name

/-- Inserts a category; a duplicate answers a conflict naming the existing one. -/
def createCategory (user doc name : String) : StoreM Category := do
  let sql := "INSERT INTO " ++ t.categories ++ " (user_id, document_id, category_name) VALUES ($1, $2, $3) RETURNING id"
  match ← client (queryRow sql [.text user, .text doc, .text name] fun cs => readText (cell cs 0)) with
  | .ok id => pure ⟨id, user, doc, name⟩
  | .error e =>
    if e.code = "23505" then
      match ← tryCatch (some <$> getCategory t user doc name) (fun _ => pure none) with
      | none => throw ⟨.alreadyExists, "category '" ++ name ++ "' already exists: already exists"⟩
      | some existing =>
        let m := "category '" ++ name ++ "' already exists on this document"
        throw ⟨.conflict m "category" existing.id, m⟩
    else throw (e.translate "create category" "document" doc)

def listCategoriesBy (sql : String) (params : List Param) : StoreM (List Category) :=
  let key := String.join (params.map fun p => match p with
    | .text s => s
    | _ => "")
  queryAll sql params readCategory (fun e => e.translate "list categories" "document" key) "category" "categories"

def listDocumentCategories (user doc : String) : StoreM (List Category) :=
  listCategoriesBy ("SELECT " ++ categoryColumns ++ " FROM " ++ t.categories ++
    " WHERE user_id = $1 AND document_id = $2 ORDER BY category_name") [.text user, .text doc]

def listUserCategories (user : String) : StoreM (List Category) :=
  listCategoriesBy ("SELECT " ++ categoryColumns ++ " FROM " ++ t.categories ++
    " WHERE user_id = $1 ORDER BY document_id, category_name") [.text user]

def deleteCategory (user doc name : String) : StoreM Unit :=
  execOne ("DELETE FROM " ++ t.categories ++ " WHERE user_id = $1 AND document_id = $2 AND category_name = $3")
    [.text user, .text doc, .text name] "delete category" "category" name (Failure.notFound ("category " ++ name))

/-! ## Transactions -/

/-- Runs a block as one transaction, or inside the open one. The block may run in any monad
that can run store steps through `lift`, so that it can keep its own state across a failure. -/
def atomicallyIn {m : Type → Type} [Monad m] [MonadExceptOf Failure m]
    (lift : {β : Type} → StoreM β → m β) {α : Type} (body : m α) : m α := do
  if (← lift (client get)).inTx then body
  else
    lift (orFail beginTx (wrapped "begin transaction"))
    lift (client (modify fun db => { db with inTx := true }))
    let r : Except Failure α ← tryCatch (Except.ok <$> body) (fun f => pure (Except.error f))
    lift (client (modify fun db => { db with inTx := false }))
    match r with
    | .error f =>
      lift (client rollbackTx)
      throw f
    | .ok a =>
      lift (orFail commitTx (wrapped "commit transaction"))
      pure a

def atomically {α : Type} (body : StoreM α) : StoreM α := atomicallyIn id body

/-- The relational store as a repository, with the clock standing at `time`. -/
def repository (time : Time.Instant) : Repository StoreM where
  now := pure time
  createDocument := createDocument t
  getDocument := getDocument t
  listDocuments := listDocuments t
  setRootItem := setRootItem t
  lockDocument := lockDocument t
  setTocItem := setTocItem t
  setPubliclyViewable := setPubliclyViewable t
  touchDocument := touchDocument t
  deleteDocument := deleteDocument t
  createItem := createItem t
  getItem := getItem t
  listItems := listItems t
  listChildren := listChildren t
  deleteChildren := deleteChildren t
  deleteItem := deleteItem t
  updateText := updateText t
  listItemStyles := listItemStyles t
  listDocumentStyles := listDocumentStyles t
  insertStyle := insertStyle t
  updateStyle := updateStyle t
  createCategory := createCategory t
  getCategory := getCategory t
  listDocumentCategories := listDocumentCategories t
  listUserCategories := listUserCategories t
  deleteCategory := deleteCategory t
  atomically := atomically

end Outliner.Relational
