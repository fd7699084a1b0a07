import Outliner.Store.Repository
import Outliner.Ident.Uuid
/-!
# The in-memory store

A store held as a value: documents, items (each with the sequence number of its creation), styles
and categories, and three counters that only grow: ids minted, item sequence numbers used, and item
creations attempted. Ids are minted from the first counter (`Uuid.minted`) and only when a row is
written.
-/

set_option autoImplicit false

namespace Outliner

/-- The rows of the store. -/
structure Tables where
  documents : List Document
  /-- Items with the sequence number of their creation. -/
  items : List (Item × Nat)
  styles : List Style
  categories : List Category
  deriving Repr, Inhabited

/-- The in-memory store. -/
structure Memory where
  tables : Tables
  /-- Ids minted so far. -/
  minted : Nat
  /-- Item sequence numbers used so far. -/
  sequence : Nat
  /-- Item creations attempted so far. -/
  itemCreates : Nat
  /-- The item creation (counted from 1) that fails; 0 for none. -/
  failItemCreateAt : Nat
  /-- Whether a transaction is open. -/
  inTransaction : Bool
  /-- The `n`-th reading of the clock. -/
  clock : Nat → Time.Instant
  /-- Readings of the clock so far. -/
  readings : Nat
  deriving Inhabited

/-- Operations on the in-memory store: they fail with a `Failure` and keep what they wrote
before failing. -/
abbrev MemoryM := ExceptT Failure (StateM Memory)

namespace Memory

def empty (failAt : Nat) (clock : Nat → Time.Instant) : Memory :=
  ⟨⟨[], [], [], []⟩, 0, 0, 0, failAt, false, clock, 0⟩

def now : MemoryM Time.Instant := do
  let s ← get
  set { s with readings := s.readings + 1 }
  pure (s.clock (s.readings + 1))

def mint : MemoryM String := do
  let s ← get
  set { s with minted := s.minted + 1 }
  pure (Uuid.minted (s.minted + 1))

def modifyTables (f : Tables → Tables) : MemoryM Unit :=
  modify fun s => { s with tables := f s.tables }

def tablesNow : MemoryM Tables := do pure (← get).tables

/-! ## Documents -/

def document? (t : Tables) (id : String) : Option Document := t.documents.find? (·.id == id)

def noDocument (id : String) : Failure := Failure.notFound ("document " ++ id)

/-- Changes a document that exists. -/
def updateDocument (id : String) (f : Document → Except Failure Document) : MemoryM Unit := do
  let t ← tablesNow
  match document? t id with
  | none => throw (noDocument id)
  | some d =>
    let d' ← liftExcept (f d)
    modifyTables fun t => { t with documents := t.documents.map fun e => if e.id == id then d' else e }
where
  liftExcept {α : Type} : Except Failure α → MemoryM α
    | .ok a => pure a
    | .error e => throw e

def createDocument (user : String) (visible : Bool) (time : Time.Instant) : MemoryM Document := do
  let id ← mint
  let d : Document := ⟨id, user, none, none, visible, time, some time⟩
  modifyTables fun t => { t with documents := t.documents ++ [d] }
  pure d

def getDocument (id : String) : MemoryM Document := do
  match document? (← tablesNow) id with
  | some d => pure d
  | none => throw (noDocument id)

def listDocuments (user : String) : MemoryM (List Document) := do
  pure (Time.newestFirst Document.createdAt ((← tablesNow).documents.filter (·.userId == user)))

def setRootItem (id root : String) : MemoryM Unit :=
  updateDocument id fun d =>
    if d.rootItemId.isSome then .error ⟨.alreadyExists, "already exists"⟩
    else .ok { d with rootItemId := some root }

def lockDocument (id : String) : MemoryM Unit := do
  let _ ← getDocument id

def setTocItem (id : String) (toc : Option String) : MemoryM Unit :=
  updateDocument id fun d => .ok { d with tocItemId := toc }

def setPubliclyViewable (id : String) (v : Bool) : MemoryM Unit :=
  updateDocument id fun d => .ok { d with publiclyViewable := v }

def touchDocument (id : String) (time : Time.Instant) : MemoryM Unit :=
  updateDocument id fun d => .ok { d with modifiedAt := some time }

/-! ## Items -/

def item? (t : Tables) (id : String) : Option Item := (t.items.find? (·.1.id == id)).map (·.1)

/-- Whether item `a` comes before item `b` in list order. -/
def itemBefore (a b : Item × Nat) : Bool :=
  match a.1.parentId, b.1.parentId with
  | none, some _ => true
  | some _, none => false
  | some p, some q =>
    if p ≠ q then p < q
    else if a.1.childOrder ≠ b.1.childOrder then a.1.childOrder < b.1.childOrder
    else a.2 ≤ b.2
  | none, none =>
    if a.1.childOrder ≠ b.1.childOrder then a.1.childOrder < b.1.childOrder
    else a.2 ≤ b.2

def sortedItems (t : Tables) (keep : Item → Bool) : List Item :=
  ((t.items.filter (fun e => keep e.1)).mergeSort itemBefore).map (·.1)

def dropItem (id : String) (t : Tables) : Tables :=
  { t with
    items := t.items.filter fun e => e.1.id != id
    styles := t.styles.filter fun s => s.itemId != id
    documents := t.documents.map fun d =>
      if d.tocItemId == some id then { d with tocItemId := none } else d }

def childIds (t : Tables) (p : String) : List String :=
  (t.items.filter fun e => e.1.isChildOf p).map (·.1.id)

def unheld (items : List (Item × Nat)) (stack : List String) : Nat :=
  (stack.filter fun y => !items.any (·.1.id == y)).length

theorem cascade_decreases (cur : String) (rest : List String) (t : Tables) :
    Prod.Lex (· < ·) (· < ·)
      ((dropItem cur t).items.length, unheld (dropItem cur t).items ((childIds t cur).reverse ++ rest))
      (t.items.length, unheld t.items (cur :: rest)) := by
  by_cases hheld : t.items.any (·.1.id == cur)
  · obtain ⟨e, he, hid⟩ := List.any_eq_true.mp hheld
    exact Prod.Lex.left _ _ (List.length_filter_lt_length_iff_exists.mpr ⟨e, he, by simpa using hid⟩)
  · have hsame : (dropItem cur t).items = t.items := List.filter_eq_self.mpr fun e he => by
      simp only [List.any_eq_true, not_exists, not_and] at hheld
      simpa using hheld e he
    have hkids : ∀ y ∈ (childIds t cur).reverse, t.items.any (·.1.id == y) := by
      intro y hy
      obtain ⟨e, he, rfl⟩ := List.mem_map.mp (List.mem_reverse.mp hy)
      exact List.any_eq_true.mpr ⟨e, (List.mem_filter.mp he).1, by simp⟩
    have hnone : (childIds t cur).reverse.filter (fun y => !t.items.any (·.1.id == y)) = [] :=
      List.filter_eq_nil_iff.mpr fun y hy => by simp [hkids y hy]
    rw [hsame]
    refine Prod.Lex.right _ ?_
    simp only [unheld, List.filter_append, hnone, List.filter_cons, hheld, Bool.not_false, ite_true,
      List.nil_append, List.length_cons]
    omega

def cascade : List String → Tables → Tables
  | [], t => t
  | cur :: rest, t => cascade ((childIds t cur).reverse ++ rest) (dropItem cur t)
termination_by stack t => (t.items.length, unheld t.items stack)
decreasing_by exact cascade_decreases cur rest t

def cascadeEach (ids : List String) (t : Tables) : Tables :=
  ids.foldl (fun t id => cascade [id] t) t

/-- Creates an item under checks: the document must exist, and the parent, if any, must be
an item of the same document. -/
def createItem (i : Item) : MemoryM Item := do
  let s ← get
  set { s with itemCreates := s.itemCreates + 1 }
  if s.failItemCreateAt > 0 && s.itemCreates + 1 == s.failItemCreateAt then
    throw (Failure.storage "injected storage failure")
  let t := s.tables
  if (document? t i.documentId).isNone then
    throw ⟨.validation, "create item: validation failed"⟩
  match i.parentId with
  | some p =>
    match item? t p with
    | some q => if q.documentId ≠ i.documentId then
        throw ⟨.validation, "create item: parent " ++ p ++ ": validation failed"⟩
    | none => throw ⟨.validation, "create item: parent " ++ p ++ ": validation failed"⟩
  | none => pure ()
  let id ← mint
  let s ← get
  let i' := { i with id := id }
  set { s with sequence := s.sequence + 1,
               tables := { s.tables with items := s.tables.items ++ [(i', s.sequence + 1)] } }
  pure i'

def getItem (id : String) : MemoryM Item := do
  match item? (← tablesNow) id with
  | some i => pure i
  | none => throw (Failure.notFound ("item " ++ id))

def listItems (doc : String) : MemoryM (List Item) := do
  pure (sortedItems (← tablesNow) (·.documentId == doc))

def listChildren (p : String) : MemoryM (List Item) := do
  pure (sortedItems (← tablesNow) (Item.isChildOf p))

def deleteChildren (p : String) : MemoryM Nat := do
  let direct := childIds (← tablesNow) p
  modifyTables (cascadeEach direct)
  pure direct.length

def deleteItem (id : String) : MemoryM Unit := do
  let _ ← getItem id
  modifyTables (cascade [id])

def updateText (doc id text : String) : MemoryM Unit := do
  match item? (← tablesNow) id with
  | some i =>
    if i.documentId ≠ doc then throw (Failure.notFound ("item " ++ id))
    modifyTables fun t => { t with items := t.items.map fun e =>
      if e.1.id == id then ({ e.1 with itemText := text }, e.2) else e }
  | none => throw (Failure.notFound ("item " ++ id))

/-! ## Styles -/

def listItemStyles (i : String) : MemoryM (List Style) := do
  pure (((← tablesNow).styles.filter (·.itemId == i)).mergeSort (fun a b => a.property ≤ b.property))

def listDocumentStyles (doc : String) : MemoryM (List Style) := do
  let t ← tablesNow
  pure (t.styles.filter fun s => ((item? t s.itemId).map (·.documentId)).getD "" == doc)

def insertStyle (st : Style) : MemoryM Unit := do
  let t ← tablesNow
  if (item? t st.itemId).isNone then throw ⟨.validation, "insert style: validation failed"⟩
  if t.styles.any (fun s => s.itemId == st.itemId && s.property == st.property) then
    throw ⟨.conflict "style exists" "style" "", "style exists"⟩
  modifyTables fun t => { t with styles := t.styles ++ [st] }

def updateStyle (st : Style) : MemoryM Unit := do
  let t ← tablesNow
  if !t.styles.any (fun s => s.itemId == st.itemId && s.property == st.property) then
    throw (Failure.notFound ("style " ++ st.property))
  modifyTables fun t => { t with styles := t.styles.map fun s =>
    if s.itemId == st.itemId && s.property == st.property then st else s }

/-! ## Categories -/

def category? (t : Tables) (user doc name : String) : Option Category :=
  t.categories.find? fun c => c.userId == user && c.documentId == doc && c.name == name

def createCategory (user doc name : String) : MemoryM Category := do
  match category? (← tablesNow) user doc name with
  | some c => throw ⟨.conflict "category exists" "category" c.id, "category exists"⟩
  | none =>
    let id ← mint
    let c : Category := ⟨id, user, doc, name⟩
    modifyTables fun t => { t with categories := t.categories ++ [c] }
    pure c

def getCategory (user doc name : String) : MemoryM Category := do
  match category? (← tablesNow) user doc name with
  | some c => pure c
  | none => throw (Failure.notFound ("category " ++ name))

def categoriesWhere (keep : Category → Bool) : MemoryM (List Category) := do
  pure (((← tablesNow).categories.filter keep).mergeSort (fun a b => a.name ≤ b.name))

def deleteCategory (user doc name : String) : MemoryM Unit := do
  match category? (← tablesNow) user doc name with
  | some c => modifyTables fun t => { t with categories := t.categories.filter (·.id != c.id) }
  | none => throw (Failure.notFound ("category " ++ name))

def deleteDocument (id : String) : MemoryM Unit := do
  let t ← tablesNow
  if (document? t id).isNone then throw (noDocument id)
  let roots := (t.items.filter fun e => e.1.documentId == id && e.1.parentId.isNone).map (·.1.id)
  modifyTables fun t =>
    let t := cascadeEach roots t
    { t with categories := t.categories.filter (·.documentId != id),
             documents := t.documents.filter (·.id != id) }

/-! ## Transactions -/

/-- Runs a block as one transaction on a store kept inside a larger state `σ`, reached
through `view` and `update`: inside an open transaction the block joins it, and a block that
fails puts the tables back as they were before it. Counters keep their progress. -/
def atomicallyVia {σ α : Type} (view : σ → Memory) (update : σ → Memory → σ)
    (body : ExceptT Failure (StateM σ) α) : ExceptT Failure (StateM σ) α := do
  let w ← get
  let s := view w
  if s.inTransaction then body
  else
    set (update w { s with inTransaction := true })
    tryCatch
      (do
        let a ← body
        modify fun w' => update w' { view w' with inTransaction := false }
        pure a)
      (fun f => do
        modify fun w' => update w' { view w' with tables := s.tables, inTransaction := false }
        throw f)

def atomically {α : Type} (body : MemoryM α) : MemoryM α :=
  atomicallyVia id (fun _ m => m) body

/-! ## Views of the whole store -/

def documentsById (m : Memory) : List Document :=
  m.tables.documents.mergeSort (fun a b => a.id ≤ b.id)

def itemsInOrder (m : Memory) : List Item := sortedItems m.tables (fun _ => true)

def stylesInOrder (m : Memory) : List Style := Style.sorted m.tables.styles

def categoriesById (m : Memory) : List Category :=
  m.tables.categories.mergeSort (fun a b => a.id ≤ b.id)

/-- The in-memory store as a repository. -/
def repository : Repository MemoryM where
  now := now
  createDocument := createDocument
  getDocument := getDocument
  listDocuments := listDocuments
  setRootItem := setRootItem
  lockDocument := lockDocument
  setTocItem := setTocItem
  setPubliclyViewable := setPubliclyViewable
  touchDocument := touchDocument
  deleteDocument := deleteDocument
  createItem := createItem
  getItem := getItem
  listItems := listItems
  listChildren := listChildren
  deleteChildren := deleteChildren
  deleteItem := deleteItem
  updateText := updateText
  listItemStyles := listItemStyles
  listDocumentStyles := listDocumentStyles
  insertStyle := insertStyle
  updateStyle := updateStyle
  createCategory := createCategory
  getCategory := getCategory
  listDocumentCategories := fun user doc => categoriesWhere fun c => c.userId == user && c.documentId == doc
  listUserCategories := fun user => categoriesWhere (·.userId == user)
  deleteCategory := deleteCategory
  atomically := atomically

def zoom {σ α : Type} (view : σ → Memory) (update : σ → Memory → σ) (x : MemoryM α) :
    ExceptT Failure (StateM σ) α :=
  ExceptT.mk fun w => let (r, m) := x.run.run (view w); (r, update w m)

/-- The in-memory store kept inside a larger state, as a repository. -/
def repositoryVia {σ : Type} (view : σ → Memory) (update : σ → Memory → σ) :
    Repository (ExceptT Failure (StateM σ)) :=
  let z {α : Type} (x : MemoryM α) := zoom view update x
  { now := z now
    createDocument := fun u v t => z (createDocument u v t)
    getDocument := fun i => z (getDocument i)
    listDocuments := fun u => z (listDocuments u)
    setRootItem := fun i r => z (setRootItem i r)
    lockDocument := fun i => z (lockDocument i)
    setTocItem := fun i t => z (setTocItem i t)
    setPubliclyViewable := fun i v => z (setPubliclyViewable i v)
    touchDocument := fun i t => z (touchDocument i t)
    deleteDocument := fun i => z (deleteDocument i)
    createItem := fun i => z (createItem i)
    getItem := fun i => z (getItem i)
    listItems := fun d => z (listItems d)
    listChildren := fun p => z (listChildren p)
    deleteChildren := fun p => z (deleteChildren p)
    deleteItem := fun i => z (deleteItem i)
    updateText := fun d i t => z (updateText d i t)
    listItemStyles := fun i => z (listItemStyles i)
    listDocumentStyles := fun d => z (listDocumentStyles d)
    insertStyle := fun st => z (insertStyle st)
    updateStyle := fun st => z (updateStyle st)
    createCategory := fun u d n => z (createCategory u d n)
    getCategory := fun u d n => z (getCategory u d n)
    listDocumentCategories := fun u d =>
      z (categoriesWhere fun c => c.userId == u && c.documentId == d)
    listUserCategories := fun u => z (categoriesWhere (·.userId == u))
    deleteCategory := fun u d n => z (deleteCategory u d n)
    atomically := atomicallyVia view update }

end Memory

end Outliner
