import Outliner.Proofs.Operations
import Outliner.Service.Documents

/-!
# Calls of the services on the in-memory store

A `Call` is one call of the document or category service, by any user, logged in or not; it
runs on the in-memory store with the service's style catalog and limits. The stores that
calls reach from an empty store are `Reachable`; the store may be set to fail any one item
creation.

Every call only mints ids forward and ends outside a transaction, so every reachable store is
outside a transaction: a transaction that a later call opens is its own.
-/

set_option autoImplicit false

namespace Outliner

/-- A call of the document or category service by a user. -/
inductive Call where
  | create (user : String)
  | view (user doc : String)
  | list (user : String)
  | rename (user doc name : String)
  | editTexts (user doc : String) (texts : List (String × String))
  | setPublic (user doc : String) (visible : Bool)
  | delete (user doc : String)
  | reconcile (user doc : String) (snapshot : Option Snapshot)
  | copy (user doc : String)
  | addCategory (user doc name : String)
  | removeCategory (user doc name : String)
  | listCategories (user doc : String)
  | isTrashed (user doc : String)
  deriving Repr, Inhabited

namespace Call

open Memory

/-- Runs a call on the in-memory store; only its outcome is kept, not its answer. -/
def run (catalog : Catalog) (limits : Limits) : Call → MemoryM Unit
  | create u => (fun _ => ()) <$> Documents.create repository u
  | view u d => (fun _ => ()) <$> Documents.view repository u d
  | list u => (fun _ => ()) <$> Documents.list repository u
  | rename u d n => Documents.rename repository u d n
  | editTexts u d ts => Documents.editTexts repository u d ts
  | setPublic u d v => Documents.setPublic repository u d v
  | delete u d => (fun _ => ()) <$> Documents.delete repository u d
  | reconcile u d s => (fun _ => ()) <$> Documents.reconcile repository catalog limits u d s
  | copy u d => (fun _ => ()) <$> Documents.copy repository u d
  | addCategory u d n => (fun _ => ()) <$> Categories.add repository u d n
  | removeCategory u d n => Categories.remove repository u d n
  | listCategories u d => (fun _ => ()) <$> Categories.list repository u d
  | isTrashed u d => (fun _ => ()) <$> Categories.trashed repository u d

end Call

/-- A clock one second further at each reading, from the Unix epoch. -/
def secondsClock (n : Nat) : Time.Instant := ⟨n, 0, 0⟩

/-- The stores reached from an empty store by calls of a service with a catalog and limits. -/
inductive Reachable (catalog : Catalog) (limits : Limits) : Memory → Prop
  | empty (failAt : Nat) (clock : Nat → Time.Instant) : Reachable catalog limits (Memory.empty failAt clock)
  | step {m : Memory} (c : Call) (h : Reachable catalog limits m) :
      Reachable catalog limits (Memory.exec (c.run catalog limits) m).2

namespace Memory

variable {α β : Type}

/-! ## Combining steps over lists -/

theorem ReadsOnly.map {x : MemoryM α} (hx : ReadsOnly x) (g : α → β) : ReadsOnly (g <$> x) := by
  intro m
  rw [exec_map]
  exact hx m

theorem Advances.map {x : MemoryM α} (hx : Advances x) (g : α → β) : Advances (g <$> x) := by
  intro m
  rw [exec_map]
  exact hx m

theorem ReadsOnly.mapM {f : α → MemoryM β} (hf : ∀ a, ReadsOnly (f a)) (xs : List α) :
    ReadsOnly (xs.mapM f) := by
  induction xs with
  | nil => exact ReadsOnly.pure _
  | cons x xs ih =>
    rw [List.mapM_cons]
    exact (hf x).bind fun _ => ih.bind fun _ => ReadsOnly.pure _

theorem Advances.forIn {γ : Type} {f : α → γ → MemoryM (ForInStep γ)} (hf : ∀ a b, Advances (f a b))
    (xs : List α) (b : γ) : Advances (forIn xs b f) := by
  induction xs generalizing b with
  | nil => exact Advances.pure b
  | cons x xs ih =>
    rw [List.forIn_cons]
    refine (hf x b).bind fun s => ?_
    cases s with
    | done b' => exact Advances.pure b'
    | yield b' => exact ih b'

/-! ## Access checks read only -/

theorem readsOnly_canView (user docId : String) : ReadsOnly (Access.canView repository user docId) :=
  ((readsOnly_getDocument docId).during _).bind fun _ =>
    ReadsOnly.ite (ReadsOnly.pure _) (ReadsOnly.ite (ReadsOnly.raise _) (ReadsOnly.raise _))

theorem readsOnly_canEdit (user docId : String) : ReadsOnly (Access.canEdit repository user docId) :=
  ReadsOnly.ite (ReadsOnly.raise _) (((readsOnly_getDocument docId).during _).bind fun _ =>
    ReadsOnly.ite (ReadsOnly.pure _) (ReadsOnly.raise _))

theorem readsOnly_isTrashed (user docId : String) : ReadsOnly (Documents.isTrashed repository user docId) :=
  ((readsOnly_getCategory user docId _).bind fun _ => ReadsOnly.pure _).tryCatch fun _ =>
    ReadsOnly.ite (ReadsOnly.pure _) (ReadsOnly.raise _)

theorem readsOnly_viewable (user docId : String) :
    ReadsOnly (Categories.viewable repository user docId) :=
  ReadsOnly.ite (ReadsOnly.raise _) (readsOnly_canView user docId)

theorem readsOnly_check (c : Except Failure Unit) : ReadsOnly (Documents.check c : MemoryM Unit) := by
  cases c with
  | ok u => exact ReadsOnly.pure u
  | error e => exact ReadsOnly.raise e

theorem readsOnly_lift (c : Except Failure α) : ReadsOnly (Categories.lift c : MemoryM α) := by
  cases c with
  | ok a => exact ReadsOnly.pure a
  | error e => exact ReadsOnly.raise e

theorem readsOnly_view (user docId : String) : ReadsOnly (Documents.view repository user docId) := by
  unfold Documents.view
  dsimp only
  refine (readsOnly_canView user docId).bind fun d => (readsOnly_listItems d.id).bind fun _ =>
    (readsOnly_listDocumentStyles d.id).bind fun _ => ReadsOnly.ite ?_ ?_
  · exact (ReadsOnly.pure _).bind fun _ => ReadsOnly.pure _
  · exact (readsOnly_categoriesWhere _).bind fun _ => (ReadsOnly.pure _).bind fun _ => ReadsOnly.pure _

theorem readsOnly_rootTitle (d : Document) : ReadsOnly (Documents.rootTitle repository d) := by
  unfold Documents.rootTitle
  cases d.rootItemId with
  | none => exact ReadsOnly.pure _
  | some i =>
    exact ((readsOnly_getItem i).bind fun _ => ReadsOnly.pure _).tryCatch fun _ =>
      ReadsOnly.ite (ReadsOnly.pure _) (ReadsOnly.raise _)

theorem readsOnly_list (user : String) : ReadsOnly (Documents.list repository user) :=
  ReadsOnly.ite (ReadsOnly.raise _) ((readsOnly_listDocuments user).bind fun _ =>
    (readsOnly_categoriesWhere _).bind fun _ =>
      ReadsOnly.mapM (fun d => (readsOnly_rootTitle d).bind fun _ => ReadsOnly.pure _) _)

theorem readsOnly_listCategories (user docId : String) :
    ReadsOnly (Categories.list repository user docId) :=
  (readsOnly_viewable user docId).bind fun _ => readsOnly_categoriesWhere _

theorem readsOnly_trashed (user docId : String) :
    ReadsOnly (Categories.trashed repository user docId) :=
  (readsOnly_viewable user docId).bind fun d => readsOnly_isTrashed user d.id

/-! ## Every write advances the store -/

theorem advances_applyStyles (itemId : String) (edits : List StyleEdit) (present : List String) :
    Advances (StyleWrite.apply repository itemId edits present) := by
  induction edits generalizing present with
  | nil => exact Advances.pure _
  | cons e es ih =>
    unfold StyleWrite.apply
    dsimp only
    exact Advances.ite (((advances_updateStyle _).during _).bind fun _ =>
        (ih present).bind fun _ => Advances.pure _)
      (((advances_insertStyle _).during _).bind fun _ => (ih _).bind fun _ => Advances.pure _)

theorem advances_upsertStyles (itemId : String) (edits : List StyleEdit) :
    Advances (StyleWrite.upsert repository itemId edits) :=
  Advances.ite (Advances.pure _)
    ((((readsOnly_listItemStyles itemId).advances).during _).bind fun _ => advances_applyStyles _ _ _)

theorem advances_createWithRoot (user : String) : Advances (Copy.createWithRoot repository user) :=
  advances_now.bind fun _ => (advances_createDocument user false _).bind fun _ =>
    ((advances_createItem _).during _).bind fun _ =>
    ((advances_updateDocument _ _).during _).bind fun _ => Advances.pure _

theorem advances_copyChildren (docId destId : String) (srcs : List Item) (visited : List String)
    (acc : List (String × String)) :
    Advances (Copy.copyChildren repository docId destId srcs visited acc) := by
  induction srcs generalizing visited acc with
  | nil => exact Advances.pure _
  | cons src rest ih =>
    exact Advances.ite (ih _ _) (((advances_createItem _).during _).bind fun _ => ih _ _)

theorem advances_copyWalk (docId : String) (items : List Item) (fuel : Nat)
    (stack : List (String × String)) (visited : List String) :
    Advances (Copy.walk repository docId items fuel stack visited) := by
  induction fuel generalizing stack visited with
  | zero => exact Advances.pure _
  | succ fuel ih =>
    cases stack with
    | nil => exact Advances.pure _
    | cons frame stack =>
      exact (advances_copyChildren _ _ _ _ _).bind fun _ => ih _ _

theorem advances_replicate (source : Document) (items : List Item) (user : String) :
    Advances (Copy.replicate repository source items user) := by
  unfold Copy.replicate
  cases items.find? (·.id == source.rootId) with
  | none => exact Advances.raise _
  | some srcRoot =>
    exact Advances.atomically (((advances_createWithRoot user).during _).bind fun _ =>
      ((advances_updateText _ _ _).during _).bind fun _ =>
        (advances_copyWalk _ _ _ _ _).bind fun _ => Advances.pure _)

theorem advances_createNodes (docId : String) (p : Plan) (nodes : List PlannedNode)
    (acc : List String) : Advances (Plan.createNodes repository docId p nodes acc) := by
  induction nodes generalizing acc with
  | nil => exact Advances.pure _
  | cons n ns ih =>
    unfold Plan.createNodes
    dsimp only
    exact ((advances_createItem _).during _).bind fun _ => Advances.ite
      (((advances_applyStyles _ _ _).during _).bind fun _ => ih _) (ih _)

theorem advances_write (d : Document) (p : Plan) : Advances (p.write repository d) := by
  unfold Plan.write
  dsimp only
  refine Advances.bind (Advances.atomically ?_) fun _ => Advances.pure _
  refine (((readsOnly_lockDocument _).advances).during _).bind fun _ =>
    ((advances_deleteChildren _).during _).bind fun removed => ?_
  -- the steps after the root's text and styles, which every branch below ends with
  have tail : Advances (do
      let persisted ← Plan.createNodes repository d.id p p.nodes []
      Failure.during "set toc item" (repository.setTocItem d.id (p.tocItemId persisted))
      let time ← repository.now
      Failure.during "touch document" (repository.touchDocument d.id time)
      pure (removed, persisted)) :=
    (advances_createNodes _ _ _ _).bind fun _ => ((advances_updateDocument _ _).during _).bind
      fun _ => advances_now.bind fun _ => ((advances_updateDocument _ _).during _).bind fun _ => Advances.pure _
  have styles : Advances (if (!p.rootStyles.isEmpty) = true then do
      let _ ← Failure.during "root styles" (StyleWrite.upsert repository p.rootItemId p.rootStyles)
      let persisted ← Plan.createNodes repository d.id p p.nodes []
      Failure.during "set toc item" (repository.setTocItem d.id (p.tocItemId persisted))
      let time ← repository.now
      Failure.during "touch document" (repository.touchDocument d.id time)
      pure (removed, persisted)
    else do
      let persisted ← Plan.createNodes repository d.id p p.nodes []
      Failure.during "set toc item" (repository.setTocItem d.id (p.tocItemId persisted))
      let time ← repository.now
      Failure.during "touch document" (repository.touchDocument d.id time)
      pure (removed, persisted)) :=
    Advances.ite (((advances_upsertStyles _ _).during _).bind fun _ => tail) tail
  split
  · exact ((advances_updateText _ _ _).during _).bind fun _ => styles
  · exact styles

theorem advances_create (user : String) : Advances (Documents.create repository user) := by
  unfold Documents.create
  exact Advances.ite (Advances.raise _)
    (Advances.atomically ((advances_createWithRoot user).bind fun _ => Advances.pure _))

theorem advances_rename (user docId name : String) :
    Advances (Documents.rename repository user docId name) := by
  unfold Documents.rename
  exact (readsOnly_check _).advances.bind fun _ => (readsOnly_canEdit user docId).advances.bind
    fun _ => Advances.atomically ((advances_updateText _ _ _).bind fun _ =>
      advances_now.bind fun _ => advances_updateDocument _ _)

theorem advances_editTexts (user docId : String) (texts : List (String × String)) :
    Advances (Documents.editTexts repository user docId texts) := by
  unfold Documents.editTexts
  refine (readsOnly_check _).advances.bind fun _ => (readsOnly_canEdit user docId).advances.bind
    fun _ => Advances.atomically ((readsOnly_listItems _).advances.bind fun _ =>
      (Advances.forIn (fun i _ => ?_) _ _).bind fun _ => advances_now.bind fun _ => advances_updateDocument _ _)
  split
  · exact (advances_updateText _ _ _).bind fun _ => Advances.pure _
  · exact Advances.pure _

theorem advances_setPublic (user docId : String) (visible : Bool) :
    Advances (Documents.setPublic repository user docId visible) :=
  (readsOnly_canEdit user docId).advances.bind fun _ => advances_updateDocument _ _

theorem advances_delete (user docId : String) : Advances (Documents.delete repository user docId) := by
  unfold Documents.delete
  exact Advances.ite (Advances.raise _) ((readsOnly_canView user docId).advances.bind fun _ =>
    (readsOnly_isTrashed user _).advances.bind fun _ => Advances.ite
      ((advances_createCategory _ _ _).bind fun _ => Advances.pure _)
      (Advances.ite (Advances.raise _) ((advances_deleteDocument _).bind fun _ => Advances.pure _)))

theorem advances_reconcile (catalog : Catalog) (limits : Limits) (user docId : String)
    (snap : Option Snapshot) :
    Advances (Documents.reconcile repository catalog limits user docId snap) := by
  unfold Documents.reconcile
  cases snap with
  | none => exact Advances.raise _
  | some s =>
    refine (readsOnly_canEdit user docId).advances.bind fun doc => ?_
    cases Plan.make catalog limits doc s with
    | error f => exact Advances.raise f
    | ok p => exact advances_write doc p

theorem advances_copy (user docId : String) : Advances (Documents.copy repository user docId) := by
  unfold Documents.copy
  exact Advances.ite (Advances.raise _) ((readsOnly_canView user docId).advances.bind fun _ =>
    (readsOnly_listItems _).advances.bind fun _ => advances_replicate _ _ _)

theorem advances_addCategory (user docId name : String) :
    Advances (Categories.add repository user docId name) := by
  unfold Categories.add
  exact Advances.ite (Advances.raise _) ((readsOnly_lift _).advances.bind fun _ =>
    (readsOnly_viewable user docId).advances.bind fun _ => advances_createCategory _ _ _)

theorem advances_removeCategory (user docId name : String) :
    Advances (Categories.remove repository user docId name) := by
  unfold Categories.remove
  exact (readsOnly_lift _).advances.bind fun _ =>
    (readsOnly_viewable user docId).advances.bind fun _ => advances_deleteCategory _ _ _

end Memory

namespace Call

open Memory

variable (catalog : Catalog) (limits : Limits)

theorem advances (c : Call) : Advances (c.run catalog limits) := by
  cases c with
  | create u => exact (advances_create u).map _
  | view u d => exact (readsOnly_view u d).advances.map _
  | list u => exact (readsOnly_list u).advances.map _
  | rename u d n => exact advances_rename u d n
  | editTexts u d ts => exact advances_editTexts u d ts
  | setPublic u d v => exact advances_setPublic u d v
  | delete u d => exact (advances_delete u d).map _
  | reconcile u d s => exact (advances_reconcile catalog limits u d s).map _
  | copy u d => exact (advances_copy u d).map _
  | addCategory u d n => exact (advances_addCategory u d n).map _
  | removeCategory u d n => exact advances_removeCategory u d n
  | listCategories u d => exact (readsOnly_listCategories u d).advances.map _
  | isTrashed u d => exact (readsOnly_trashed u d).advances.map _

end Call

namespace Reachable

open Memory

variable {catalog : Catalog} {limits : Limits}

theorem of_keeps {I : Memory → Prop} (h0 : ∀ n clock, I (Memory.empty n clock))
    (hcall : ∀ c : Call, Keeps I (c.run catalog limits)) {m : Memory}
    (h : Reachable catalog limits m) : I m := by
  induction h with
  | empty n clock => exact h0 n clock
  | step c _ ih => exact hcall c _ ih

theorem outside {m : Memory} (h : Reachable catalog limits m) : m.inTransaction = false :=
  of_keeps (fun _ _ => rfl) (fun c m hm => (Call.advances catalog limits c m).2 hm) h

end Reachable

end Outliner
