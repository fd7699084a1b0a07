import Outliner.Proofs.Calls

/-!
# Failed calls leave no trace

A call of the services that fails leaves the documents, items, styles and categories exactly
as they were, whatever made it fail: a check of its input, a missing document, a refused
permission, a conflict, a failed plan, or a storage failure at any item creation. Three
mechanisms carry this, and each call uses one of them after steps that only read:

* a write of one row checks before it writes (`atomic_updateDocument` and its siblings);
* a call of several writes runs them in one transaction, which puts the tables back;
* a failure before any write changes nothing.
-/

set_option autoImplicit false

namespace Outliner.Memory

variable {α β : Type}

theorem Atomic.map {x : MemoryM α} (hx : Atomic x) (g : α → β) : Atomic (g <$> x) := by
  intro m e m' hin h
  rw [exec_map] at h
  rcases hr : exec x m with ⟨r, m''⟩
  rw [hr] at h
  cases r with
  | ok a => cases h
  | error e' =>
    simp only [Except.map, Prod.mk.injEq] at h
    rw [← h.2]
    exact hx m e' m'' hin hr

/-! ## Single writes check before they write -/

theorem atomic_updateDocument (id : String) (f : Document → Except Failure Document) :
    Atomic (updateDocument id f) := by
  intro m e m' _ h
  rcases updateDocument_cases id f m with ⟨e', h'⟩ | ⟨d, d', -, -, h'⟩ <;> rw [h'] at h
  · rw [(Prod.mk.inj h).2.symm]
  · cases h

theorem atomic_createCategory (user doc name : String) : Atomic (createCategory user doc name) := by
  intro m e m' _ h
  rcases createCategory_cases user doc name m with ⟨e', h'⟩ | ⟨-, h'⟩ <;> rw [h'] at h
  · rw [(Prod.mk.inj h).2.symm]
  · cases h

theorem atomic_deleteCategory (user doc name : String) : Atomic (deleteCategory user doc name) := by
  intro m e m' _ h
  rcases deleteCategory_cases user doc name m with ⟨e', h'⟩ | ⟨c, -, h'⟩ <;> rw [h'] at h
  · rw [(Prod.mk.inj h).2.symm]
  · cases h

theorem atomic_deleteDocument (id : String) : Atomic (deleteDocument id) := by
  intro m e m' _ h
  rcases deleteDocument_cases id m with ⟨-, h'⟩ | ⟨-, h'⟩ <;> rw [h'] at h
  · rw [(Prod.mk.inj h).2.symm]
  · cases h

/-! ## Each service operation -/

theorem atomic_create (user : String) : Atomic (Documents.create repository user) := by
  unfold Documents.create
  exact Atomic.ite (Atomic.raise _) (Atomic.atomically _)

theorem atomic_rename (user docId name : String) :
    Atomic (Documents.rename repository user docId name) := by
  unfold Documents.rename
  exact Atomic.bind (readsOnly_check _) fun _ =>
    Atomic.bind (readsOnly_canEdit user docId) fun _ => Atomic.atomically _

theorem atomic_editTexts (user docId : String) (texts : List (String × String)) :
    Atomic (Documents.editTexts repository user docId texts) := by
  unfold Documents.editTexts
  exact Atomic.bind (readsOnly_check _) fun _ =>
    Atomic.bind (readsOnly_canEdit user docId) fun _ => Atomic.atomically _

theorem atomic_setPublic (user docId : String) (visible : Bool) :
    Atomic (Documents.setPublic repository user docId visible) :=
  Atomic.bind (readsOnly_canEdit user docId) fun _ => atomic_updateDocument _ _

theorem atomic_delete (user docId : String) : Atomic (Documents.delete repository user docId) := by
  unfold Documents.delete
  exact Atomic.ite (Atomic.raise _) (Atomic.bind (readsOnly_canView user docId) fun _ =>
    Atomic.bind (readsOnly_isTrashed user _) fun _ =>
      Atomic.ite ((atomic_createCategory _ _ _).bind_pure _)
        (Atomic.ite (Atomic.raise _) ((atomic_deleteDocument _).bind_pure _)))

theorem atomic_reconcile (catalog : Catalog) (limits : Limits) (user docId : String)
    (snap : Option Snapshot) :
    Atomic (Documents.reconcile repository catalog limits user docId snap) := by
  unfold Documents.reconcile
  cases snap with
  | none => exact Atomic.raise _
  | some s =>
    refine Atomic.bind (readsOnly_canEdit user docId) fun doc => ?_
    cases Plan.make catalog limits doc s with
    | error f => exact Atomic.raise f
    | ok p => exact (Atomic.atomically _).bind_pure _

theorem atomic_copy (user docId : String) : Atomic (Documents.copy repository user docId) := by
  unfold Documents.copy Copy.replicate
  refine Atomic.ite (Atomic.raise _) (Atomic.bind (readsOnly_canView user docId) fun src =>
    Atomic.bind (readsOnly_listItems _) fun items => ?_)
  cases items.find? (·.id == src.rootId) with
  | none => exact Atomic.raise _
  | some _ => exact Atomic.atomically _

theorem atomic_addCategory (user docId name : String) :
    Atomic (Categories.add repository user docId name) := by
  unfold Categories.add
  exact Atomic.ite (Atomic.raise _) (Atomic.bind (readsOnly_lift _) fun _ =>
    Atomic.bind (readsOnly_viewable user docId) fun _ => atomic_createCategory _ _ _)

theorem atomic_removeCategory (user docId name : String) :
    Atomic (Categories.remove repository user docId name) := by
  unfold Categories.remove
  exact Atomic.bind (readsOnly_lift _) fun _ =>
    Atomic.bind (readsOnly_viewable user docId) fun _ => atomic_deleteCategory _ _ _

end Outliner.Memory

namespace Outliner

open Memory

theorem Call.atomic (catalog : Catalog) (limits : Limits) (c : Call) : Atomic (c.run catalog limits) := by
  cases c with
  | create u => exact (atomic_create u).map _
  | view u d => exact ((readsOnly_view u d).map _).atomic
  | list u => exact ((readsOnly_list u).map _).atomic
  | rename u d n => exact atomic_rename u d n
  | editTexts u d ts => exact atomic_editTexts u d ts
  | setPublic u d v => exact atomic_setPublic u d v
  | delete u d => exact (atomic_delete u d).map _
  | reconcile u d s => exact (atomic_reconcile catalog limits u d s).map _
  | copy u d => exact (atomic_copy u d).map _
  | addCategory u d n => exact (atomic_addCategory u d n).map _
  | removeCategory u d n => exact atomic_removeCategory u d n
  | listCategories u d => exact ((readsOnly_listCategories u d).map _).atomic
  | isTrashed u d => exact ((readsOnly_trashed u d).map _).atomic

/-- A call that fails, from any reachable store, leaves the documents, the items with their
sequence numbers, the styles and the categories exactly as they were. -/
theorem failed_call_keeps_tables {catalog : Catalog} {limits : Limits} {m m' : Memory}
    (hm : Reachable catalog limits m) (c : Call) {e : Failure}
    (h : exec (c.run catalog limits) m = (.error e, m')) : m'.tables = m.tables :=
  Call.atomic catalog limits c m e m' hm.outside h

/-- The injected failure of the first item creation undoes the document created before it. -/
theorem failed_root_creation_leaves_no_document :
    (exec ((Call.create "alice").run Catalog.standard Limits.standard) (Memory.empty 1 secondsClock)).2.tables =
      (Memory.empty 1 secondsClock).tables :=
  failed_call_keeps_tables (Reachable.empty 1 secondsClock : Reachable Catalog.standard Limits.standard _)
    (.create "alice")
    (show _ = (Except.error ⟨.storage, "create root item: injected storage failure"⟩, _) from rfl)

end Outliner
