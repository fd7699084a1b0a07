import Mathlib
import Outliner.Proofs.Rebuild

/-!
# Properties every call keeps

The services write to the store through a dozen operations. A property of the store that
depends only on its tables, holds of the empty store and is kept by each operation that
succeeds (`KeptByOps`) is kept by the compound writes, by every service and every call, and
so holds of every reachable store (`KeptByOps.reachable`): a failed call puts the tables back.
The services create items expanded, and without a parent only as the root of a new document,
at child order zero; an operation that creates an item need keep the property only for such.
-/

set_option autoImplicit false

namespace Outliner

namespace Memory

/-- A property of stores that reads only their tables, holds of the empty store, and is kept
by every store operation that succeeds. -/
structure KeptByOps (P : Memory → Prop) : Prop where
  tables : ∀ m m', m'.tables = m.tables → P m → P m'
  empty : ∀ n clock, P (Memory.empty n clock)
  createDocument : ∀ user visible time, Triple P (Memory.createDocument user visible time) (fun _ => P)
  updateDocument : ∀ id f, Triple P (Memory.updateDocument id f) (fun _ => P)
  deleteDocument : ∀ id, Triple P (Memory.deleteDocument id) (fun _ => P)
  /-- Only items created expanded, at child order zero when they have no parent. -/
  createItem : ∀ i : Item, i.collapsed = false → (i.parentId = none → i.childOrder = 0) →
    Triple P (Memory.createItem i) (fun _ => P)
  updateText : ∀ doc id text, Triple P (Memory.updateText doc id text) (fun _ => P)
  deleteChildren : ∀ p, Triple P (Memory.deleteChildren p) (fun _ => P)
  insertStyle : ∀ st, Triple P (Memory.insertStyle st) (fun _ => P)
  updateStyle : ∀ st, Triple P (Memory.updateStyle st) (fun _ => P)
  createCategory : ∀ user doc name, Triple P (Memory.createCategory user doc name) (fun _ => P)
  deleteCategory : ∀ user doc name, Triple P (Memory.deleteCategory user doc name) (fun _ => P)

namespace KeptByOps

variable {P : Memory → Prop}

theorem enter (h : KeptByOps P) (m : Memory) (hm : P m) : P { m with inTransaction := true } :=
  h.tables m _ rfl hm

theorem leave {α : Type} (h : KeptByOps P) (_ : α) (m : Memory) (hm : P m) :
    P { m with inTransaction := false } :=
  h.tables m _ rfl hm

theorem now (h : KeptByOps P) : Triple P Memory.now (fun _ => P) :=
  triple_now fun m hm => h.tables m _ rfl hm

/-! ## Compound writes -/

theorem createWithRoot (h : KeptByOps P) (user : String) :
    Triple P (Copy.createWithRoot repository user) (fun _ => P) :=
  h.now.bind fun _ => (h.createDocument user false _).bind fun _ =>
    ((h.createItem _ rfl fun _ => rfl).during _).bind fun _ =>
      ((h.updateDocument _ _).during _).bind fun _ => Triple.pure_of _ fun _ h => h

theorem applyStyles (h : KeptByOps P) (itemId : String) :
    ∀ (edits : List StyleEdit) (present : List String),
      Triple P (StyleWrite.apply repository itemId edits present) (fun _ => P) := fun _ =>
  Triple.applyStyles_of (fun _ _ => h.updateStyle _) fun _ _ => h.insertStyle _

theorem upsertStyles (h : KeptByOps P) (itemId : String) (edits : List StyleEdit) :
    Triple P (StyleWrite.upsert repository itemId edits) (fun _ => P) :=
  Triple.upsertStyles_of (fun _ _ => h.updateStyle _) fun _ _ => h.insertStyle _

theorem createNodes (h : KeptByOps P) (docId : String) (p : Plan) :
    ∀ (nodes : List PlannedNode) (acc : List String),
      Triple P (Plan.createNodes repository docId p nodes acc) (fun _ => P) := fun _ =>
  Triple.createNodes_of (I := fun _ => P) (J := fun _ => True)
    (fun _ _ _ _ => (h.createItem _ rfl fun hp => absurd hp (Option.some_ne_none _)).mono
      (fun _ hm => hm) fun _ _ hm => ⟨hm, trivial⟩)
    fun n _ _ itemId _ => h.applyStyles itemId n.styles []

theorem write (h : KeptByOps P) (d : Document) (p : Plan) :
    Triple P (p.write repository d) (fun _ => P) :=
  Triple.write_of h.enter h.leave (h.deleteChildren _) (fun _ _ => h.updateText _ _ _)
    (fun _ => h.upsertStyles _ _) (fun _ _ hm => hm) (h.createNodes d.id p p.nodes [])
    (fun _ => h.updateDocument _ _) (fun _ m hm => h.tables m _ rfl hm) (fun _ _ => h.updateDocument _ _)
    fun _ _ _ hm => hm

theorem replicate (h : KeptByOps P) (source : Document) (items : List Item) (user : String) :
    Triple P (Copy.replicate repository source items user) (fun _ => P) :=
  Triple.replicate_of (J := fun _ => True) h.enter (h.leave ())
    ((h.createWithRoot user).mono (fun _ hm => hm) fun _ _ hm => ⟨hm, trivial⟩)
    (fun _ _ _ _ _ => h.updateText _ _ _)
    fun _ _ _ _ _ => h.createItem _ rfl fun hp => absurd hp (Option.some_ne_none _)

/-! ## Services -/

theorem create (h : KeptByOps P) (user : String) :
    Triple P (Documents.create repository user) (fun _ => P) :=
  Triple.ite (Triple.raise _ _ _) (Triple.atomically ((h.createWithRoot user).bind fun _ =>
    Triple.pure_of _ fun _ h => h) h.enter h.leave)

theorem rename (h : KeptByOps P) (user docId name : String) :
    Triple P (Documents.rename repository user docId name) (fun _ => P) := by
  unfold Documents.rename
  exact ((readsOnly_check _).triple _).bind fun _ => ((readsOnly_canEdit user docId).triple _).bind
    fun _ => Triple.atomically ((h.updateText _ _ _).bind fun _ => h.now.bind fun _ => h.updateDocument _ _)
      h.enter h.leave

theorem editTexts (h : KeptByOps P) (user docId : String) (texts : List (String × String)) :
    Triple P (Documents.editTexts repository user docId texts) (fun _ => P) := by
  unfold Documents.editTexts
  refine ((readsOnly_check _).triple _).bind fun _ => ((readsOnly_canEdit user docId).triple _).bind
    fun _ => Triple.atomically (((readsOnly_listItems _).triple _).bind fun _ =>
      (Triple.forIn (fun i _ => ?_) _ _).bind fun _ => h.now.bind fun _ => h.updateDocument _ _)
      h.enter h.leave
  split
  · exact (h.updateText _ _ _).bind fun _ => Triple.pure_of _ fun _ h => h
  · exact Triple.pure_of _ fun _ h => h

theorem setPublic (h : KeptByOps P) (user docId : String) (visible : Bool) :
    Triple P (Documents.setPublic repository user docId visible) (fun _ => P) :=
  ((readsOnly_canEdit user docId).triple _).bind fun _ => h.updateDocument _ _

theorem delete (h : KeptByOps P) (user docId : String) :
    Triple P (Documents.delete repository user docId) (fun _ => P) := by
  unfold Documents.delete
  refine Triple.ite (Triple.raise _ _ _) (((readsOnly_canView user docId).triple _).bind fun d => ?_)
  exact ((readsOnly_isTrashed user d.id).triple _).bind fun _ =>
    Triple.ite ((h.createCategory _ _ _).bind fun _ => Triple.pure_of _ fun _ h => h)
      (Triple.ite (Triple.raise _ _ _)
        ((h.deleteDocument _).bind fun _ => Triple.pure_of _ fun _ h => h))

theorem reconcile (h : KeptByOps P) (catalog : Catalog) (limits : Limits) (user docId : String)
    (snap : Option Snapshot) :
    Triple P (Documents.reconcile repository catalog limits user docId snap) (fun _ => P) := by
  unfold Documents.reconcile
  cases snap with
  | none => exact Triple.raise _ _ _
  | some s =>
    refine ((readsOnly_canEdit user docId).triple _).bind fun d => ?_
    cases Plan.make catalog limits d s with
    | error f => exact Triple.raise _ _ _
    | ok p => exact h.write d p

theorem copy (h : KeptByOps P) (user docId : String) :
    Triple P (Documents.copy repository user docId) (fun _ => P) := by
  unfold Documents.copy
  exact Triple.ite (Triple.raise _ _ _) (((readsOnly_canView user docId).triple _).bind fun src =>
    ((readsOnly_listItems src.id).triple _).bind fun items => h.replicate src items user)

theorem addCategory (h : KeptByOps P) (user docId name : String) :
    Triple P (Categories.add repository user docId name) (fun _ => P) := by
  unfold Categories.add
  exact Triple.ite (Triple.raise _ _ _) (((readsOnly_lift _).triple _).bind fun _ =>
    ((readsOnly_viewable user docId).triple _).bind fun _ => h.createCategory _ _ _)

theorem removeCategory (h : KeptByOps P) (user docId name : String) :
    Triple P (Categories.remove repository user docId name) (fun _ => P) := by
  unfold Categories.remove
  exact ((readsOnly_lift _).triple _).bind fun _ => ((readsOnly_viewable user docId).triple _).bind
    fun _ => h.deleteCategory _ _ _

/-! ## Calls and reachable stores -/

theorem call (h : KeptByOps P) (catalog : Catalog) (limits : Limits) (c : Call) :
    Triple P (c.run catalog limits) (fun _ => P) := by
  cases c with
  | create u => exact (h.create u).map _
  | view u d => exact ((readsOnly_view u d).triple _).map _
  | list u => exact ((readsOnly_list u).triple _).map _
  | rename u d n => exact h.rename u d n
  | editTexts u d ts => exact h.editTexts u d ts
  | setPublic u d v => exact h.setPublic u d v
  | delete u d => exact (h.delete u d).map _
  | reconcile u d s => exact (h.reconcile catalog limits u d s).map _
  | copy u d => exact (h.copy u d).map _
  | addCategory u d n => exact (h.addCategory u d n).map _
  | removeCategory u d n => exact h.removeCategory u d n
  | listCategories u d => exact ((readsOnly_listCategories u d).triple _).map _
  | isTrashed u d => exact ((readsOnly_trashed u d).triple _).map _

theorem reachable (h : KeptByOps P) {catalog : Catalog} {limits : Limits} {m : Memory}
    (hm : Reachable catalog limits m) : P m := by
  induction hm with
  | empty n clock => exact h.empty n clock
  | @step m c hm ih =>
    rcases hx : exec (c.run catalog limits) m with ⟨r, m'⟩
    cases r with
    | ok a => exact h.call catalog limits c m a m' ih hx
    | error e =>
      exact h.tables m m' (Call.atomic catalog limits c m e m' hm.outside hx) ih

end KeptByOps

end Memory

end Outliner
