import Mathlib
import Outliner.Proofs.Deletion
import Outliner.Proofs.InstantText

/-!
# The list of a user's documents agrees with their views

Listing a user's documents and viewing one of them reach the same facts by different routes.
The list looks each title up by the document's root item id and takes the user's categories
from one listing of all of them, in name order, kept per document; the view searches the
document's items for the root id and lists the user's categories on the document alone, in
name order. In a consistent store the root item exists, belongs to the document and is the
only row with its id, so both find its text (`exec_rootTitle`, `view_title`); and keeping a
document's categories out of a sorted list gives their names in the order that sorting them
alone gives (`names_filter_mergeSort`). So every summary a listing gives is what the view of
its document shows, and each of the user's documents is listed once
(`document_list_agrees_with_view`).
-/

set_option autoImplicit false

namespace Outliner

namespace Memory

variable {catalog : Catalog} {m : Memory} {u : String} {D : Document}

/-! ## Names in order -/

theorem pairwise_mergeSort_name (cs : List Category) :
    (cs.mergeSort fun a b => a.name ≤ b.name).Pairwise fun a b => a.name ≤ b.name := by
  have h := List.pairwise_mergeSort (fun a b c (hab : decide (a.name ≤ b.name) = true)
      (hbc : decide (b.name ≤ c.name) = true) => decide_eq_true (le_trans (of_decide_eq_true hab)
        (of_decide_eq_true hbc)))
    (fun a b => by simpa using le_total a.name b.name) cs
  simpa using h

theorem names_filter_mergeSort (cs : List Category) (p : Category → Bool) :
    (((cs.mergeSort fun a b => a.name ≤ b.name).filter p).map (·.name)) =
      ((cs.filter p).mergeSort fun a b => a.name ≤ b.name).map (·.name) := by
  have hperm : (((cs.mergeSort fun a b => a.name ≤ b.name).filter p).map (·.name)).Perm
      (((cs.filter p).mergeSort fun a b => a.name ≤ b.name).map (·.name)) :=
    ((((List.mergeSort_perm cs _).filter p).trans (List.mergeSort_perm _ _).symm).map _)
  refine hperm.eq_of_pairwise (fun a b _ _ hab hba => le_antisymm hab hba) ?_ ?_
  · exact List.pairwise_map.mpr ((pairwise_mergeSort_name cs).filter p)
  · exact List.pairwise_map.mpr (pairwise_mergeSort_name _)

/-! ## What the two services read -/

theorem exec_listDocuments (user : String) :
    exec (listDocuments user) m =
      (.ok (Time.newestFirst Document.createdAt (m.tables.documents.filter (·.userId == user))), m) := rfl

theorem exec_categoriesWhere (keep : Category → Bool) :
    exec (categoriesWhere keep) m =
      (.ok ((m.tables.categories.filter keep).mergeSort fun a b => a.name ≤ b.name), m) := rfl

theorem exec_mapM_reads {α β : Type} {f : α → MemoryM β} {g : α → β} :
    ∀ xs : List α, (∀ x ∈ xs, exec (f x) m = (.ok (g x), m)) → exec (xs.mapM f) m = (.ok (xs.map g), m)
  | [], _ => rfl
  | x :: xs, h => by
    rw [List.mapM_cons, exec_bind_ok (h x List.mem_cons_self),
      exec_bind_ok (exec_mapM_reads xs fun y hy => h y (List.mem_cons_of_mem x hy))]
    rfl

theorem exec_rootTitle (d : Document) :
    exec (Documents.rootTitle repository d) m =
      (.ok (((d.rootItemId.bind (item? m.tables)).map (·.itemText)).getD ""), m) := by
  unfold Documents.rootTitle
  cases d.rootItemId with
  | none => rfl
  | some i =>
    dsimp only [repository]
    rw [exec_tryCatch, exec_bind, exec_getItem, Option.bind_some]
    cases item? m.tables i <;> rfl

theorem exec_list (hu : u ≠ "") :
    exec (Documents.list repository u) m =
      (.ok ((Time.newestFirst Document.createdAt (m.tables.documents.filter (·.userId == u))).map fun d =>
        { document := d
          title := effectiveTitle (((d.rootItemId.bind (item? m.tables)).map (·.itemText)).getD "")
          categories := (((m.tables.categories.filter (·.userId == u)).mergeSort
            fun a b => a.name ≤ b.name).filter (·.documentId == d.id)).map (·.name) }), m) := by
  unfold Documents.list
  rw [if_neg (by simpa using hu)]
  dsimp only [repository]
  rw [exec_bind_ok (exec_listDocuments u), exec_bind_ok (exec_categoriesWhere _)]
  exact exec_mapM_reads _ fun d _ => (exec_bind_ok (exec_rootTitle d) _).trans rfl

theorem exec_view_owner (hu : u ≠ "") (hD : document? m.tables D.id = some D) (howner : D.userId = u) :
    ∃ v, exec (Documents.view repository u D.id) m = (.ok v, m) ∧ v.document = D ∧
      v.title = effectiveTitle ((((sortedItems m.tables (·.documentId == D.id)).find?
        (·.id == D.rootId)).map (·.itemText)).getD "") ∧
      v.categories = ((m.tables.categories.filter fun c => c.userId == u && c.documentId == D.id).mergeSort
        fun a b => a.name ≤ b.name).map (·.name) := by
  unfold Documents.view
  rw [exec_bind_ok (exec_canView hD (by simp [Access.isOwner, howner, hu]))]
  dsimp only [repository]
  simp only [beq_eq_false_iff_ne.mpr hu, Bool.false_eq_true, if_false]
  exact ⟨_, rfl, rfl, rfl, rfl⟩

/-! ## The root item -/

theorem find?_id_of_mem {n : Nat} {t : Tables} (hf : Fresh n t) {l : List Item}
    (hl : ∀ j ∈ l, j ∈ t.rows) {i : Item} (hi : i ∈ l) : l.find? (·.id == i.id) = some i := by
  cases h : l.find? (·.id == i.id) with
  | none => exact absurd (List.find?_eq_none.mp h i hi) (by simp)
  | some q =>
    have hq := List.mem_of_find?_eq_some h
    have hqid : q.id = i.id := by simpa using List.find?_some h
    rw [hf.item_eq (hl q hq) (hl i hi) hqid]

theorem Consistent.rootItem (hc : Consistent catalog m) (hD : D ∈ m.tables.documents) :
    ∃ root ∈ m.tables.rows, D.rootItemId = some root.id ∧ root.documentId = D.id := by
  obtain ⟨r, hr, hroot⟩ := hc.invariant.rooted D hD
  obtain ⟨j, hj, rfl, hjd, -⟩ := root_row hroot
  exact ⟨j, hj, hr, hjd⟩

section Root

variable (hc : Consistent catalog m) {root : Item} (hroot : root ∈ m.tables.rows)
  (hid : D.rootItemId = some root.id)
include hc hroot hid

theorem listed_title :
    ((D.rootItemId.bind (item? m.tables)).map (·.itemText)).getD "" = root.itemText := by
  rw [hid, Option.bind_some, item?_of_mem hc.fresh hroot]
  rfl

theorem viewed_title (hdoc : root.documentId = D.id) :
    (((sortedItems m.tables (·.documentId == D.id)).find? (·.id == D.rootId)).map (·.itemText)).getD "" =
      root.itemText := by
  have hrootId : D.rootId = root.id := by simp [Document.rootId, hid]
  have hmem : root ∈ sortedItems m.tables (·.documentId == D.id) :=
    mem_sortedItems.mpr ⟨hroot, by simp [hdoc]⟩
  rw [hrootId, find?_id_of_mem hc.fresh (fun j hj => (mem_sortedItems.mp hj).1) hmem]
  rfl

end Root

theorem countP_listed {n : Nat} {t : Tables} (hf : Fresh n t) (hD : D ∈ t.documents) (howner : D.userId = u)
    (f : Document → DocumentSummary) (hdoc : ∀ d, (f d).document = d) :
    ((Time.newestFirst Document.createdAt (t.documents.filter (·.userId == u))).map f).countP
      (fun s => s.document.id == D.id) = 1 := by
  have hcount : ∀ l : List Document,
      (l.map f).countP (fun s => s.document.id == D.id) = (l.map (·.id)).count D.id := by
    intro l
    rw [List.count, List.countP_map, List.countP_map]
    exact List.countP_congr fun d _ => by simp [hdoc]
  rw [hcount]
  have hperm := Time.newestFirst_perm Document.createdAt (t.documents.filter (·.userId == u))
  have hnodup : ((Time.newestFirst Document.createdAt (t.documents.filter (·.userId == u))).map (·.id)).Nodup :=
    (hperm.map _).nodup_iff.mpr (hf.documents_nodup.sublist (List.filter_sublist.map _))
  exact List.count_eq_one_of_mem hnodup
    (List.mem_map_of_mem (hperm.mem_iff.mpr (List.mem_filter.mpr ⟨hD, by simp [howner]⟩)))

/-- `m.ListingAgrees u`: listing the documents of `u` succeeds and leaves the store as it was;
each summary describes a document of `u` that has its root item, and the view `u` has of that
document succeeds too and shows the same document, title and categories: the title is the root
item's, the categories are the names of the categories of `u` on the document, in order; and
each document of `u` is listed once. -/
def ListingAgrees (m : Memory) (u : String) : Prop :=
  ∃ ss, exec (Documents.list repository u) m = (.ok ss, m) ∧
    (∀ s ∈ ss, ∃ D ∈ m.tables.documents, D.userId = u ∧ s.document = D ∧
      ∃ root ∈ m.tables.rows, D.rootItemId = some root.id ∧ root.documentId = D.id ∧
      ∃ v, exec (Documents.view repository u D.id) m = (.ok v, m) ∧ v.document = D ∧
        s.title = v.title ∧ v.title = effectiveTitle root.itemText ∧
        s.categories = v.categories ∧ v.categories.Pairwise (· ≤ ·) ∧
        v.categories.Perm
          ((m.tables.categories.filter fun c => c.userId == u && c.documentId == D.id).map (·.name))) ∧
    ∀ D ∈ m.tables.documents, D.userId = u → ss.countP (fun s => s.document.id == D.id) = 1

end Memory

/-- The list of a user's documents agrees with the views of them. In every store reached by the
service, listing the documents of a logged-in user reads the store only, and each summary it
gives is of a document of the user, with the title of the document's root item and the user's
category names on it in name order, as the view of that document shows them; every document of
the user is listed exactly once. -/
theorem document_list_agrees_with_view {catalog : Catalog} {limits : Limits} {m : Memory}
    (hm : Reachable catalog limits m) {u : String} (hu : u ≠ "") : m.ListingAgrees u := by
  have hc := hm.consistent
  refine ⟨_, Memory.exec_list hu, fun s hs => ?_,
    fun D hD howner => Memory.countP_listed hc.fresh hD howner _ fun _ => rfl⟩
  obtain ⟨D, hD', rfl⟩ := List.mem_map.mp hs
  have hD : D ∈ m.tables.documents ∧ D.userId = u := by
    simpa using (Time.mem_newestFirst Document.createdAt).mp hD'
  obtain ⟨root, hroot, hid, hdoc⟩ := hc.rootItem hD.1
  obtain ⟨v, hv, hvd, hvt, hvc⟩ :=
    Memory.exec_view_owner hu (Memory.document?_of_mem hc.fresh hD.1) hD.2
  -- the user's categories on the document, kept out of all of theirs or listed alone
  have hcats : (m.tables.categories.filter (·.userId == u)).filter (·.documentId == D.id) =
      m.tables.categories.filter fun c => c.userId == u && c.documentId == D.id := by
    rw [List.filter_filter]
    exact List.filter_congr fun c _ => Bool.and_comm _ _
  refine ⟨D, hD.1, hD.2, rfl, root, hroot, hid, hdoc, v, hv, hvd, ?_, ?_, ?_, ?_, ?_⟩
  · -- both titles are the root item's text
    show effectiveTitle _ = v.title
    rw [hvt, Memory.viewed_title hc hroot hid hdoc, Memory.listed_title hc hroot hid]
  · rw [hvt, Memory.viewed_title hc hroot hid hdoc]
  · show List.map _ _ = v.categories
    rw [hvc, Memory.names_filter_mergeSort, hcats]
  · rw [hvc]
    exact List.pairwise_map.mpr (Memory.pairwise_mergeSort_name _)
  · rw [hvc]
    exact (List.mergeSort_perm _ _).map _

/-- The listing of the user who made the first document agrees with its view. -/
theorem first_listing_agrees_with_view :
    Reachable Catalog.standard Limits.standard firstStore ∧ "alice" ≠ "" ∧
      firstStore.ListingAgrees "alice" :=
  ⟨.step _ (.empty 0 secondsClock), by decide, document_list_agrees_with_view (.step _ (.empty 0 secondsClock)) (by decide)⟩

end Outliner
