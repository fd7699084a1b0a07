import Mathlib
import Outliner.Proofs.Keeping

/-!
# Items stay plain

No service collapses an item, and the only items created without a parent are the root items
of new documents, with child order zero. So every item of a reachable store is `Item.Plain`:
not collapsed, and with child order zero if it has no parent (`Reachable.allPlain`).
-/

set_option autoImplicit false

namespace Outliner

/-- An item as the services create it: not collapsed, and with child order zero when it has
no parent. -/
def Item.Plain (i : Item) : Prop :=
  i.collapsed = false ∧ (i.parentId = none → i.childOrder = 0)

theorem Item.plain_withText {i : Item} (h : i.Plain) (x text : String) : (i.withText x text).Plain := by
  unfold Item.withText
  split
  · exact h
  · exact h

namespace Memory

variable {α : Type}

/-- Every item of the store is plain. -/
def AllPlain (m : Memory) : Prop := ∀ i ∈ m.tables.rows, i.Plain

theorem allPlain_onRows : OnRows AllPlain := fun _ _ hr h i hi => h i (hr ▸ hi)

theorem AllPlain.deleteSubtrees {m : Memory} (h : AllPlain m) (roots : List String) :
    ∀ i ∈ (Memory.deleteSubtrees roots m.tables).rows, i.Plain := fun i hi =>
  h i (List.mem_filter.mp (rows_deleteSubtrees ▸ hi)).1

/-! ## Each operation keeps the items plain -/

theorem plain_createItem {i : Item} (hi : i.Plain) :
    Triple AllPlain (createItem i) (fun _ => AllPlain) := by
  intro m a m' h hx
  obtain ⟨rfl, rfl, -, -⟩ := createItem_ok hx
  intro j hj
  rcases List.mem_append.mp (rows_addItem ▸ hj) with hj | hj
  · exact h j hj
  · rw [List.mem_singleton.mp hj]
    exact hi

theorem plain_updateText (doc id text : String) :
    Triple AllPlain (updateText doc id text) (fun _ => AllPlain) := by
  intro m a m' h hx
  rcases updateText_cases doc id text m with ⟨e, he⟩ | ⟨i, -, -, he⟩ <;> rw [he] at hx
  · cases hx
  obtain ⟨-, rfl⟩ := Prod.mk.inj hx
  intro j hj
  obtain ⟨k, hk, rfl⟩ := List.mem_map.mp (rows_setText ▸ hj)
  exact Item.plain_withText (h k hk) _ _

theorem plain_deleteChildren (p : String) :
    Triple AllPlain (deleteChildren p) (fun _ => AllPlain) := by
  intro m a m' h hx
  rw [exec_deleteChildren, Prod.mk.injEq] at hx
  rw [← hx.2]
  exact h.deleteSubtrees _

theorem plain_deleteDocument (id : String) :
    Triple AllPlain (deleteDocument id) (fun _ => AllPlain) := by
  intro m a m' h hx
  rcases deleteDocument_cases id m with ⟨-, he⟩ | ⟨-, he⟩ <;> rw [he] at hx
  · cases hx
  obtain ⟨-, rfl⟩ := Prod.mk.inj hx
  exact h.deleteSubtrees _

theorem plain_createCategory (user doc name : String) :
    Triple AllPlain (createCategory user doc name) (fun _ => AllPlain) := by
  intro m a m' h hx
  rcases createCategory_cases user doc name m with ⟨e, he⟩ | ⟨-, he⟩ <;> rw [he] at hx
  · cases hx
  obtain ⟨-, rfl⟩ := Prod.mk.inj hx
  exact h

theorem plain_deleteCategory (user doc name : String) :
    Triple AllPlain (deleteCategory user doc name) (fun _ => AllPlain) := by
  intro m a m' h hx
  rcases deleteCategory_cases user doc name m with ⟨e, he⟩ | ⟨c, -, he⟩ <;> rw [he] at hx
  · cases hx
  obtain ⟨-, rfl⟩ := Prod.mk.inj hx
  exact h

theorem plain_updateDocument (id : String) (f : Document → Except Failure Document) :
    Triple AllPlain (updateDocument id f) (fun _ => AllPlain) :=
  frame_updateDocument allPlain_onRows id f

theorem plain_createDocument (user : String) (visible : Bool) (time : Time.Instant) :
    Triple AllPlain (createDocument user visible time) (fun _ => AllPlain) := by
  intro m a m' h hx
  rw [exec_createDocument, Prod.mk.injEq] at hx
  rw [← hx.2]
  exact h

theorem allPlain_keptByOps : KeptByOps AllPlain where
  tables _ _ ht h := allPlain_onRows _ _ (by rw [Tables.rows, Tables.rows, ht]) h
  empty _ _ := fun _ h => absurd h List.not_mem_nil
  createDocument := plain_createDocument
  updateDocument := plain_updateDocument
  deleteDocument := plain_deleteDocument
  createItem _ hc hp := plain_createItem ⟨hc, hp⟩
  updateText := plain_updateText
  deleteChildren := plain_deleteChildren
  insertStyle := frame_insertStyle allPlain_onRows
  updateStyle := frame_updateStyle allPlain_onRows
  createCategory := plain_createCategory
  deleteCategory := plain_deleteCategory

end Memory

open Memory

theorem Reachable.allPlain {catalog : Catalog} {limits : Limits} {m : Memory}
    (h : Reachable catalog limits m) : AllPlain m :=
  allPlain_keptByOps.reachable h

end Outliner
