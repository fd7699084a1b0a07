import Mathlib
import Outliner.Proofs.Operations

/-!
# A delete removes exactly a subtree

The store's cascade, a worklist of ids, removes from every table exactly an item and what hangs
under it; clearing an item's children removes its strict descendants and answers how many
children it had.
-/

set_option autoImplicit false

namespace Outliner

/-- `StrictlyDescends items x r`: the chain of parents from `x` reaches `r` in one step or more. -/
def StrictlyDescends (items : List Item) (x r : String) : Prop :=
  ∃ c ∈ items, c.parentId = some r ∧ Descends items x c.id

namespace Memory

theorem descends_children_iff (t : Tables) (p x : String) :
    (∃ r ∈ childIds t p, Descends t.rows x r) ↔ StrictlyDescends t.rows x p := by
  constructor
  · rintro ⟨r, hr, hd⟩
    obtain ⟨c, hc, hcp, rfl⟩ := mem_childIds.mp hr
    exact ⟨c, hc, hcp, hd⟩
  · rintro ⟨c, hc, hcp, hd⟩
    exact ⟨c.id, mem_childIds.mpr ⟨c, hc, hcp, rfl⟩, hd⟩

end Memory

/-- Deleting an item runs the cascade from it, which stops on every table and removes exactly
the item and the items whose chain of parents reaches it, with their creation numbers and
styles, clears exactly the table-of-contents pointers to them and changes nothing else; it needs
no acyclic parents. Clearing the children of `p`, one cascade per child, removes exactly the
strict descendants of `p` in that way, leaves the counters alone, and answers the number of
items directly under `p`. -/
theorem cascade_deletes_exactly_subtree :
    (∀ (t : Tables) (x : String),
      t.Cascade (fun y => Descends t.rows y x) (Memory.cascade [x] t)) ∧
    ∀ (m : Memory) (p : String), ∃ t',
      Memory.exec (Memory.deleteChildren p) m =
        (.ok (m.tables.rows.countP (Item.isChildOf p)), { m with tables := t' }) ∧
      m.tables.Cascade (fun y => StrictlyDescends m.tables.rows y p) t' := by
  refine ⟨fun t x => (Memory.cascade_spec [x] t).congr fun y => by simp, fun m p => ?_⟩
  refine ⟨_, ?_, (Memory.cascadeEach_spec _ m.tables).congr (Memory.descends_children_iff m.tables p)⟩
  rw [Memory.exec_deleteChildren, Tables.rows, List.countP_map, List.countP_eq_length_filter,
    ← Memory.cascadeEach_eq_deleteSubtrees]
  rfl

/-- A store whose item `a` has two children, one of them with a child of its own. -/
def forkedStore : Memory :=
  { Memory.empty 0 (fun _ => default) with
    tables := ⟨[], [(⟨"a", "d", none, "", 0, false⟩, 1), (⟨"b", "d", some "a", "", 0, false⟩, 2),
      (⟨"c", "d", some "b", "", 0, false⟩, 3), (⟨"e", "d", some "a", "", 1, false⟩, 4)], [], []⟩ }

theorem forked_children_cleared :
    ∃ t', Memory.exec (Memory.deleteChildren "a") forkedStore = (.ok 2, { forkedStore with tables := t' }) ∧
      forkedStore.tables.Cascade (fun y => StrictlyDescends forkedStore.tables.rows y "a") t' := by
  have hcount : forkedStore.tables.rows.countP (Item.isChildOf "a") = 2 := by decide
  obtain ⟨t', hexec, hcas⟩ := cascade_deletes_exactly_subtree.2 forkedStore "a"
  exact ⟨t', hcount ▸ hexec, hcas⟩

end Outliner
