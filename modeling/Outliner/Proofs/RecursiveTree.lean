import Mathlib
import Outliner.Proofs.TreeWalk

/-!
# The item tree is the recursive tree

The recursive tree of an item `x` has `x` on top and, under it, the recursive trees of the items
naming `x` as parent, other than the root, in child order with ties in list order (`Unfolds`,
with the children described by `ChildList` and not by the sort that computes them). With ids
told apart, the builder's tree for a root that some item has is that tree (`build_unfolds`); it
holds exactly the items the root reaches by going down to children (`Reaches`), and every child
names its parent.

The walk places under each id it pops the ids of all that id's children but the root: an item
has one parent, popped once, so no child was placed before (`walk_kids`). A child is placed
after its parent, so the tree is no deeper than the ids placed, and the builder's depth bound
cuts nothing off.
-/

set_option autoImplicit false

namespace Outliner.ItemNode

/-! ## The recursive tree -/

/-- `ks` are the items naming `x` as parent other than the root, ascending by child order, and
items of equal child order in list order. -/
structure ChildList (items : List Item) (rootId : String) (x : Item) (ks : List Item) : Prop where
  perm : ks.Perm (items.filter fun k => k.parentId == some x.id && k.id != rootId)
  sorted : ks.Pairwise fun a b => a.childOrder ≤ b.childOrder
  stable : ∀ a b, List.Sublist [a, b] (items.filter fun k => k.parentId == some x.id && k.id != rootId) →
    a.childOrder = b.childOrder → List.Sublist [a, b] ks

/-- `t` is the recursive tree of `x`: `x` on top, and under it, one for one, the recursive trees
of its children. -/
inductive Unfolds (items : List Item) (rootId : String) : Item → ItemNode → Prop
  | mk (x : Item) (ks : List Item) (ts : List ItemNode) (children : ChildList items rootId x ks)
      (length : ks.length = ts.length) (below : ∀ p ∈ ks.zip ts, Unfolds items rootId p.1 p.2) :
      Unfolds items rootId x (mk x ts)

/-- The items the root reaches by going down to children other than the root. -/
inductive Reaches (items : List Item) (root : Item) : Item → Prop
  | root : Reaches items root root
  | child {x k : Item} : Reaches items root x → k ∈ items → k.parentId = some x.id →
      k.id ≠ root.id → Reaches items root k

theorem ChildList.mem_iff {rootId : String} {items ks : List Item} {x k : Item}
    (h : ChildList items rootId x ks) : k ∈ ks ↔ k ∈ items ∧ k.parentId = some x.id ∧ k.id ≠ rootId := by
  rw [h.perm.mem_iff, List.mem_filter]
  simp

theorem childList_childrenOf (items : List Item) (rootId : String) (x : Item) :
    ChildList items rootId x ((childrenOf items x.id).filter (·.id != rootId)) := by
  have htrans : ∀ a b c : Item, decide (a.childOrder ≤ b.childOrder) = true →
      decide (b.childOrder ≤ c.childOrder) = true → decide (a.childOrder ≤ c.childOrder) = true := by
    intro a b c hab hbc
    simp only [decide_eq_true_eq] at hab hbc ⊢
    exact le_trans hab hbc
  have htotal : ∀ a b : Item, (decide (a.childOrder ≤ b.childOrder) || decide (b.childOrder ≤ a.childOrder)) = true := by
    intro a b
    simp only [Bool.or_eq_true, decide_eq_true_eq]
    exact le_total _ _
  -- both filters keep an item exactly when it names `x` and is not the root
  have hfilter : (items.filter (Item.isChildOf x.id)).filter (·.id != rootId) =
      items.filter fun k => k.parentId == some x.id && k.id != rootId := by
    rw [List.filter_filter]
    exact List.filter_congr fun k _ => Bool.and_comm _ _
  refine ⟨?_, ?_, fun a b hab heq => ?_⟩
  · rw [← hfilter]
    exact (List.mergeSort_perm _ _).filter _
  · refine ((List.pairwise_mergeSort htrans htotal _).imp ?_).sublist List.filter_sublist
    intro a b hab
    simpa using hab
  · rw [← hfilter] at hab
    have hsub := List.pair_sublist_mergeSort htrans htotal (by simp [heq]) (hab.trans List.filter_sublist)
    have hkeep := hsub.filter (·.id != rootId)
    rwa [List.filter_eq_self.mpr fun c hc => (List.mem_filter.mp (hab.subset hc)).2] at hkeep

/-! ## Nodes -/

theorem mem_nodes_self (t : ItemNode) : t ∈ t.nodes := by
  cases t
  rw [nodes_mk]
  exact List.mem_cons_self

theorem nodes_subset : ∀ {t s : ItemNode}, s ∈ t.nodes → s.nodes ⊆ t.nodes
  | mk i cs, s, hs => by
    rw [nodes_mk] at hs
    rcases List.mem_cons.mp hs with rfl | hs
    · exact List.Subset.refl _
    · obtain ⟨c, hc, hsc⟩ := List.mem_flatMap.mp hs
      have hsub : c.nodes ⊆ (mk i cs).nodes := fun u hu => by
        rw [nodes_mk]
        exact List.mem_cons_of_mem _ (List.mem_flatMap.mpr ⟨c, hc, hu⟩)
      exact List.Subset.trans (nodes_subset hsc) hsub

theorem mem_nodes_of_mem {i : Item} {cs : List ItemNode} {c : ItemNode} (hc : c ∈ cs) :
    c ∈ (mk i cs).nodes := by
  rw [nodes_mk]
  exact List.mem_cons_of_mem _ (List.mem_flatMap.mpr ⟨c, hc, mem_nodes_self c⟩)

theorem mem_zip_map {α β : Type} {f : α → β} {l : List α} {p : α × β} (h : p ∈ l.zip (l.map f)) :
    p.1 ∈ l ∧ p.2 = f p.1 := by
  have hz : l.zip (l.map f) = l.map fun a => (a, f a) := by
    simpa using (List.zip_map' (f := id) (g := f) (l := l))
  rw [hz] at h
  obtain ⟨a, ha, rfl⟩ := List.mem_map.mp h
  exact ⟨ha, rfl⟩

theorem exists_mem_zip_right {α β : Type} {c : β} :
    ∀ {ks : List α} {ts : List β}, ks.length = ts.length → c ∈ ts → ∃ k, (k, c) ∈ ks.zip ts
  | [], [], _, hc => absurd hc List.not_mem_nil
  | k :: ks, t :: ts, hlen, hc => by
    rcases List.mem_cons.mp hc with rfl | hc
    · exact ⟨k, List.mem_cons_self⟩
    · obtain ⟨k', hk'⟩ := exists_mem_zip_right (Nat.succ.inj hlen) hc
      exact ⟨k', List.mem_cons_of_mem _ hk'⟩

theorem exists_mem_zip_left {α β : Type} {k : α} :
    ∀ {ks : List α} {ts : List β}, ks.length = ts.length → k ∈ ks → ∃ c, (k, c) ∈ ks.zip ts
  | [], [], _, hk => absurd hk List.not_mem_nil
  | k' :: ks, t :: ts, hlen, hk => by
    rcases List.mem_cons.mp hk with rfl | hk
    · exact ⟨t, List.mem_cons_self⟩
    · obtain ⟨c, hc⟩ := exists_mem_zip_left (Nat.succ.inj hlen) hk
      exact ⟨c, List.mem_cons_of_mem _ hc⟩

/-! ## What the recursive tree holds -/

section Unfolds

variable {items : List Item} {rootId : String}

theorem Unfolds.item_eq {x : Item} {t : ItemNode} (h : Unfolds items rootId x t) : t.item = x := by
  cases h
  rfl

theorem Unfolds.linked {x : Item} {t : ItemNode} (h : Unfolds items rootId x t) :
    ∀ s ∈ t.nodes, ∀ c ∈ s.children, c.item.parentId = some s.item.id := by
  induction h with
  | mk x ks ts hcl hlen hbelow ih =>
    intro s hs c hc
    rw [nodes_mk] at hs
    rcases List.mem_cons.mp hs with rfl | hs
    · obtain ⟨k, hkc⟩ := exists_mem_zip_right hlen hc
      rw [(hbelow _ hkc).item_eq]
      exact (hcl.mem_iff.mp (List.of_mem_zip hkc).1).2.1
    · obtain ⟨c', hc', hs'⟩ := List.mem_flatMap.mp hs
      obtain ⟨k, hkc⟩ := exists_mem_zip_right hlen hc'
      exact ih _ hkc s hs' c hc

theorem Unfolds.reaches {r x : Item} {t : ItemNode} (h : Unfolds items r.id x t) (hx : Reaches items r x) :
    ∀ s ∈ t.nodes, Reaches items r s.item := by
  induction h with
  | mk x ks ts hcl hlen hbelow ih =>
    intro s hs
    rw [nodes_mk] at hs
    rcases List.mem_cons.mp hs with rfl | hs
    · exact hx
    · obtain ⟨c, hc, hsc⟩ := List.mem_flatMap.mp hs
      obtain ⟨k, hkc⟩ := exists_mem_zip_right hlen hc
      obtain ⟨hk, hkp, hkr⟩ := hcl.mem_iff.mp (List.of_mem_zip hkc).1
      exact ih _ hkc (.child hx hk hkp hkr) s hsc

theorem Unfolds.of_reaches {r y : Item} {t : ItemNode} (h : Unfolds items r.id r t) (hy : Reaches items r y) :
    ∃ s ∈ t.nodes, Unfolds items r.id y s := by
  induction hy with
  | root => exact ⟨t, mem_nodes_self t, h⟩
  | child _ hk hkp hkr ih =>
    obtain ⟨s, hs, hxs⟩ := ih
    cases hxs with
    | mk _ ks ts hcl hlen hbelow =>
      obtain ⟨c, hkc⟩ := exists_mem_zip_left hlen (hcl.mem_iff.mpr ⟨hk, hkp, hkr⟩)
      exact ⟨c, nodes_subset hs (mem_nodes_of_mem (List.of_mem_zip hkc).2), hbelow _ hkc⟩

theorem Unfolds.mem_iff_reaches {r : Item} {t : ItemNode} (h : Unfolds items r.id r t) (y : Item) :
    y ∈ t.nodes.map (·.item) ↔ Reaches items r y := by
  constructor
  · intro hy
    obtain ⟨s, hs, rfl⟩ := List.mem_map.mp hy
    exact h.reaches .root s hs
  · intro hy
    obtain ⟨s, hs, hys⟩ := h.of_reaches hy
    exact List.mem_map.mpr ⟨s, hs, hys.item_eq⟩

end Unfolds

/-! ## With ids told apart -/

section Distinct

variable {items : List Item} {rootId : String}

theorem childIds_parent_unique (hnd : (items.map (·.id)).Nodup) {a b k : String}
    (ha : k ∈ childIds items a) (hb : k ∈ childIds items b) : a = b := by
  obtain ⟨c, hc, rfl⟩ := List.mem_map.mp ha
  obtain ⟨c', hc', hid⟩ := List.mem_map.mp hb
  obtain ⟨hcL, hca⟩ := mem_of_mem_childrenOf hc
  obtain ⟨hc'L, hc'b⟩ := mem_of_mem_childrenOf hc'
  have hcc : c' = c := List.inj_on_of_nodup_map hnd hc'L hcL hid
  rw [hcc, hca] at hc'b
  exact Option.some.inj hc'b

theorem walk_kids (hnd : (items.map (·.id)).Nodup) :
    ∀ e ∈ walk items (items.length + 1) [rootId] [rootId] [],
      e.2 = (childIds items e.1).filter (· != rootId) := by
  refine walk_entries _ (fun i stack placed acc h => ?_) _ _ _ _ WalkInv.start
    fun _ he => absurd he List.not_mem_nil
  dsimp only
  rw [freshIds_eq_filter (show (childIds items i).Nodup from childrenOf_nodup hnd i)]
  refine List.filter_congr fun k hk => ?_
  -- a child was placed before only if it is the root: its one parent `i` is still on the stack
  have hplaced : k ∈ placed ↔ k = rootId := by
    constructor
    · intro hkp
      rcases List.mem_cons.mp (h.perm.mem_iff.mpr hkp) with hk' | hk'
      · exact hk'
      · obtain ⟨e, he, hke⟩ := List.mem_flatMap.mp hk'
        have hie := childIds_parent_unique hnd hk (h.children e he k hke)
        exact absurd (by rw [hie]; exact List.mem_map_of_mem he) (h.unpopped i List.mem_cons_self)
    · rintro rfl
      exact h.perm.mem_iff.mp List.mem_cons_self
  by_cases hkr : k = rootId
  · subst hkr
    simp [hplaced.mpr rfl]
  · have hkp : k ∉ placed := fun h' => hkr (hplaced.mp h')
    simp [hkp, hkr]

theorem assemble_unfolds (hnd : (items.map (·.id)).Nodup) {placed : List String}
    {w : List (String × List String)} (hw : WalkInv items rootId [] placed w)
    (hkids : ∀ e ∈ w, e.2 = (childIds items e.1).filter (· != rootId)) :
    ∀ (d : Nat) (x : Item), x ∈ items → x.id ∈ placed → placed.idxOf x.id < d →
      Unfolds items rootId x (assemble items w d x.id)
  | 0, _, _, _, hd => absurd hd (Nat.not_lt_zero _)
  | d + 1, x, hx, hxp, hd => by
    -- `x` was popped, with all its children but the root placed under it
    obtain ⟨e, he, hex⟩ : ∃ e ∈ w, e.1 = x.id := by
      rcases (hw.placed_iff x.id).mp hxp with h | h
      · cases h
      · exact List.mem_map.mp h
    have hpu : placedUnder w x.id = ((childrenOf items x.id).filter (·.id != rootId)).map (·.id) := by
      rw [← hex, placedUnder_of_mem hw.popped_nodup he, hkids e he, hex, childIds, List.filter_map]
      rfl
    rw [assemble, lastWithId_of_mem hnd hx, Option.getD_some, hpu, List.map_map]
    refine .mk x _ _ (childList_childrenOf items rootId x) (List.length_map _).symm fun p hp => ?_
    obtain ⟨hk, hp2⟩ := mem_zip_map hp
    rw [hp2]
    have hkpu : p.1.id ∈ placedUnder w x.id := by
      rw [hpu]
      exact List.mem_map_of_mem hk
    have hkL := (mem_of_mem_childrenOf (List.mem_filter.mp hk).1).1
    exact assemble_unfolds hnd hw hkids d p.1 hkL (hw.placedUnder_placed hkpu)
      (Nat.lt_of_lt_of_le (hw.rank_lt hkpu) (Nat.le_of_lt_succ hd))

theorem build_unfolds (hnd : (items.map (·.id)).Nodup) {r : Item} (hr : r ∈ items) :
    ∃ t, build items r.id = some t ∧ Unfolds items r.id r t := by
  obtain ⟨⟨placed, hw⟩, -⟩ := walk_from_root items r.id
  have hrp : r.id ∈ placed := hw.perm.mem_iff.mp List.mem_cons_self
  have hidx : placed.idxOf r.id < items.length + 1 :=
    Nat.lt_of_lt_of_le (List.idxOf_lt_length_of_mem hrp) hw.placed_length_le
  refine ⟨_, ?_, assemble_unfolds hnd hw (walk_kids hnd) _ r hr hrp hidx⟩
  unfold build
  rw [if_pos (List.any_eq_true.mpr ⟨r, hr, by simp⟩)]

end Distinct

/-! ## The builder's tree -/

/-- For any items, the builder answers nothing exactly when no item has the root's id, its walk
finishes within its fuel, and its tree holds each id at most once. With ids told apart, the tree
under an item is that item's recursive tree: it holds exactly the items the item reaches, and
every child in it names its parent. -/
theorem build_is_recursive_tree (items : List Item) (rootId : String) :
    (build items rootId = none ↔ ∀ x ∈ items, x.id ≠ rootId) ∧
    (∀ n, walk items (items.length + 1 + n) [rootId] [rootId] [] =
      walk items (items.length + 1) [rootId] [rootId] []) ∧
    (∀ t, build items rootId = some t → (t.nodes.map (·.item.id)).Nodup) ∧
    ((items.map (·.id)).Nodup → ∀ r ∈ items, r.id = rootId →
      ∃ t, build items rootId = some t ∧ Unfolds items rootId r t ∧
        (∀ y, y ∈ t.nodes.map (·.item) ↔ Reaches items r y) ∧
        ∀ s ∈ t.nodes, ∀ c ∈ s.children, c.item.parentId = some s.item.id) := by
  refine ⟨build_eq_none_iff, (walk_from_root items rootId).2, fun t ht => build_ids_nodup ht, ?_⟩
  rintro hnd r hr rfl
  obtain ⟨t, ht, hu⟩ := build_unfolds hnd hr
  exact ⟨t, ht, hu, hu.mem_iff_reaches, hu.linked⟩

/-- A root with one child. -/
theorem root_and_child_tree :
    (([⟨"root", "d", none, "root", 0, false⟩, ⟨"a", "d", some "root", "a", 0, false⟩] :
      List Item).map (·.id)).Nodup ∧
    (⟨"root", "d", none, "root", 0, false⟩ : Item) ∈
      ([⟨"root", "d", none, "root", 0, false⟩, ⟨"a", "d", some "root", "a", 0, false⟩] : List Item) ∧
    ∃ t, build [⟨"root", "d", none, "root", 0, false⟩, ⟨"a", "d", some "root", "a", 0, false⟩] "root" =
        some t ∧
      Unfolds [⟨"root", "d", none, "root", 0, false⟩, ⟨"a", "d", some "root", "a", 0, false⟩] "root"
        ⟨"root", "d", none, "root", 0, false⟩ t ∧
      (∀ y, y ∈ t.nodes.map (·.item) ↔
        Reaches [⟨"root", "d", none, "root", 0, false⟩, ⟨"a", "d", some "root", "a", 0, false⟩]
          ⟨"root", "d", none, "root", 0, false⟩ y) ∧
      ∀ s ∈ t.nodes, ∀ c ∈ s.children, c.item.parentId = some s.item.id :=
  ⟨by decide, List.mem_cons_self,
    (build_is_recursive_tree [⟨"root", "d", none, "root", 0, false⟩, ⟨"a", "d", some "root", "a", 0, false⟩]
      "root").2.2.2 (by decide) _ List.mem_cons_self rfl⟩

end Outliner.ItemNode
