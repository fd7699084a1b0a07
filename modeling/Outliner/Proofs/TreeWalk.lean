import Mathlib
import Outliner.Proofs.TreeMap

/-!
# The tree builder's stack walk

The walk pops an id, places the ids of its children not placed yet and pushes them. Whatever
the items (ids repeated, parents that form cycles, parents no item has), it keeps one invariant
(`WalkInv`): every id placed is on the stack or popped, once; every popped id was popped once and
answered with ids of its children, all of them placed by then; and every id placed under a
popped one stands before it in the list of placed ids, which only grows at its front.

So the walk pops each placed id once and stops within `items.length + 1` pops: more fuel changes
nothing (`walk_run`). In its answer an id is placed under at most one other, and below it in
the order of placing, so the placement has no cycle (`Below`), and the tree assembled from it
holds every id at most once (`assemble_ids_nodup`).
-/

set_option autoImplicit false

namespace Outliner.ItemNode

/-! ## Fresh ids -/

section Fresh

variable {placed ks : List String}

theorem freshIds_snd (placed ks : List String) :
    (freshIds placed ks).2 = (freshIds placed ks).1.reverse ++ placed := by
  induction ks generalizing placed with
  | nil => rfl
  | cons k ks ih =>
    rw [freshIds]
    split
    · exact ih placed
    · dsimp only
      rw [ih, List.reverse_cons, List.append_assoc, List.singleton_append]

theorem mem_freshIds {k : String} : k ∈ (freshIds placed ks).1 ↔ k ∈ ks ∧ k ∉ placed := by
  induction ks generalizing placed with
  | nil => simp [freshIds]
  | cons x ks ih =>
    rw [freshIds]
    split
    · rename_i hx
      have hx' : x ∈ placed := List.contains_iff_mem.mp hx
      rw [ih, List.mem_cons]
      by_cases hkx : k = x
      · subst hkx
        simp [hx']
      · simp [hkx]
    · rename_i hx
      have hx' : x ∉ placed := fun h => hx (List.contains_iff_mem.mpr h)
      dsimp only
      rw [List.mem_cons, ih, List.mem_cons, List.mem_cons]
      by_cases hkx : k = x
      · subst hkx
        simp [hx']
      · simp [hkx]

theorem nodup_freshIds (h : placed.Nodup) : (freshIds placed ks).2.Nodup := by
  induction ks generalizing placed with
  | nil => exact h
  | cons x ks ih =>
    rw [freshIds]
    split
    · exact ih h
    · rename_i hx
      exact ih (List.nodup_cons.mpr ⟨fun h' => hx (List.contains_iff_mem.mpr h'), h⟩)

theorem freshIds_eq_filter (hks : ks.Nodup) :
    (freshIds placed ks).1 = ks.filter fun k => !placed.contains k := by
  induction ks generalizing placed with
  | nil => rfl
  | cons x ks ih =>
    obtain ⟨hx, hks⟩ := List.nodup_cons.mp hks
    rw [freshIds, List.filter_cons]
    split
    · rename_i hc
      rw [if_neg (by rw [hc]; decide), ih hks]
    · rename_i hc
      rw [if_pos (by rw [Bool.eq_false_iff.mpr hc]; rfl)]
      dsimp only
      rw [ih hks]
      congr 1
      refine List.filter_congr fun k hk => ?_
      have hkx : (k == x) = false := beq_false_of_ne fun h => hx (h ▸ hk)
      rw [List.contains_cons, hkx, Bool.false_or]

end Fresh

/-! ## What the walk keeps -/

/-- The ids of the items naming `i` as parent, in the order the builder reads them. -/
def childIds (items : List Item) (i : String) : List String := (childrenOf items i).map (·.id)

theorem walk_cons (items : List Item) (fuel : Nat) (i : String) (stack placed : List String)
    (acc : List (String × List String)) :
    walk items (fuel + 1) (i :: stack) placed acc =
      walk items fuel ((freshIds placed (childIds items i)).1.reverse ++ stack)
        (freshIds placed (childIds items i)).2 ((i, (freshIds placed (childIds items i)).1) :: acc) :=
  rfl

theorem mem_ids_of_childIds {items : List Item} {i k : String} (hk : k ∈ childIds items i) :
    k ∈ items.map (·.id) := by
  obtain ⟨c, hc, rfl⟩ := List.mem_map.mp hk
  exact List.mem_map_of_mem (mem_of_mem_childrenOf hc).1

variable (items : List Item) (rootId : String)

/-- What the walk from `rootId` keeps: the placed ids are those on the stack and those popped,
each once; the root and the ids placed under popped ones are the placed ids; a popped id was
answered with ids of its children, and all its children are placed; and an id placed under a
popped one stands before it among the placed ids. -/
structure WalkInv (stack placed : List String) (acc : List (String × List String)) : Prop where
  nodup : placed.Nodup
  placed_iff : ∀ x, x ∈ placed ↔ x ∈ stack ∨ x ∈ acc.map Prod.fst
  stack_nodup : stack.Nodup
  popped_nodup : (acc.map Prod.fst).Nodup
  unpopped : ∀ x ∈ stack, x ∉ acc.map Prod.fst
  perm : (rootId :: acc.flatMap Prod.snd).Perm placed
  children : ∀ e ∈ acc, ∀ k ∈ e.2, k ∈ childIds items e.1
  covered : ∀ e ∈ acc, ∀ k ∈ childIds items e.1, k ∈ placed
  rank : ∀ e ∈ acc, ∀ k ∈ e.2, placed.idxOf k < placed.idxOf e.1

variable {items rootId}

theorem WalkInv.start : WalkInv items rootId [rootId] [rootId] [] where
  nodup := List.nodup_singleton rootId
  placed_iff x := by simp
  stack_nodup := List.nodup_singleton rootId
  popped_nodup := List.nodup_nil
  unpopped x _ := List.not_mem_nil
  perm := List.Perm.refl _
  children _ h := absurd h List.not_mem_nil
  covered _ h := absurd h List.not_mem_nil
  rank _ h := absurd h List.not_mem_nil

section Step

variable {i : String} {stack placed : List String} {acc : List (String × List String)}

theorem WalkInv.mem_placed_of_entry (h : WalkInv items rootId stack placed acc) {e : String × List String}
    (he : e ∈ acc) {k : String} (hk : k ∈ e.2) : k ∈ placed :=
  h.perm.mem_iff.mp (List.mem_cons_of_mem _ (List.mem_flatMap.mpr ⟨e, he, hk⟩))

theorem WalkInv.popped_mem_placed (h : WalkInv items rootId stack placed acc)
    {e : String × List String} (he : e ∈ acc) : e.1 ∈ placed :=
  (h.placed_iff e.1).mpr (.inr (List.mem_map_of_mem he))

theorem WalkInv.step (h : WalkInv items rootId (i :: stack) placed acc) :
    WalkInv items rootId ((freshIds placed (childIds items i)).1.reverse ++ stack)
      (freshIds placed (childIds items i)).2 ((i, (freshIds placed (childIds items i)).1) :: acc) := by
  rw [freshIds_snd]
  set F := (freshIds placed (childIds items i)).1 with hFdef
  have hF : ∀ k, k ∈ F ↔ k ∈ childIds items i ∧ k ∉ placed := fun k => mem_freshIds
  have hFn : (F.reverse ++ placed).Nodup := by
    have : (freshIds placed (childIds items i)).2.Nodup := nodup_freshIds h.nodup
    rwa [freshIds_snd] at this
  have hi : i ∈ placed := (h.placed_iff i).mpr (.inl List.mem_cons_self)
  obtain ⟨hin, hsn⟩ := List.nodup_cons.mp h.stack_nodup
  -- an old id keeps its place behind the fresh ones
  have hshift : ∀ x ∈ placed, (F.reverse ++ placed).idxOf x = F.reverse.length + placed.idxOf x :=
    fun x hx => List.idxOf_append_of_notMem fun h' => ((hF x).mp (List.mem_reverse.mp h')).2 hx
  refine ⟨hFn, fun x => ?_, ?_, ?_, fun x hx => ?_, ?_, fun e he k hk => ?_, fun e he k hk => ?_,
    fun e he k hk => ?_⟩
  · rw [List.mem_append, h.placed_iff, List.mem_append, List.map_cons, List.mem_cons, List.mem_cons]
    tauto
  · refine List.nodup_append.mpr ⟨(List.nodup_append.mp hFn).1, hsn, fun a ha b hb hab => ?_⟩
    exact ((hF a).mp (List.mem_reverse.mp ha)).2 (hab ▸ (h.placed_iff b).mpr (.inl (List.mem_cons_of_mem _ hb)))
  · exact List.nodup_cons.mpr ⟨h.unpopped i List.mem_cons_self, h.popped_nodup⟩
  · rw [List.map_cons, List.mem_cons]
    rcases List.mem_append.mp hx with hxF | hxs
    · have hxp := ((hF x).mp (List.mem_reverse.mp hxF)).2
      rintro (rfl | hx')
      · exact hxp hi
      · exact hxp ((h.placed_iff x).mpr (.inr hx'))
    · rintro (rfl | hx')
      · exact hin hxs
      · exact h.unpopped x (List.mem_cons_of_mem _ hxs) hx'
  · rw [List.flatMap_cons]
    exact (List.perm_middle.symm.trans (List.Perm.append (List.reverse_perm F).symm h.perm))
  · rcases List.mem_cons.mp he with rfl | he
    · exact ((hF k).mp hk).1
    · exact h.children e he k hk
  · rcases List.mem_cons.mp he with rfl | he
    · by_cases hkp : k ∈ placed
      · exact List.mem_append_right _ hkp
      · exact List.mem_append_left _ (List.mem_reverse.mpr ((hF k).mpr ⟨hk, hkp⟩))
    · exact List.mem_append_right _ (h.covered e he k hk)
  · rcases List.mem_cons.mp he with rfl | he
    · -- a fresh id stands among the fresh ones, `i` behind them
      have hkF : k ∈ F.reverse := List.mem_reverse.mpr hk
      rw [List.idxOf_append_of_mem hkF, hshift i hi]
      exact Nat.lt_of_lt_of_le (List.idxOf_lt_length_of_mem hkF) (Nat.le_add_right _ _)
    · rw [hshift k (h.mem_placed_of_entry he hk), hshift e.1 (h.popped_mem_placed he)]
      exact Nat.add_lt_add_left (h.rank e he k hk) _

theorem WalkInv.mem_ids_of_placed (h : WalkInv items rootId stack placed acc) {x : String}
    (hx : x ∈ placed) : x ∈ rootId :: items.map (·.id) := by
  rcases List.mem_cons.mp (h.perm.mem_iff.mpr hx) with rfl | hx'
  · exact List.mem_cons_self
  · obtain ⟨e, he, hk⟩ := List.mem_flatMap.mp hx'
    exact List.mem_cons_of_mem _ (mem_ids_of_childIds (h.children e he x hk))

theorem WalkInv.placed_length_le (h : WalkInv items rootId stack placed acc) :
    placed.length ≤ items.length + 1 := by
  have := (h.nodup.subperm fun x hx => h.mem_ids_of_placed hx).length_le
  simpa using this

theorem WalkInv.length_le (h : WalkInv items rootId stack placed acc) :
    acc.length + stack.length ≤ items.length + 1 := by
  have hnd : (acc.map Prod.fst ++ stack).Nodup :=
    List.nodup_append.mpr ⟨h.popped_nodup, h.stack_nodup,
      fun a ha b hb hab => h.unpopped b hb (hab ▸ ha)⟩
  have hsub : acc.map Prod.fst ++ stack ⊆ rootId :: items.map (·.id) := fun x hx =>
    h.mem_ids_of_placed ((h.placed_iff x).mpr ((List.mem_append.mp hx).symm))
  have := (hnd.subperm hsub).length_le
  simpa [List.length_append, List.length_map] using this

end Step

theorem walk_run : ∀ (fuel : Nat) (stack placed : List String) (acc : List (String × List String)),
    WalkInv items rootId stack placed acc → items.length + 1 ≤ fuel + acc.length →
      (∃ placed', WalkInv items rootId [] placed' (walk items fuel stack placed acc)) ∧
        ∀ n, walk items (fuel + n) stack placed acc = walk items fuel stack placed acc
  | 0, stack, placed, acc, h, hfuel => by
    have hlen := h.length_le
    obtain rfl : stack = [] := List.eq_nil_of_length_eq_zero (by omega)
    refine ⟨⟨placed, h⟩, fun n => ?_⟩
    rw [Nat.zero_add]
    cases n <;> rfl
  | fuel + 1, [], placed, acc, h, _ =>
    ⟨⟨placed, h⟩, fun n => by rw [Nat.add_right_comm]; rfl⟩
  | fuel + 1, i :: stack, placed, acc, h, hfuel => by
    have ih := walk_run fuel _ _ _ h.step (by rw [List.length_cons]; omega)
    refine ⟨by rw [walk_cons]; exact ih.1, fun n => ?_⟩
    rw [Nat.add_right_comm, walk_cons, walk_cons, ih.2 n]

theorem walk_entries (E : String × List String → Prop)
    (hstep : ∀ i stack placed acc, WalkInv items rootId (i :: stack) placed acc →
      E (i, (freshIds placed (childIds items i)).1)) :
    ∀ (fuel : Nat) (stack placed : List String) (acc : List (String × List String)),
      WalkInv items rootId stack placed acc → (∀ e ∈ acc, E e) →
        ∀ e ∈ walk items fuel stack placed acc, E e
  | 0, _, _, _, _, hacc => hacc
  | _ + 1, [], _, _, _, hacc => hacc
  | fuel + 1, i :: stack, placed, acc, h, hacc => by
    rw [walk_cons]
    exact walk_entries E hstep fuel _ _ _ h.step
      (List.forall_mem_cons.mpr ⟨hstep i stack placed acc h, hacc⟩)

/-! ## The walk's answer -/

section Answer

variable {w : List (String × List String)} {x k : String}

theorem placedUnder_of_mem (hnd : (w.map Prod.fst).Nodup) {e : String × List String} (he : e ∈ w) :
    placedUnder w e.1 = e.2 := by
  induction w with
  | nil => cases he
  | cons e' w ih =>
    rw [List.map_cons] at hnd
    obtain ⟨hnot, hnd⟩ := List.nodup_cons.mp hnd
    rw [placedUnder_cons]
    rcases List.mem_cons.mp he with rfl | he
    · rw [if_pos rfl]
    · rw [if_neg fun h => hnot (by rw [h]; exact List.mem_map_of_mem he), ih hnd he]

theorem placedUnder_cases (w : List (String × List String)) (x : String) :
    placedUnder w x = [] ∨ ∃ e ∈ w, e.1 = x ∧ placedUnder w x = e.2 := by
  induction w with
  | nil => exact .inl rfl
  | cons e w ih =>
    rw [placedUnder_cons]
    split
    · rename_i hx
      exact .inr ⟨e, List.mem_cons_self, hx, rfl⟩
    · rcases ih with h | ⟨e', he', hx, h⟩
      · exact .inl h
      · exact .inr ⟨e', List.mem_cons_of_mem _ he', hx, h⟩

theorem entry_of_mem_placedUnder (hk : k ∈ placedUnder w x) : ∃ e ∈ w, e.1 = x ∧ k ∈ e.2 := by
  rcases placedUnder_cases w x with h | ⟨e, he, hx, h⟩
  · rw [h] at hk
    cases hk
  · exact ⟨e, he, hx, h ▸ hk⟩

variable {stack placed : List String}

theorem WalkInv.placedUnder_childIds (h : WalkInv items rootId stack placed w) (hk : k ∈ placedUnder w x) :
    k ∈ childIds items x := by
  obtain ⟨e, he, rfl, hke⟩ := entry_of_mem_placedUnder hk
  exact h.children e he k hke

theorem WalkInv.placedUnder_placed (h : WalkInv items rootId stack placed w) (hk : k ∈ placedUnder w x) :
    k ∈ placed := by
  obtain ⟨e, he, -, hke⟩ := entry_of_mem_placedUnder hk
  exact h.mem_placed_of_entry he hke

theorem WalkInv.rank_lt (h : WalkInv items rootId stack placed w) (hk : k ∈ placedUnder w x) :
    placed.idxOf k < placed.idxOf x := by
  obtain ⟨e, he, rfl, hke⟩ := entry_of_mem_placedUnder hk
  exact h.rank e he k hke

theorem WalkInv.nodup_flatMap (h : WalkInv items rootId stack placed w) :
    (rootId :: w.flatMap Prod.snd).Nodup :=
  h.perm.nodup_iff.mpr h.nodup

theorem WalkInv.placedUnder_nodup (h : WalkInv items rootId stack placed w) (x : String) :
    (placedUnder w x).Nodup := by
  rcases placedUnder_cases w x with hx | ⟨e, he, -, hx⟩
  · rw [hx]
    exact List.nodup_nil
  · rw [hx]
    exact (List.nodup_flatMap.mp (List.nodup_cons.mp h.nodup_flatMap).2).1 e he

theorem WalkInv.parent_unique (h : WalkInv items rootId stack placed w) {a b : String}
    (ha : k ∈ placedUnder w a) (hb : k ∈ placedUnder w b) : a = b := by
  obtain ⟨e₁, he₁, rfl, hk₁⟩ := entry_of_mem_placedUnder ha
  obtain ⟨e₂, he₂, rfl, hk₂⟩ := entry_of_mem_placedUnder hb
  by_contra hne
  have hpair := (List.nodup_flatMap.mp (List.nodup_cons.mp h.nodup_flatMap).2).2
  have : Std.Symm (Function.onFun List.Disjoint (Prod.snd : String × List String → List String)) :=
    ⟨fun _ _ hd => List.Disjoint.symm hd⟩
  exact hpair.forall he₁ he₂ (fun he => hne (he ▸ rfl)) hk₁ hk₂

end Answer

/-! ## Placement has no cycle -/

/-- `k` is `i` or was placed, step by step, under ids placed under `i`. -/
inductive Below (w : List (String × List String)) (i : String) : String → Prop
  | refl : Below w i i
  | tail {j k : String} : Below w i j → k ∈ placedUnder w j → Below w i k

section Below

variable {w : List (String × List String)} {stack placed : List String} {i k : String}

theorem Below.of_child {c : String} (hc : c ∈ placedUnder w i) (h : Below w c k) : Below w i k := by
  induction h with
  | refl => exact .tail .refl hc
  | tail _ hk ih => exact .tail ih hk

theorem Below.rank_le (hw : WalkInv items rootId stack placed w) (h : Below w i k) :
    placed.idxOf k ≤ placed.idxOf i := by
  induction h with
  | refl => exact Nat.le_refl _
  | tail _ hk ih => exact Nat.le_of_lt (Nat.lt_of_lt_of_le (hw.rank_lt hk) ih)

theorem Below.total (hw : WalkInv items rootId stack placed w) {a b : String} (ha : Below w a k) :
    Below w b k → Below w a b ∨ Below w b a := by
  induction ha with
  | refl => exact .inr
  | tail haj hk ih =>
    intro hb
    cases hb with
    | refl => exact .inl (.tail haj hk)
    | tail hbj hk' => exact ih (hw.parent_unique hk' hk ▸ hbj)

theorem Below.not_sibling (hw : WalkInv items rootId stack placed w) {c₁ c₂ : String}
    (hc₁ : c₁ ∈ placedUnder w i) (hc₂ : c₂ ∈ placedUnder w i) (hne : c₁ ≠ c₂) : ¬Below w c₁ c₂ := by
  intro h
  cases h with
  | refl => exact hne rfl
  | tail hj hk =>
    have hi := hw.parent_unique hk hc₂ ▸ hj
    exact absurd (hi.rank_le hw) (Nat.not_le_of_lt (hw.rank_lt hc₁))

end Below

/-! ## Each id once in the assembled tree -/

/-- The nodes of a tree, each before the nodes under it. -/
def nodes : ItemNode → List ItemNode
  | mk i cs => mk i cs :: cs.flatMap nodes

theorem nodes_mk (i : Item) (cs : List ItemNode) : nodes (mk i cs) = mk i cs :: cs.flatMap nodes := by
  rw [nodes]

theorem lastWithId_id {x : String} (hx : x ∈ items.map (·.id)) :
    ((lastWithId items x).getD Item.blank).id = x := by
  unfold lastWithId
  obtain ⟨c, hc, rfl⟩ := List.mem_map.mp hx
  cases h : items.reverse.find? (·.id == c.id) with
  | none => exact absurd (List.find?_eq_none.mp h c (List.mem_reverse.mpr hc)) (by simp)
  | some c' => simpa using List.find?_some h

theorem assemble_item (w : List (String × List String)) (d : Nat) (x : String) :
    (assemble items w d x).item = (lastWithId items x).getD Item.blank := by
  cases d <;> rfl

theorem ids_assemble_succ (w : List (String × List String)) (d : Nat) (x : String) :
    (assemble items w (d + 1) x).nodes.map (·.item.id) =
      ((lastWithId items x).getD Item.blank).id ::
        (placedUnder w x).flatMap fun c => (assemble items w d c).nodes.map (·.item.id) := by
  rw [assemble, nodes_mk, List.map_cons, List.flatMap_map, List.map_flatMap]
  rfl

section Assembled

variable {w : List (String × List String)} {stack placed : List String}

theorem below_of_mem_assemble (hw : WalkInv items rootId stack placed w) :
    ∀ (d : Nat) (x : String), x ∈ items.map (·.id) →
      ∀ y ∈ (assemble items w d x).nodes.map (·.item.id), Below w x y
  | 0, x, hx, y, hy => by
    rw [assemble, nodes_mk, List.flatMap_nil, List.map_singleton, List.mem_singleton] at hy
    rw [hy, item, lastWithId_id hx]
    exact .refl
  | d + 1, x, hx, y, hy => by
    rw [ids_assemble_succ, List.mem_cons, lastWithId_id hx] at hy
    rcases hy with rfl | hy
    · exact .refl
    · obtain ⟨c, hc, hy⟩ := List.mem_flatMap.mp hy
      have hcid := mem_ids_of_childIds (hw.placedUnder_childIds hc)
      exact (below_of_mem_assemble hw d c hcid y hy).of_child hc

theorem assemble_ids_nodup (hw : WalkInv items rootId stack placed w) :
    ∀ (d : Nat) (x : String), x ∈ items.map (·.id) →
      ((assemble items w d x).nodes.map (·.item.id)).Nodup
  | 0, x, _ => by
    rw [assemble, nodes_mk, List.flatMap_nil, List.map_singleton]
    exact List.nodup_singleton _
  | d + 1, x, hx => by
    have hkid : ∀ c ∈ placedUnder w x, c ∈ items.map (·.id) :=
      fun c hc => mem_ids_of_childIds (hw.placedUnder_childIds hc)
    rw [ids_assemble_succ, lastWithId_id hx]
    refine List.nodup_cons.mpr ⟨fun hmem => ?_, List.nodup_flatMap.mpr ⟨fun c hc =>
      assemble_ids_nodup hw d c (hkid c hc), (hw.placedUnder_nodup x).pairwise_of_forall_ne
        fun c₁ hc₁ c₂ hc₂ hne y hy₁ hy₂ => ?_⟩⟩
    · -- `x` below one of its children would stand before it
      obtain ⟨c, hc, hxc⟩ := List.mem_flatMap.mp hmem
      have hbelow := below_of_mem_assemble hw d c (hkid c hc) x hxc
      exact absurd (hbelow.rank_le hw) (Nat.not_le_of_lt (hw.rank_lt hc))
    · -- an id below two children would put one of them below the other
      rcases (below_of_mem_assemble hw d c₁ (hkid c₁ hc₁) y hy₁).total hw
          (below_of_mem_assemble hw d c₂ (hkid c₂ hc₂) y hy₂) with h | h
      · exact Below.not_sibling hw hc₁ hc₂ hne h
      · exact Below.not_sibling hw hc₂ hc₁ (Ne.symm hne) h

end Assembled

/-! ## The builder on any items -/

theorem walk_from_root (items : List Item) (rootId : String) :
    (∃ placed, WalkInv items rootId [] placed (walk items (items.length + 1) [rootId] [rootId] [])) ∧
      ∀ n, walk items (items.length + 1 + n) [rootId] [rootId] [] =
        walk items (items.length + 1) [rootId] [rootId] [] :=
  walk_run _ _ _ _ WalkInv.start (Nat.le_add_right _ _)

theorem build_eq_none_iff : build items rootId = none ↔ ∀ x ∈ items, x.id ≠ rootId := by
  unfold build
  split
  · rename_i hany
    obtain ⟨x, hx, hxr⟩ := List.any_eq_true.mp hany
    exact iff_of_false (Option.some_ne_none _) fun h => h x hx (by simpa using hxr)
  · rename_i hany
    refine iff_of_true rfl fun x hx hxr => hany (List.any_eq_true.mpr ⟨x, hx, by simp [hxr]⟩)

theorem build_ids_nodup {t : ItemNode} (h : build items rootId = some t) :
    (t.nodes.map (·.item.id)).Nodup := by
  unfold build at h
  split at h
  · rename_i hany
    obtain ⟨x, hx, hxr⟩ := List.any_eq_true.mp hany
    have hroot : rootId ∈ items.map (·.id) := List.mem_map.mpr ⟨x, hx, by simpa using hxr⟩
    obtain ⟨placed, hw⟩ := (walk_from_root items rootId).1
    cases h
    exact assemble_ids_nodup hw _ rootId hroot
  · cases h

end Outliner.ItemNode
