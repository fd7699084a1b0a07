import Mathlib
import Outliner.Proofs.Preservation

/-!
# Relabelling the items of a tree

The tree builder looks at its list of items only through `childrenOf`, `lastWithId` and the
length of the list. So when a second list `L'` answers every such question about a renamed id
`f x` with the answer for `x` renamed by `g` (`Relabel L L' f g`), the builder's stack walk on
`L'` is the walk on `L` renamed step by step (`walk_map`), and the tree it builds under a
renamed root is the tree under the root with every item below the top renamed
(`build_map`). Comparing two trees with their ids erased is then comparing items.
-/

set_option autoImplicit false

namespace Outliner

/-- The item with its ids cleared: what stays is its text, its child order and whether it is
collapsed. -/
def Item.erase (i : Item) : Item := { i with id := "", documentId := "", parentId := none }

namespace ItemNode

/-- The node with every item mapped by `g`. -/
def map (g : Item → Item) : ItemNode → ItemNode
  | mk i cs => mk (g i) (cs.map (map g))

/-- The node with the text of its top item replaced. -/
def retitle : ItemNode → String → ItemNode
  | mk i cs, s => mk { i with itemText := s } cs

@[simp] theorem map_mk (g : Item → Item) (i : Item) (cs : List ItemNode) :
    map g (mk i cs) = mk (g i) (cs.map (map g)) := by
  rw [map]

theorem map_map (g h : Item → Item) : ∀ t : ItemNode, map g (map h t) = map (g ∘ h) t
  | mk i cs => by
    rw [map_mk, map_mk, map_mk, List.map_map]
    congr 1
    exact List.map_congr_left fun c _ => map_map g h c

theorem mem_of_mem_childrenOf {L : List Item} {x : String} {c : Item} (h : c ∈ childrenOf L x) :
    c ∈ L ∧ c.parentId = some x := by
  obtain ⟨hc, hx⟩ := List.mem_filter.mp (List.mem_mergeSort.mp h)
  exact ⟨hc, by simpa [Item.isChildOf] using hx⟩

theorem childrenOf_nodup {L : List Item} (hL : (L.map (·.id)).Nodup) (x : String) :
    ((childrenOf L x).map (·.id)).Nodup :=
  ((List.mergeSort_perm _ _).map _).nodup_iff.mpr (hL.sublist (List.filter_sublist.map _))

theorem lastWithId_of_mem {L : List Item} (hL : (L.map (·.id)).Nodup) {c : Item} (hc : c ∈ L) :
    lastWithId L c.id = some c := by
  unfold lastWithId
  cases h : L.reverse.find? (·.id == c.id) with
  | none => exact absurd (List.find?_eq_none.mp h c (List.mem_reverse.mpr hc)) (by simp)
  | some c' =>
    have hc' := List.mem_reverse.mp (List.mem_of_find?_eq_some h)
    have hid : c'.id = c.id := by simpa using List.find?_some h
    rw [List.inj_on_of_nodup_map hL hc' hc hid]

theorem placedUnder_cons (e : String × List String) (w : List (String × List String)) (x : String) :
    placedUnder (e :: w) x = if e.1 = x then e.2 else placedUnder w x := by
  rcases e with ⟨y, ks⟩
  unfold placedUnder
  rw [List.find?_cons]
  by_cases h : y = x
  · rw [if_pos h, show (y == x) = true from beq_iff_eq.mpr h]
  · rw [if_neg h, show (y == x) = false from beq_false_of_ne h]

theorem mem_placedUnder {w : List (String × List String)} {x k : String} (hk : k ∈ placedUnder w x) :
    ∃ e ∈ w, k ∈ e.2 := by
  induction w with
  | nil => simp [placedUnder] at hk
  | cons e w ih =>
    rw [placedUnder_cons] at hk
    split at hk
    · exact ⟨e, List.mem_cons_self, hk⟩
    · obtain ⟨e', he', hk'⟩ := ih hk
      exact ⟨e', List.mem_cons_of_mem _ he', hk'⟩

theorem freshIds_mem {placed ks : List String} {x : String} :
    (x ∈ (freshIds placed ks).1 → x ∈ ks) ∧ (x ∈ (freshIds placed ks).2 → x ∈ placed ∨ x ∈ ks) := by
  induction ks generalizing placed with
  | nil => exact ⟨fun h => absurd h List.not_mem_nil, .inl⟩
  | cons k ks ih =>
    rw [freshIds]
    split
    · exact ⟨fun h => List.mem_cons_of_mem _ (ih.1 h),
        fun h => (ih.2 h).imp_right (List.mem_cons_of_mem _)⟩
    · refine ⟨fun h => ?_, fun h => ?_⟩
      · rcases List.mem_cons.mp h with rfl | h
        · exact List.mem_cons_self
        · exact List.mem_cons_of_mem _ (ih.1 h)
      · rcases ih.2 h with h | h
        · rcases List.mem_cons.mp h with rfl | h
          · exact .inr List.mem_cons_self
          · exact .inl h
        · exact .inr (List.mem_cons_of_mem _ h)

theorem walk_mem {L : List Item} {K V : String → Prop} (hK : ∀ x, ∀ c ∈ childrenOf L x, K c.id)
    (hV : ∀ x, ∀ c ∈ childrenOf L x, V c.id) :
    ∀ (fuel : Nat) (stack placed : List String) (acc : List (String × List String)),
      (∀ x ∈ stack, K x) → (∀ e ∈ acc, K e.1 ∧ ∀ k ∈ e.2, V k) →
        ∀ e ∈ walk L fuel stack placed acc, K e.1 ∧ ∀ k ∈ e.2, V k
  | 0, _, _, _, _, hacc => hacc
  | _ + 1, [], _, _, _, hacc => hacc
  | fuel + 1, i :: stack, placed, acc, hs, hacc => by
    rw [walk]
    have hfresh : ∀ k ∈ (freshIds placed ((childrenOf L i).map (·.id))).1,
        ∃ c ∈ childrenOf L i, c.id = k := fun k hk => List.mem_map.mp (freshIds_mem.1 hk)
    refine walk_mem hK hV fuel _ _ _ (fun x hx => ?_) (fun e he => ?_)
    · rcases List.mem_append.mp hx with hx | hx
      · obtain ⟨c, hc, rfl⟩ := hfresh x (List.mem_reverse.mp hx)
        exact hK i c hc
      · exact hs x (List.mem_cons_of_mem _ hx)
    · rcases List.mem_cons.mp he with rfl | he
      · refine ⟨hs i List.mem_cons_self, fun k hk => ?_⟩
        obtain ⟨c, hc, rfl⟩ := hfresh k hk
        exact hV i c hc
      · exact hacc e he

/-- `L'` answers the tree builder's questions about `f x` with its answers about `x`, items
renamed by `g`: the children, the last item of each id below the top, and the length. -/
structure Relabel (L L' : List Item) (f : String → String) (g : Item → Item) : Prop where
  nodup : (L.map (·.id)).Nodup
  injective : ∀ x ∈ L.map (·.id), ∀ y ∈ L.map (·.id), f x = f y → x = y
  id_eq : ∀ c ∈ L, (g c).id = f c.id
  children : ∀ x ∈ L.map (·.id), childrenOf L' (f x) = (childrenOf L x).map g
  last : ∀ c ∈ L, c.parentId.isSome → lastWithId L' (f c.id) = some (g c)
  length : L'.length = L.length

section Relabel

variable {L L' : List Item} {f : String → String} {g : Item → Item}

theorem freshIds_map {dom : List String} (hf : ∀ x ∈ dom, ∀ y ∈ dom, f x = f y → x = y) :
    ∀ (ks placed : List String), (∀ x ∈ ks, x ∈ dom) → (∀ x ∈ placed, x ∈ dom) →
      freshIds (placed.map f) (ks.map f) = ((freshIds placed ks).1.map f, (freshIds placed ks).2.map f)
  | [], _, _, _ => rfl
  | k :: ks, placed, hks, hp => by
    have hk := hks k List.mem_cons_self
    have hks' : ∀ x ∈ ks, x ∈ dom := fun x h => hks x (List.mem_cons_of_mem _ h)
    have hcontains : (placed.map f).contains (f k) = placed.contains k := by
      rw [Bool.eq_iff_iff, List.contains_iff_mem, List.contains_iff_mem]
      refine ⟨fun h => ?_, List.mem_map_of_mem⟩
      obtain ⟨y, hy, hyk⟩ := List.mem_map.mp h
      exact hf y (hp y hy) k hk hyk ▸ hy
    rw [List.map_cons, freshIds, freshIds, hcontains]
    split
    · exact freshIds_map hf ks placed hks' hp
    · rw [← List.map_cons, freshIds_map hf ks (k :: placed) hks' (List.forall_mem_cons.mpr ⟨hk, hp⟩)]
      rfl

theorem Relabel.childIds (h : Relabel L L' f g) (x : String) (hx : x ∈ L.map (·.id)) :
    (childrenOf L' (f x)).map (·.id) = ((childrenOf L x).map (·.id)).map f := by
  rw [h.children x hx, List.map_map, List.map_map]
  exact List.map_congr_left fun c hc => h.id_eq c (mem_of_mem_childrenOf hc).1

theorem walk_map (h : Relabel L L' f g) :
    ∀ (fuel : Nat) (stack placed : List String) (acc : List (String × List String)),
      (∀ x ∈ stack, x ∈ L.map (·.id)) → (∀ x ∈ placed, x ∈ L.map (·.id)) →
        walk L' fuel (stack.map f) (placed.map f) (acc.map (Prod.map f (List.map f))) =
          (walk L fuel stack placed acc).map (Prod.map f (List.map f))
  | 0, _, _, _, _, _ => rfl
  | _ + 1, [], _, _, _, _ => rfl
  | fuel + 1, i :: stack, placed, acc, hs, hp => by
    have hi := hs i List.mem_cons_self
    have hkids : ∀ x ∈ (childrenOf L i).map (·.id), x ∈ L.map (·.id) := fun x hx => by
      obtain ⟨c, hc, rfl⟩ := List.mem_map.mp hx
      exact List.mem_map_of_mem (mem_of_mem_childrenOf hc).1
    rw [List.map_cons, walk, walk, h.childIds i hi, freshIds_map h.injective _ _ hkids hp]
    dsimp only
    rw [← List.map_reverse, ← List.map_append]
    refine walk_map h fuel _ _ ((i, (freshIds placed ((childrenOf L i).map (·.id))).1) :: acc)
      (fun x hx => ?_) (fun x hx => ?_)
    · rcases List.mem_append.mp hx with hx | hx
      · exact hkids x (freshIds_mem.1 (List.mem_reverse.mp hx))
      · exact hs x (List.mem_cons_of_mem _ hx)
    · rcases freshIds_mem.2 hx with hx | hx
      · exact hp x hx
      · exact hkids x hx

theorem placedUnder_map {dom : List String} (hf : ∀ x ∈ dom, ∀ y ∈ dom, f x = f y → x = y)
    {w : List (String × List String)} (hw : ∀ e ∈ w, e.1 ∈ dom) {x : String} (hx : x ∈ dom) :
    placedUnder (w.map (Prod.map f (List.map f))) (f x) = (placedUnder w x).map f := by
  induction w with
  | nil => rfl
  | cons e w ih =>
    have he := hw e List.mem_cons_self
    rw [List.map_cons, placedUnder_cons, placedUnder_cons, ih fun e' h => hw e' (List.mem_cons_of_mem _ h)]
    rcases e with ⟨y, ks⟩
    dsimp only [Prod.map] at he ⊢
    by_cases hyx : y = x
    · rw [if_pos (congrArg f hyx), if_pos hyx]
    · rw [if_neg fun h' => hyx (hf _ he _ hx h'), if_neg hyx]

theorem assemble_map (h : Relabel L L' f g) {w : List (String × List String)}
    (hw : ∀ e ∈ w, e.1 ∈ L.map (·.id) ∧ ∀ k ∈ e.2, ∃ c ∈ L, c.parentId.isSome ∧ c.id = k) :
    ∀ (d : Nat) (c : Item), c ∈ L → c.parentId.isSome →
      assemble L' (w.map (Prod.map f (List.map f))) d (f c.id) = map g (assemble L w d c.id)
  | 0, c, hc, hp => by
    rw [assemble, assemble, h.last c hc hp, lastWithId_of_mem h.nodup hc]
    simp only [Option.getD_some, map_mk, List.map_nil]
  | d + 1, c, hc, hp => by
    have hcid : c.id ∈ L.map (·.id) := List.mem_map_of_mem hc
    rw [assemble, assemble, h.last c hc hp, lastWithId_of_mem h.nodup hc,
      placedUnder_map h.injective (fun e he => (hw e he).1) hcid, List.map_map]
    simp only [Option.getD_some, map_mk, List.map_map]
    congr 1
    refine List.map_congr_left fun k hk => ?_
    obtain ⟨e, he, hke⟩ := mem_placedUnder hk
    obtain ⟨c', hc', hp', rfl⟩ := (hw e he).2 k hke
    exact assemble_map h hw d c' hc' hp'

theorem build_map (h : Relabel L L' f g) {root root' : Item} (hr : root ∈ L)
    (hlast : lastWithId L' (f root.id) = some root') :
    build L' (f root.id) = (build L root.id).map fun t => mk root' (t.children.map (map g)) := by
  have hrid : root.id ∈ L.map (·.id) := List.mem_map_of_mem hr
  have hany : L.any (·.id == root.id) = true := List.any_eq_true.mpr ⟨root, hr, by simp⟩
  have hany' : L'.any (·.id == f root.id) = true := by
    unfold lastWithId at hlast
    have hid := List.find?_some hlast
    exact List.any_eq_true.mpr ⟨root', List.mem_reverse.mp (List.mem_of_find?_eq_some hlast), hid⟩
  -- the walk's answer names ids of `L`, and places only ids of children
  have hw : ∀ e ∈ walk L (L.length + 1) [root.id] [root.id] [],
      e.1 ∈ L.map (·.id) ∧ ∀ k ∈ e.2, ∃ c ∈ L, c.parentId.isSome ∧ c.id = k :=
    walk_mem (fun _ c hc => List.mem_map_of_mem (mem_of_mem_childrenOf hc).1)
      (fun x c hc => ⟨c, (mem_of_mem_childrenOf hc).1, by rw [(mem_of_mem_childrenOf hc).2]; rfl, rfl⟩)
      _ _ _ _ (fun x hx => List.mem_singleton.mp hx ▸ hrid) fun _ h => absurd h List.not_mem_nil
  have hwalk : walk L' (L.length + 1) [f root.id] [f root.id] [] =
      (walk L (L.length + 1) [root.id] [root.id] []).map (Prod.map f (List.map f)) :=
    walk_map h (L.length + 1) [root.id] [root.id] [] (fun x hx => List.mem_singleton.mp hx ▸ hrid)
      (fun x hx => List.mem_singleton.mp hx ▸ hrid)
  unfold build
  rw [if_pos hany, if_pos hany', Option.map_some, h.length]
  dsimp only
  rw [hwalk, assemble, assemble, hlast, placedUnder_map h.injective (fun e he => (hw e he).1) hrid]
  simp only [Option.getD_some, children, List.map_map]
  congr 2
  refine List.map_congr_left fun k hk => ?_
  obtain ⟨e, he, hke⟩ := mem_placedUnder hk
  obtain ⟨c, hc, hp, rfl⟩ := (hw e he).2 k hke
  exact assemble_map h hw _ c hc hp

end Relabel

end ItemNode

end Outliner
