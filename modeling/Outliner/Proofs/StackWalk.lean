import Outliner.Proofs.Placement
import Outliner.Proofs.Planning

/-!
# The planner's walk is the reference walk

The planner walks a snapshot with an explicit stack of frames. It pops a frame, and when it
places a client id it pushes the frames of the node's children, first child on top, so all of
them are taken before the frames below. Taking the frames of one children list off the stack is
therefore the reference walk over that list (`walk_explores`), as long as the fuel lasts. It
lasts: each step takes a frame, and the frames still to come are at most those on the stack and
the children of the entries not seen yet, fewer than `walkFuel` from the start. So a plan holds
the nodes of the reference walk's placements, in its order, and leaves out exactly the client
ids the walk leaves out or never reaches (`make_placements`).
-/

set_option autoImplicit false

namespace Outliner.Plan

/-- The children listed by the entries whose client ids are not among `seen`. -/
def unseenChildren : List (String × SnapshotNode) → List String → Nat
  | [], _ => 0
  | e :: items, seen => (if seen.contains e.1 then 0 else e.2.children.length) + unseenChildren items seen

theorem unseenChildren_cons_le (c : String) (seen : List String) :
    ∀ items : List (String × SnapshotNode), unseenChildren items (c :: seen) ≤ unseenChildren items seen
  | [] => Nat.le_refl 0
  | e :: items => by
    have ih := unseenChildren_cons_le c seen items
    have he : (if (c :: seen).contains e.1 then 0 else e.2.children.length) ≤
        if seen.contains e.1 then 0 else e.2.children.length := by
      rw [List.contains_cons]
      cases e.1 == c <;> cases seen.contains e.1 <;> simp
    simp only [unseenChildren]
    omega

theorem unseenChildren_see {c : String} {seen : List String} {n : SnapshotNode} (hc : c ∉ seen) :
    ∀ items : List (String × SnapshotNode), (items.find? (·.1 == c)).map (·.2) = some n →
      unseenChildren items (c :: seen) + n.children.length ≤ unseenChildren items seen
  | [], h => by simp at h
  | e :: items, h => by
    simp only [unseenChildren]
    by_cases he : e.1 = c
    · -- the first entry of the client id is the node seen
      have hn : e.2 = n := by simpa [List.find?_cons, he] using h
      have h1 : (c :: seen).contains e.1 = true := by simp [he]
      have h2 : seen.contains e.1 = false := by simpa [he] using hc
      have hrest := unseenChildren_cons_le c seen items
      simp only [h1, h2, ↓reduceIte, Bool.false_eq_true, hn]
      omega
    · have h' : (items.find? (·.1 == c)).map (·.2) = some n := by
        simpa [List.find?_cons, he] using h
      have ih := unseenChildren_see hc items h'
      have h3 : (c :: seen).contains e.1 = seen.contains e.1 := by simp [he]
      rw [h3]
      omega

theorem foldl_children : ∀ (items : List (String × SnapshotNode)) (acc : Nat),
    items.foldl (fun n e => n + e.2.children.length) acc = acc + unseenChildren items []
  | [], _ => rfl
  | e :: items, acc => by
    rw [List.foldl_cons, foldl_children items, unseenChildren]
    simp only [List.contains_nil, Bool.false_eq_true, ↓reduceIte]
    omega

theorem walkFuel_eq (s : Snapshot) : walkFuel s = unseenChildren s.items [] + 1 := by
  simp [walkFuel, foldl_children]

theorem framesOf_cons (c : String) (cs : List String) (parent : Option Nat) (depth : Nat) :
    framesOf (c :: cs) parent depth = ⟨c, parent, depth⟩ :: framesOf cs parent depth := rfl

@[simp] theorem length_framesOf (cs : List String) (parent : Option Nat) (depth : Nat) :
    (framesOf cs parent depth).length = cs.length := List.length_map _

variable {catalog : Catalog} {limits : Limits} {s : Snapshot}

theorem walk_nil (fuel : Nat) (w : Walk) : walk catalog limits s fuel [] w = .ok w := by
  cases fuel <;> rfl

/-- The walk's state holds what the reference walk has done: the client ids it has visited
(latest first), the nodes planned for its placements, and the visited client ids it left out,
with why. -/
structure Walk.Tracks (s : Snapshot) (w : Walk) (v : Visit) : Prop where
  seen : w.seen = v.visited.reverse
  nodes : w.nodes = v.placed.map (Placement.planned v.ids)
  unresolved : w.unresolved = v.visited.filterMap fun c => (s.reason? c).map (c, ·)

theorem Walk.Tracks.mem_seen {w : Walk} {v : Visit} (h : w.Tracks s v) (c : String) :
    c ∈ w.seen ↔ c ∈ v.visited := by
  rw [h.seen, List.mem_reverse]

theorem Walk.Tracks.skip {w : Walk} {v : Visit} (h : w.Tracks s v) {c : String} {r : Unresolved}
    (hr : s.reason? c = some r) :
    (⟨w.nodes, c :: w.seen, w.unresolved ++ [(c, r)]⟩ : Walk).Tracks s (v.skip c) where
  seen := by simp [h.seen]
  nodes := h.nodes
  unresolved := by simp [h.unresolved, List.filterMap_append, hr]

theorem Walk.Tracks.place {w : Walk} {v : Visit} (h : w.Tracks s v) (hv : v.WellFormed)
    {c : String} {parent : Option String} {n : SnapshotNode} (hn : s.node? c = some n)
    (hu : Uuid.isValid c = true) (hp : ∀ x ∈ parent, x ∈ v.ids) :
    (⟨w.nodes ++ [⟨c, parent.map v.ids.idxOf, n.childOrder, n.itemText.getD "", n.styles⟩],
      c :: w.seen, w.unresolved⟩ : Walk).Tracks s (v.place ⟨c, parent, n⟩) where
  seen := by simp [h.seen]
  nodes := by
    have hold : v.placed.map (Placement.planned (v.ids ++ [c])) = v.placed.map (Placement.planned v.ids) :=
      List.map_congr_left fun p hp' => Placement.planned_append fun x hx => by
        obtain ⟨i, hi, rfl⟩ := List.getElem_of_mem hp'
        exact List.mem_of_mem_take (hv.parent_before i hi x hx)
    have hnew : Placement.planned (v.ids ++ [c]) ⟨c, parent, n⟩ =
        ⟨c, parent.map v.ids.idxOf, n.childOrder, n.itemText.getD "", n.styles⟩ := by
      rw [Placement.planned_append hp]
      rfl
    simp only [Visit.place_placed, Visit.place_ids, List.map_append, hold, List.map_singleton, hnew,
      h.nodes]
  unresolved := by
    have hr : s.reason? c = none := Snapshot.reason?_eq_none.mpr ⟨by simp [hn], hu⟩
    simp [h.unresolved, List.filterMap_append, hr]

theorem idxOf_placed {v : Visit} (hv : v.WellFormed) {c : String} (hc : c ∉ v.visited) :
    (v.ids ++ [c]).idxOf c = v.placed.length := by
  have hc' : c ∉ v.ids := fun h => hc (hv.ids_visited c h)
  rw [List.idxOf_append_of_notMem hc', List.idxOf_cons_self]
  simp [Visit.ids]

theorem walk_explores : ∀ (fuel : Nat) (parent : Option String) (cs : List String) (depth : Nat)
    (rest : List Frame) (w w' : Walk) (v : Visit),
    walk catalog limits s fuel (framesOf cs (parent.map v.ids.idxOf) depth ++ rest) w = .ok w' →
    w.Tracks s v → v.WellFormed → (∀ x ∈ parent, x ∈ v.ids) →
    cs.length + rest.length + unseenChildren s.items w.seen < fuel →
    ∃ fuel₁ w₁ v₁, Explores s parent cs v v₁ ∧ w₁.Tracks s v₁ ∧ fuel₁ ≤ fuel ∧
      rest.length + unseenChildren s.items w₁.seen < fuel₁ ∧
      walk catalog limits s fuel₁ rest w₁ = .ok w' := by
  intro fuel
  induction fuel using Nat.strongRecOn with
  | _ fuel ih =>
  intro parent cs depth rest w w' v h htr hv hp hfuel
  cases cs with
  | nil => exact ⟨fuel, w, v, .nil, htr, Nat.le_refl _, by simpa using hfuel, h⟩
  | cons c cs =>
    obtain ⟨fuel, rfl⟩ : ∃ f, fuel = f + 1 := ⟨fuel - 1, by simp at hfuel; omega⟩
    have hlen : cs.length + rest.length + unseenChildren s.items w.seen < fuel := by
      simp at hfuel
      omega
    rw [framesOf_cons, List.cons_append] at h
    unfold walk at h
    dsimp only at h
    split at h
    · -- visited before: passed over
      rename_i hseen
      have hc : c ∈ v.visited := (htr.mem_seen c).mp (by simpa using hseen)
      obtain ⟨f₁, w₁, v₁, hex, htr₁, hle, hb, hw⟩ :=
        ih fuel (Nat.lt_succ_self _) parent cs depth rest w w' v h htr hv hp hlen
      exact ⟨f₁, w₁, v₁, .again hc hex, htr₁, by omega, hb, hw⟩
    rename_i hnew
    have hc : c ∉ v.visited := fun hc => hnew (by simpa using (htr.mem_seen c).mpr hc)
    have hc' : c ∉ w.seen := fun h => hc ((htr.mem_seen c).mp h)
    have hskip := unseenChildren_cons_le c w.seen s.items
    split at h
    · -- no node: left out as missing
      rename_i hnode
      obtain ⟨f₁, w₁, v₁, hex, htr₁, hle, hb, hw⟩ :=
        ih fuel (Nat.lt_succ_self _) parent cs depth rest _ w' (v.skip c) h
          (htr.skip (Snapshot.reason?_of_node_none hnode)) (hv.skip hc) hp (by simp; omega)
      exact ⟨f₁, w₁, v₁, .leave hc (.inl hnode) hex, htr₁, by omega, hb, hw⟩
    rename_i n hnode
    split at h
    · -- no uuid: left out as malformed
      rename_i hinvalid
      have hu : Uuid.isValid c = false := by simpa using hinvalid
      obtain ⟨f₁, w₁, v₁, hex, htr₁, hle, hb, hw⟩ :=
        ih fuel (Nat.lt_succ_self _) parent cs depth rest _ w' (v.skip c) h
          (htr.skip (Snapshot.reason?_of_invalid hnode hu)) (hv.skip hc) hp (by simp; omega)
      exact ⟨f₁, w₁, v₁, .leave hc (.inr hu) hex, htr₁, by omega, hb, hw⟩
    rename_i hvalid
    have hu : Uuid.isValid c = true := by simpa using hvalid
    split at h
    · cases h
    split at h
    · cases h
    split at h
    · cases h
    -- placed: the children's frames are taken first, then the frames after it
    have hsee := unseenChildren_see hc' s.items hnode
    let v' := v.place ⟨c, parent, n⟩
    have hv' : v'.WellFormed := hv.place hc hp
    have hidx : some w.nodes.length = (some c).map v'.ids.idxOf := by
      simp only [Option.map_some, v', Visit.place_ids, idxOf_placed hv hc, htr.nodes, List.length_map]
    rw [hidx] at h
    obtain ⟨f₁, w₁, v₁, hsub, htr₁, hle₁, hb₁, hw₁⟩ :=
      ih fuel (Nat.lt_succ_self _) (some c) n.children (depth + 1) _ _ w' v' h
        (htr.place hv hnode hu hp) hv' (by simp [v']) (by simp; omega)
    obtain ⟨hv₁, hext⟩ := hsub.wellFormed hv' (by simp [v'])
    have hids : v.ids <+: v₁.ids := ((Visit.Extends.place _ _).trans hext).ids
    have hpar : parent.map v₁.ids.idxOf = parent.map v.ids.idxOf := by
      cases hq : parent with
      | none => rfl
      | some x =>
        have hx : x ∈ v.ids := hp x hq
        simp [(hids.idxOf_eq_of_mem hx).symm]
    rw [← hpar] at hw₁
    obtain ⟨f₂, w₂, v₂, hrest, htr₂, hle₂, hb₂, hw₂⟩ :=
      ih f₁ (by omega) parent cs depth rest w₁ w' v₁ hw₁ htr₁ hv₁
        (fun x hx => hids.subset (hp x hx)) (by simp at hb₁; omega)
    exact ⟨f₂, w₂, v₂, .place hc hnode hu hsub hrest, htr₂, by omega, hb₂, hw₂⟩

theorem resolveRoot_ok {d : Document} {root : SnapshotNode} (h : resolveRoot d s = .ok root) :
    s.node? s.rootItem = some root ∧ Uuid.isValid s.rootItem = true := by
  unfold resolveRoot at h
  dsimp only at h
  split at h
  · cases h
  rename_i n hn
  split at h
  · cases h
  rename_i declared hdeclared
  split at h
  · cases h
  split at h
  · cases h
  injection h with h
  subst h
  exact ⟨hn, by simp [Uuid.isValid, hdeclared]⟩

theorem Walk.Tracks.start (hreason : s.reason? s.rootItem = none) :
    (⟨[], [s.rootItem], []⟩ : Walk).Tracks s ⟨[s.rootItem], []⟩ :=
  ⟨rfl, rfl, by simp [hreason]⟩

theorem wellFormed_start (c : String) : (⟨[c], []⟩ : Visit).WellFormed :=
  ⟨List.nodup_singleton _, by simp [Visit.ids], List.nodup_nil, fun i h => absurd h (Nat.not_lt_zero i)⟩

theorem walkFuel_start {root : SnapshotNode} (hnode : s.node? s.rootItem = some root) :
    root.children.length + unseenChildren s.items [s.rootItem] < walkFuel s := by
  have := unseenChildren_see (List.not_mem_nil (a := s.rootItem)) s.items hnode
  rw [walkFuel_eq]
  omega

theorem make_placements {d : Document} {p : Plan} (h : Plan.make catalog limits d s = .ok p) :
    ∃ v, s.Walked v ∧ v.WellFormed ∧ s.reason? s.rootItem = none ∧
      p.rootClientId = s.rootItem ∧ p.rootItemId = d.rootId ∧
      p.nodes = v.placed.map (Placement.planned v.ids) ∧
      p.unresolved = v.visited.filterMap (fun c => (s.reason? c).map (c, ·)) ++
        (s.items.filter fun e => !v.visited.contains e.1).map fun e => (e.1, Unresolved.unreachable) := by
  simp only [Plan.make] at h
  obtain ⟨_, -, h⟩ := except_bind_eq_ok.mp h
  obtain ⟨root, hroot, h⟩ := except_bind_eq_ok.mp h
  obtain ⟨_, -, h⟩ := except_bind_eq_ok.mp h
  obtain ⟨w, hw, h⟩ := except_bind_eq_ok.mp h
  cases h
  obtain ⟨hnode, hvalid⟩ := resolveRoot_ok hroot
  have hreason : s.reason? s.rootItem = none := Snapshot.reason?_eq_none.mpr ⟨by simp [hnode], hvalid⟩
  have hfuel : root.children.length + ([] : List Frame).length +
      unseenChildren s.items [s.rootItem] < walkFuel s := by
    simpa using walkFuel_start hnode
  have hw' : walk catalog limits s (walkFuel s) (framesOf root.children none 1 ++ [])
      ⟨[], [s.rootItem], []⟩ = .ok w := by
    rw [List.append_nil]
    exact hw
  obtain ⟨f₁, w₁, v, hex, htr, -, -, hend⟩ :=
    walk_explores _ none root.children 1 [] _ w _ hw' (Walk.Tracks.start hreason)
      (wellFormed_start s.rootItem) (by simp) hfuel
  rw [walk_nil] at hend
  have hw₁ : w₁ = w := by injection hend
  rw [hw₁] at htr
  have hwalked : s.Walked v := by
    unfold Snapshot.Walked Snapshot.rootChildren
    rw [hnode]
    exact hex
  refine ⟨v, hwalked, (hex.wellFormed (wellFormed_start s.rootItem) (by simp)).1, hreason, rfl, rfl,
    htr.nodes, ?_⟩
  -- the entries never seen are those never visited
  have hunseen : (s.items.filter fun e => !w.seen.contains e.1) =
      s.items.filter fun e => !v.visited.contains e.1 := by
    refine List.filter_congr fun e _ => ?_
    simp [htr.seen]
  simp only [htr.unresolved, hunseen]

end Outliner.Plan
