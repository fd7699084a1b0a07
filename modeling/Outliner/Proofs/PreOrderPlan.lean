import Outliner.Proofs.Answer
import Outliner.Proofs.Caps

/-!
# The planner's loop stops, and plans in pre-order

The planner's stack loop runs on fuel, and what it computes must not depend on it: every step
takes a frame off the stack, and a frame is pushed only for a child of a client id seen for the
first time, so the frames on the stack plus the children of the entries not seen yet bound the
steps left. Any two fuels above that bound give the same walk (`walk_fuel_congr`), so the fuel a
plan is made with, and any more, lead to one outcome: the loop has stopped, whatever cycles,
self-references, repeats or mentions of the root its children lists hold.

When a plan comes out, its nodes are the placements of the reference walk in its order, each
pointing at the index of the client id it hangs under, which comes before it; the client ids
planned are distinct and never the root, and neither they nor the root are left out
(`plan_walk_halts_in_preorder`).
-/

set_option autoImplicit false

namespace Outliner

/-- The client id a placed client id hangs under in a walk: none for one under the root, or for
one not placed. -/
def Visit.parentOf (v : Visit) (c : String) : Option String :=
  (v.placed.find? (·.clientId == c)).bind (·.parent)

theorem Visit.WellFormed.parentOf_getElem {v : Visit} (hv : v.WellFormed) (i : Nat)
    (h : i < v.placed.length) : v.parentOf v.placed[i].clientId = v.placed[i].parent := by
  have hfind : v.placed.find? (·.clientId == v.placed[i].clientId) = some v.placed[i] := by
    rw [List.find?_eq_some_iff_getElem]
    refine ⟨by simp, i, h, rfl, fun j hj => ?_⟩
    have hne : v.placed[j].clientId ≠ v.placed[i].clientId := by
      intro heq
      have hnodup : (v.placed.map (·.clientId)).Nodup := hv.ids_nodup
      have hj' : j < (v.placed.map (·.clientId)).length := by simp; omega
      have hi' : i < (v.placed.map (·.clientId)).length := by simpa using h
      have heq' : (v.placed.map (·.clientId))[j] = (v.placed.map (·.clientId))[i] := by
        simpa using heq
      exact absurd (hnodup.getElem_inj_iff.mp heq') (by omega)
    simpa using hne
  simp [Visit.parentOf, hfind]

namespace Plan

variable {catalog : Catalog} {limits : Limits} {s : Snapshot}

theorem walk_fuel_congr : ∀ (fuel₁ fuel₂ : Nat) (stack : List Frame) (w : Walk),
    stack.length + unseenChildren s.items w.seen < fuel₁ →
    stack.length + unseenChildren s.items w.seen < fuel₂ →
    walk catalog limits s fuel₁ stack w = walk catalog limits s fuel₂ stack w
  | 0, _, _, _, h, _ => absurd h (Nat.not_lt_zero _)
  | _, 0, _, _, _, h => absurd h (Nat.not_lt_zero _)
  | _ + 1, _ + 1, [], w, _, _ => by rw [walk_nil, walk_nil]
  | fuel₁ + 1, fuel₂ + 1, f :: stack, w, h₁, h₂ => by
    by_cases hseen : f.clientId ∈ w.seen
    · -- a client id seen before: its frame is dropped
      rw [walk_seen hseen, walk_seen hseen]
      exact walk_fuel_congr fuel₁ fuel₂ stack w (by simp at h₁; omega) (by simp at h₂; omega)
    have hskip := unseenChildren_cons_le f.clientId w.seen s.items
    cases hr : s.reason? f.clientId with
    | some r =>
      -- a client id left out: seen now, nothing pushed
      rw [walk_leave hseen hr, walk_leave hseen hr]
      exact walk_fuel_congr fuel₁ fuel₂ stack _ (by simp at h₁ ⊢; omega) (by simp at h₂ ⊢; omega)
    | none =>
      obtain ⟨hsome, hu⟩ := Snapshot.reason?_eq_none.mp hr
      obtain ⟨n, hn⟩ := Option.isSome_iff_exists.mp hsome
      have hsee := unseenChildren_see hseen s.items hn
      have hseen' : ¬ (w.seen.contains f.clientId = true) := by simpa using hseen
      have hu' : ¬ ((!Uuid.isValid f.clientId) = true) := by simpa using hu
      rw [walk, walk, if_neg hseen']
      dsimp only
      rw [hn]
      dsimp only
      rw [if_neg hu']
      split_ifs
      · rfl
      · rfl
      cases checkNode catalog f.clientId n with
      | error e => rfl
      | ok u =>
        exact walk_fuel_congr fuel₁ fuel₂ _ _ (by simp at h₁ ⊢; omega) (by simp at h₂ ⊢; omega)

theorem walk_halts {root : SnapshotNode} (hroot : s.node? s.rootItem = some root) (extra : Nat) :
    walk catalog limits s (walkFuel s + extra) (framesOf root.children none 1) ⟨[], [s.rootItem], []⟩ =
      walk catalog limits s (walkFuel s) (framesOf root.children none 1) ⟨[], [s.rootItem], []⟩ := by
  have hfuel := walkFuel_start hroot
  exact walk_fuel_congr _ _ _ _ (by simp; omega) (by simpa using hfuel)

end Plan

/-- The planner's loop stops and plans in pre-order. For every catalog, limits, document and
snapshot, the loop run from the root's children comes out the same with the fuel planning gives
it and with any more. When planning returns a plan, there is a reference walk whose placements,
in its order, are the plan's nodes; each node's parent is the index among the nodes of the client
id the walk placed it under (none for the root), and that index comes before the node's; the
client ids planned are distinct and none is the root; and no client id left out is the root or
planned. -/
theorem plan_walk_halts_in_preorder (catalog : Catalog) (limits : Limits) (d : Document)
    (s : Snapshot) :
    (∀ root, s.node? s.rootItem = some root → ∀ extra,
      Plan.walk catalog limits s (Plan.walkFuel s + extra) (Plan.framesOf root.children none 1)
          ⟨[], [s.rootItem], []⟩ =
        Plan.walk catalog limits s (Plan.walkFuel s) (Plan.framesOf root.children none 1)
          ⟨[], [s.rootItem], []⟩) ∧
    ∀ p, Plan.make catalog limits d s = .ok p → ∃ v, s.Walked v ∧
      p.nodes = v.placed.map (Placement.planned v.ids) ∧
      (∀ i (h : i < p.nodes.length),
        p.nodes[i].parent = (v.parentOf p.nodes[i].clientId).map (p.nodes.map (·.clientId)).idxOf ∧
          ∀ k, p.nodes[i].parent = some k → k < i) ∧
      (p.nodes.map (·.clientId)).Nodup ∧ s.rootItem ∉ p.nodes.map (·.clientId) ∧
      ∀ c ∈ p.unresolved.map (·.1), c ≠ s.rootItem ∧ c ∉ p.nodes.map (·.clientId) := by
  refine ⟨fun root hroot extra => Plan.walk_halts hroot extra, fun p hp => ?_⟩
  obtain ⟨v, hwalk, hwf, hroot, -, -, hnodes, hunres⟩ := Plan.make_placements hp
  have hids : p.nodes.map (·.clientId) = v.ids := by
    rw [hnodes, List.map_map]
    rfl
  refine ⟨v, hwalk, hnodes, fun i h => ⟨?_, ?_⟩, hids ▸ hwf.ids_nodup, ?_, fun c hc => ?_⟩
  · -- the parent of the `i`-th node is that of the `i`-th placement
    have hi : i < v.placed.length := by simpa [hnodes] using h
    have hget : p.nodes[i] = Placement.planned v.ids v.placed[i] := by simp [hnodes]
    rw [hget, hids]
    show v.placed[i].parent.map v.ids.idxOf = (v.parentOf v.placed[i].clientId).map v.ids.idxOf
    rw [hwf.parentOf_getElem i hi]
  · intro k hk
    exact hwf.planned_parent_lt i (by simpa [hnodes] using h) k (by simpa [hnodes] using hk)
  · -- the root is visited at the start and never placed
    rw [hids]
    exact (hwalk.classified.base _ (List.mem_singleton_self _)).2
  · -- a client id left out has a reason, which neither the root nor a placement has
    rw [hunres, mem_keys_iff_lookup_isSome, Snapshot.lookup_unresolved,
      Snapshot.Walked.left_out_iff hwalk hwf hroot] at hc
    exact ⟨hc.1, hids ▸ hc.2.1⟩

/-- A snapshot whose children lists loop: the first child lists the second, the root and
itself, and the second lists the first. -/
def loopingSnapshot : Snapshot :=
  ⟨Uuid.minted 2, none,
    [(Uuid.minted 2, ⟨"", none, 0, ["00000000-0000-4000-8000-0000000000aa"], none, []⟩),
     ("00000000-0000-4000-8000-0000000000aa", ⟨"", none, 0,
        ["00000000-0000-4000-8000-0000000000bb", Uuid.minted 2, "00000000-0000-4000-8000-0000000000aa"],
        some "x", []⟩),
     ("00000000-0000-4000-8000-0000000000bb", ⟨"", none, 1, ["00000000-0000-4000-8000-0000000000aa"],
        some "y", []⟩)]⟩

/-- Planning the looping snapshot stops and places each child once, the second under the first,
in the order of a walk of the snapshot. -/
theorem looping_snapshot_plans_once :
    ∃ p, Plan.make Catalog.standard Limits.standard
        ⟨Uuid.minted 1, "alice", some (Uuid.minted 2), none, false, default, none⟩ loopingSnapshot = .ok p ∧
      p.nodes.map (fun n => (n.clientId, n.parent)) =
        [("00000000-0000-4000-8000-0000000000aa", none), ("00000000-0000-4000-8000-0000000000bb", some 0)] ∧
      ∃ v, loopingSnapshot.Walked v ∧ p.nodes = v.placed.map (Placement.planned v.ids) ∧
        (p.nodes.map (·.clientId)).Nodup ∧ loopingSnapshot.rootItem ∉ p.nodes.map (·.clientId) := by
  have hplan : (Plan.make Catalog.standard Limits.standard
      ⟨Uuid.minted 1, "alice", some (Uuid.minted 2), none, false, default, none⟩ loopingSnapshot).toOption.map
        (fun p => p.nodes.map fun n => (n.clientId, n.parent)) =
      some [("00000000-0000-4000-8000-0000000000aa", none), ("00000000-0000-4000-8000-0000000000bb", some 0)] := by
    decide +kernel
  cases hp : Plan.make Catalog.standard Limits.standard
      ⟨Uuid.minted 1, "alice", some (Uuid.minted 2), none, false, default, none⟩ loopingSnapshot with
  | error e =>
    rw [hp] at hplan
    cases hplan
  | ok p =>
    rw [hp] at hplan
    obtain ⟨v, hv, hnodes, -, hnodup, hroot, -⟩ := (plan_walk_halts_in_preorder _ _ _ _).2 p hp
    exact ⟨p, rfl, Option.some.inj hplan, v, hv, hnodes, hnodup, hroot⟩

end Outliner
