import Outliner.Reconcile.Plan
import Mathlib.Data.List.Basic
import Mathlib.Data.List.Nodup

/-!
# Where a snapshot's nodes are placed

The reference for reconciling is a depth-first walk over the snapshot's children lists. It
starts at the root's children with the root already visited, takes the children of a node in
the order listed, and visits each client id once, at its first reference. A visited client id
is placed when the snapshot has a node for it and it is a uuid; only then are its children
walked, under it. `Explores` is that walk as a relation. It has at most one outcome
(`Explores.deterministic`), and along it no client id is visited or placed twice and every
placement hangs under the root or under an earlier placement (`Explores.wellFormed`).
-/

set_option autoImplicit false

namespace Outliner

/-- A client id placed by the walk, under the client id `parent` (none: the root), with its
node. -/
structure Placement where
  clientId : String
  parent : Option String
  node : SnapshotNode
  deriving Repr, BEq, Inhabited

/-- How far a walk has come: the client ids visited and the placements made, in order. -/
structure Visit where
  visited : List String
  placed : List Placement
  deriving Repr, BEq, Inhabited

namespace Visit

/-- Visits a client id and leaves it out. -/
def skip (v : Visit) (c : String) : Visit := ⟨v.visited ++ [c], v.placed⟩

/-- Visits a client id and places it. -/
def place (v : Visit) (p : Placement) : Visit := ⟨v.visited ++ [p.clientId], v.placed ++ [p]⟩

/-- The client ids placed, in order. -/
def ids (v : Visit) : List String := v.placed.map (·.clientId)

@[simp] theorem skip_visited (v : Visit) (c : String) : (v.skip c).visited = v.visited ++ [c] := rfl
@[simp] theorem skip_placed (v : Visit) (c : String) : (v.skip c).placed = v.placed := rfl
@[simp] theorem skip_ids (v : Visit) (c : String) : (v.skip c).ids = v.ids := rfl
@[simp] theorem place_visited (v : Visit) (p : Placement) :
    (v.place p).visited = v.visited ++ [p.clientId] := rfl
@[simp] theorem place_placed (v : Visit) (p : Placement) : (v.place p).placed = v.placed ++ [p] := rfl
@[simp] theorem place_ids (v : Visit) (p : Placement) : (v.place p).ids = v.ids ++ [p.clientId] := by
  simp [ids, place]

/-- `v'` continues `v`: what `v` visited and placed comes first in `v'`. -/
def Extends (v v' : Visit) : Prop := v.visited <+: v'.visited ∧ v.placed <+: v'.placed

theorem Extends.refl (v : Visit) : Extends v v := ⟨List.prefix_refl _, List.prefix_refl _⟩

theorem Extends.trans {v₁ v₂ v₃ : Visit} (h₁ : Extends v₁ v₂) (h₂ : Extends v₂ v₃) : Extends v₁ v₃ :=
  ⟨h₁.1.trans h₂.1, h₁.2.trans h₂.2⟩

theorem Extends.skip (v : Visit) (c : String) : Extends v (v.skip c) :=
  ⟨List.prefix_append _ _, List.prefix_refl _⟩

theorem Extends.place (v : Visit) (p : Placement) : Extends v (v.place p) :=
  ⟨List.prefix_append _ _, List.prefix_append _ _⟩

theorem Extends.ids {v v' : Visit} (h : Extends v v') : v.ids <+: v'.ids := by
  obtain ⟨t, ht⟩ := h.2
  exact ⟨t.map (·.clientId), by rw [Visit.ids, Visit.ids, ← ht, List.map_append]⟩

/-- What every walk keeps: no client id visited twice, only visited ones placed, none placed
twice, and each placement under the root or under a client id placed before it. -/
structure WellFormed (v : Visit) : Prop where
  visited_nodup : v.visited.Nodup
  ids_visited : ∀ x ∈ v.ids, x ∈ v.visited
  ids_nodup : v.ids.Nodup
  parent_before : ∀ (i : Nat) (h : i < v.placed.length), ∀ x ∈ v.placed[i].parent, x ∈ v.ids.take i

theorem WellFormed.skip {v : Visit} (hv : WellFormed v) {c : String} (hc : c ∉ v.visited) :
    WellFormed (v.skip c) where
  visited_nodup := List.nodup_append.mpr ⟨hv.visited_nodup, List.nodup_singleton c,
    fun x hx y hy => by rintro rfl; exact hc (List.mem_singleton.mp hy ▸ hx)⟩
  ids_visited x hx := List.mem_append_left _ (hv.ids_visited x hx)
  ids_nodup := hv.ids_nodup
  parent_before := hv.parent_before

theorem WellFormed.place {v : Visit} (hv : WellFormed v) {p : Placement} (hc : p.clientId ∉ v.visited)
    (hp : ∀ x ∈ p.parent, x ∈ v.ids) : WellFormed (v.place p) where
  visited_nodup := (hv.skip hc).visited_nodup
  ids_visited x hx := by
    rcases List.mem_append.mp (place_ids v p ▸ hx) with hx | hx
    · exact List.mem_append_left _ (hv.ids_visited x hx)
    · exact List.mem_append_right _ hx
  ids_nodup := by
    rw [place_ids]
    exact List.nodup_append.mpr ⟨hv.ids_nodup, List.nodup_singleton _,
      fun x hx y hy => by rintro rfl; exact hc (List.mem_singleton.mp hy ▸ hv.ids_visited x hx)⟩
  parent_before i hi x hx := by
    have hlen : i < v.placed.length + 1 := by simpa using hi
    rw [place_ids]
    rcases Nat.lt_succ_iff_lt_or_eq.mp hlen with hlt | rfl
    -- an earlier placement keeps its parent among the ids before it
    · have hget : (v.place p).placed[i] = v.placed[i] := List.getElem_append_left hlt
      rw [hget] at hx
      have hi' : i ≤ v.ids.length := by simp [ids]; omega
      rw [List.take_append_of_le_length hi']
      exact hv.parent_before i hlt x hx
    · have hget : (v.place p).placed[v.placed.length] = p := by simp
      rw [hget] at hx
      have hlen' : v.placed.length = v.ids.length := by simp [ids]
      rw [hlen', List.take_left' rfl]
      exact hp x hx

end Visit

/-- `Explores s parent cs v v'`: walking the client ids `cs`, listed under `parent`, takes the
walk from `v` to `v'`. -/
inductive Explores (s : Snapshot) : Option String → List String → Visit → Visit → Prop
  | nil {parent : Option String} {v : Visit} : Explores s parent [] v v
  /-- A client id visited before is passed over. -/
  | again {parent : Option String} {c : String} {cs : List String} {v v' : Visit}
      (hc : c ∈ v.visited) (rest : Explores s parent cs v v') : Explores s parent (c :: cs) v v'
  /-- A client id without a node, or one that is no uuid, is visited and left out. -/
  | leave {parent : Option String} {c : String} {cs : List String} {v v' : Visit}
      (hc : c ∉ v.visited) (hleft : s.node? c = none ∨ Uuid.isValid c = false)
      (rest : Explores s parent cs (v.skip c) v') : Explores s parent (c :: cs) v v'
  /-- A client id with a node that is a uuid is placed, and its children are walked under it
  before the client ids after it. -/
  | place {parent : Option String} {c : String} {cs : List String} {v v₁ v' : Visit}
      {n : SnapshotNode} (hc : c ∉ v.visited) (hn : s.node? c = some n) (hu : Uuid.isValid c = true)
      (sub : Explores s (some c) n.children (v.place ⟨c, parent, n⟩) v₁)
      (rest : Explores s parent cs v₁ v') : Explores s parent (c :: cs) v v'

namespace Snapshot

/-- The children of the snapshot's root node. -/
def rootChildren (s : Snapshot) : List String := ((s.node? s.rootItem).map (·.children)).getD []

/-- `v` is where the reference walk of the snapshot ends: from the root visited and nothing
placed, through the root's children. -/
def Walked (s : Snapshot) (v : Visit) : Prop :=
  Explores s none s.rootChildren ⟨[s.rootItem], []⟩ v

/-- Why a visited client id is left out, if it is: it has no node, or it is no uuid. -/
def reason? (s : Snapshot) (c : String) : Option Unresolved :=
  match s.node? c with
  | none => some .missing
  | some _ => if Uuid.isValid c then none else some .malformed

theorem reason?_eq_none {s : Snapshot} {c : String} :
    s.reason? c = none ↔ (s.node? c).isSome ∧ Uuid.isValid c = true := by
  unfold reason?
  cases s.node? c with
  | none => simp
  | some n => cases Uuid.isValid c <;> simp

theorem reason?_of_node_none {s : Snapshot} {c : String} (h : s.node? c = none) :
    s.reason? c = some .missing := by
  simp [reason?, h]

theorem reason?_of_invalid {s : Snapshot} {c : String} {n : SnapshotNode} (h : s.node? c = some n)
    (hu : Uuid.isValid c = false) : s.reason? c = some .malformed := by
  simp [reason?, h, hu]

end Snapshot

namespace Explores

variable {s : Snapshot}

theorem deterministic {parent : Option String} {cs : List String} {v v₁ v₂ : Visit}
    (h₁ : Explores s parent cs v v₁) (h₂ : Explores s parent cs v v₂) : v₁ = v₂ := by
  induction h₁ generalizing v₂ with
  | nil => cases h₂; rfl
  | again hc _ ih =>
    cases h₂ with
    | again _ rest => exact ih rest
    | leave hc' => exact absurd hc hc'
    | place hc' => exact absurd hc hc'
  | leave hc hleft _ ih =>
    cases h₂ with
    | again hc' => exact absurd hc' hc
    | leave _ _ rest => exact ih rest
    | place _ hn hu => rcases hleft with h | h <;> simp_all
  | place hc hn hu _ _ ihsub ihrest =>
    cases h₂ with
    | again hc' => exact absurd hc' hc
    | leave _ hleft => rcases hleft with h | h <;> simp_all
    | place _ hn' _ sub rest =>
      obtain rfl : _ = _ := Option.some.inj (hn.symm.trans hn')
      obtain rfl := ihsub sub
      exact ihrest rest

theorem wellFormed {parent : Option String} {cs : List String} {v v' : Visit}
    (h : Explores s parent cs v v') (hv : v.WellFormed) (hp : ∀ x ∈ parent, x ∈ v.ids) :
    v'.WellFormed ∧ v.Extends v' := by
  induction h with
  | nil => exact ⟨hv, .refl _⟩
  | again _ _ ih => exact ih hv hp
  | leave hc _ _ ih =>
    obtain ⟨hv', hext⟩ := ih (hv.skip hc) hp
    exact ⟨hv', (Visit.Extends.skip _ _).trans hext⟩
  | @place parent c cs v v₁ v' n hc _ _ _ _ ihsub ihrest =>
    have hplace := hv.place (p := ⟨c, parent, n⟩) hc hp
    obtain ⟨hv₁, hext₁⟩ := ihsub hplace (by simp)
    have hext : v.Extends v₁ := (Visit.Extends.place _ _).trans hext₁
    obtain ⟨hv', hext'⟩ := ihrest hv₁ fun x hx => hext.ids.subset (hp x hx)
    exact ⟨hv', hext.trans hext'⟩

end Explores

/-- The planned node of a placement: its parent is given by its index among the client ids
`ids` placed. -/
def Placement.planned (ids : List String) (p : Placement) : PlannedNode :=
  ⟨p.clientId, p.parent.map ids.idxOf, p.node.childOrder, p.node.itemText.getD "", p.node.styles⟩

theorem Placement.planned_append {ids more : List String} {p : Placement}
    (hp : ∀ x ∈ p.parent, x ∈ ids) : p.planned (ids ++ more) = p.planned ids := by
  cases hpar : p.parent with
  | none => simp [planned, hpar]
  | some x =>
    have hx : x ∈ ids := hp x hpar
    simp [planned, hpar, List.idxOf_append_of_mem hx]

theorem Visit.WellFormed.planned_parent_lt {v : Visit} (hv : v.WellFormed) :
    ∀ (i : Nat) (h : i < (v.placed.map (Placement.planned v.ids)).length) (k : Nat),
      (v.placed.map (Placement.planned v.ids))[i].parent = some k → k < i := by
  intro i h k hk
  have hi : i < v.placed.length := by simpa using h
  simp only [List.getElem_map, Placement.planned, Option.map_eq_some_iff] at hk
  obtain ⟨x, hx, rfl⟩ := hk
  have hbefore := hv.parent_before i hi x hx
  rw [← (List.take_prefix i v.ids).idxOf_eq_of_mem hbefore]
  exact Nat.lt_of_lt_of_le (List.idxOf_lt_length_of_mem hbefore) (List.length_take_le _ _)

end Outliner
