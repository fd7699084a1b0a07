import Outliner.Store.Memory

/-!
# The cascade of a delete

Deleting an item deletes what hangs under it. `Memory.subtreeIds` grows a frontier of ids by
the items whose parent is in it, round after round, until a round adds nothing; its fuel, one
more than the number of items, is enough, since every round that adds something adds an item
whose id was not in the frontier. So the result is the least set of ids that holds the frontier
and is closed under taking children (`subtreeIds_least`, `subtreeIds_closed`): the frontier
and the items whose chain of parents reaches it (`mem_subtreeIds_iff`).
-/

set_option autoImplicit false

namespace Outliner

/-- `Descends items x r`: following parents from the item `x` reaches `r` (in no steps when
`x = r`). -/
inductive Descends (items : List Item) : String → String → Prop
  | refl (x : String) : Descends items x x
  | parent {i : Item} {p r : String} (hi : i ∈ items) (hp : i.parentId = some p)
      (h : Descends items p r) : Descends items i.id r

/-- The items of the tables, without their sequence numbers. -/
def Tables.rows (t : Tables) : List Item := t.items.map (·.1)

namespace Descends

variable {items : List Item}

theorem trans {x y z : String} (h₁ : Descends items x y) (h₂ : Descends items y z) :
    Descends items x z := by
  induction h₁ with
  | refl => exact h₂
  | parent hi hp _ ih => exact .parent hi hp (ih h₂)

theorem eq_or_child {x r : String} (h : Descends items x r) :
    x = r ∨ ∃ c ∈ items, c.parentId = some r ∧ Descends items x c.id := by
  induction h with
  | refl => exact .inl rfl
  | @parent i p r hi hp _ ih =>
    rcases ih with rfl | ⟨c, hc, hcp, hd⟩
    · exact .inr ⟨i, hi, hp, .refl _⟩
    · exact .inr ⟨c, hc, hcp, .parent hi hp hd⟩

theorem mono {items' : List Item} (hsub : ∀ i ∈ items, i ∈ items') {x r : String}
    (h : Descends items x r) : Descends items' x r := by
  induction h with
  | refl => exact .refl _
  | parent hi hp _ ih => exact .parent (hsub _ hi) hp ih

end Descends

namespace Memory

/-- The ids of the items under any of `frontier`, and under those, and so on: `frontier`
itself included. -/
def subtreeIds (items : List Item) : Nat → List String → List String
  | 0, frontier => frontier
  | fuel + 1, frontier =>
    let below := (items.filter fun i => match i.parentId with
      | some p => frontier.contains p && !frontier.contains i.id
      | none => false).map (·.id)
    if below.isEmpty then frontier else subtreeIds items fuel (frontier ++ below)

/-- The tables less the subtrees at `roots`, with their styles and the table-of-contents
pointers to them: the closed form of `cascadeEach`. -/
def deleteSubtrees (roots : List String) (t : Tables) : Tables :=
  let gone := subtreeIds t.rows (t.items.length + 1) roots
  { t with
    items := t.items.filter (fun e => !gone.contains e.1.id)
    styles := t.styles.filter (fun s => !gone.contains s.itemId)
    documents := t.documents.map fun d =>
      match d.tocItemId with
      | some i => if gone.contains i then { d with tocItemId := none } else d
      | none => d }

/-- The number of items whose id is not in the frontier. -/
def outsideOf (items : List Item) (frontier : List String) : Nat :=
  items.countP fun i => !frontier.contains i.id

theorem outsideOf_le (items : List Item) (frontier : List String) :
    outsideOf items frontier ≤ items.length :=
  List.countP_le_length

section Frontier

variable {F F' : List String} (hsub : ∀ x ∈ F, x ∈ F')
include hsub

theorem outside_count_le (x : String) :
    (if (!F'.contains x) = true then 1 else 0) ≤ if (!F.contains x) = true then 1 else 0 := by
  by_cases hF' : x ∈ F'
  · have h' : (!F'.contains x) = false := by simpa using hF'
    simp only [h', Bool.false_eq_true, ↓reduceIte]
    exact Nat.zero_le _
  · have h' : (!F'.contains x) = true := by simpa using hF'
    have h : (!F.contains x) = true := by simpa using fun h => hF' (hsub _ h)
    simp only [h, h', ↓reduceIte, Nat.le_refl]

theorem outsideOf_mono : ∀ items : List Item, outsideOf items F' ≤ outsideOf items F
  | [] => Nat.le_refl 0
  | i :: items => by
    have ih := outsideOf_mono items
    have hi := outside_count_le hsub i.id
    unfold outsideOf at ih ⊢
    rw [List.countP_cons, List.countP_cons]
    omega

theorem outsideOf_lt {j : Item} (hout : j.id ∉ F) (hin : j.id ∈ F') :
    ∀ {items : List Item}, j ∈ items → outsideOf items F' < outsideOf items F
  | i :: items, hj => by
    have hi := outside_count_le hsub i.id
    unfold outsideOf at hi ⊢
    rw [List.countP_cons, List.countP_cons]
    rcases List.mem_cons.mp hj with rfl | hj
    · -- the new item itself counts on the left and not on the right
      have h1 : (!F'.contains j.id) = false := by simpa using hin
      have h2 : (!F.contains j.id) = true := by simpa using hout
      have hmono := outsideOf_mono hsub items
      unfold outsideOf at hmono
      simp only [h1, h2, Bool.false_eq_true, ↓reduceIte]
      omega
    · have := outsideOf_lt hout hin hj
      unfold outsideOf at this
      omega

end Frontier

variable (items : List Item)

theorem subset_subtreeIds : ∀ (fuel : Nat) (frontier : List String),
    ∀ x ∈ frontier, x ∈ subtreeIds items fuel frontier
  | 0, _, _, hx => hx
  | fuel + 1, frontier, x, hx => by
    unfold subtreeIds
    dsimp only
    split
    · exact hx
    · exact subset_subtreeIds fuel _ x (List.mem_append_left _ hx)

theorem subtreeIds_least (S : String → Prop)
    (hchild : ∀ i ∈ items, ∀ p, i.parentId = some p → S p → S i.id) :
    ∀ (fuel : Nat) (frontier : List String), (∀ x ∈ frontier, S x) →
      ∀ x ∈ subtreeIds items fuel frontier, S x
  | 0, _, hfront, x, hx => hfront x hx
  | fuel + 1, frontier, hfront, x, hx => by
    unfold subtreeIds at hx
    dsimp only at hx
    split at hx
    · exact hfront x hx
    · refine subtreeIds_least S hchild fuel _ ?_ x hx
      intro y hy
      rcases List.mem_append.mp hy with hy | hy
      · exact hfront y hy
      · obtain ⟨i, hi, rfl⟩ := List.mem_map.mp hy
        obtain ⟨hi, hp⟩ := List.mem_filter.mp hi
        cases hpi : i.parentId with
        | none => simp [hpi] at hp
        | some p =>
          simp only [hpi, Bool.and_eq_true, List.contains_eq_mem, decide_eq_true_eq] at hp
          exact hchild i hi p hpi (hfront p hp.1)

theorem subtreeIds_closed : ∀ (fuel : Nat) (frontier : List String),
    outsideOf items frontier < fuel →
      ∀ i ∈ items, ∀ p, i.parentId = some p → p ∈ subtreeIds items fuel frontier →
        i.id ∈ subtreeIds items fuel frontier
  | 0, _, hfuel, _, _, _, _, _ => absurd hfuel (Nat.not_lt_zero _)
  | fuel + 1, frontier, hfuel, i, hi, p, hp, hmem => by
    unfold subtreeIds at hmem ⊢
    dsimp only at hmem ⊢
    split
    · rename_i hempty
      simp only [hempty, ↓reduceIte] at hmem
      -- a round that adds nothing: a child outside the frontier would have been added
      refine Classical.byContradiction fun hout => ?_
      have : i.id ∈ ([] : List String) := by
        rw [← List.isEmpty_iff.mp hempty]
        exact List.mem_map_of_mem (List.mem_filter.mpr ⟨hi, by simp [hp, hmem, hout]⟩)
      exact List.not_mem_nil this
    · rename_i hnonempty
      simp only [hnonempty, Bool.false_eq_true, ↓reduceIte] at hmem
      obtain ⟨y, hy⟩ := List.exists_mem_of_ne_nil _ (fun h => hnonempty (List.isEmpty_iff.mpr h))
      obtain ⟨j, hj, rfl⟩ := List.mem_map.mp hy
      obtain ⟨hj, hjp⟩ := List.mem_filter.mp hj
      have hjout : j.id ∉ frontier := by
        cases hpj : j.parentId with
        | none => simp [hpj] at hjp
        | some q => simp_all
      have hlt := outsideOf_lt (fun x hx => List.mem_append_left _ hx) hjout
        (List.mem_append_right _ hy) hj
      exact subtreeIds_closed fuel _ (by omega) i hi p hp hmem

theorem mem_subtreeIds_iff (fuel : Nat) (frontier : List String)
    (hfuel : outsideOf items frontier < fuel) (x : String) :
    x ∈ subtreeIds items fuel frontier ↔ ∃ r ∈ frontier, Descends items x r := by
  constructor
  · intro hx
    exact subtreeIds_least items (fun x => ∃ r ∈ frontier, Descends items x r)
      (fun i hi p hp ⟨r, hr, hd⟩ => ⟨r, hr, .parent hi hp hd⟩) fuel frontier
      (fun x hx => ⟨x, hx, .refl x⟩) x hx
  · rintro ⟨r, hr, hd⟩
    induction hd with
    | refl => exact subset_subtreeIds items fuel frontier _ hr
    | parent hi hp _ ih => exact subtreeIds_closed items fuel frontier hfuel _ hi _ hp (ih hr)

theorem mem_deleted_iff (t : Tables) (roots : List String) (x : String) :
    x ∈ subtreeIds t.rows (t.items.length + 1) roots ↔ ∃ r ∈ roots, Descends t.rows x r := by
  refine mem_subtreeIds_iff _ _ _ ?_ x
  have hle := outsideOf_le t.rows roots
  have hlen : t.rows.length = t.items.length := List.length_map _
  omega

end Memory

end Outliner
