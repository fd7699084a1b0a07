import Mathlib
import Outliner.Proofs.Subtree
/-!
# The item cascade as a worklist

`Memory.cascade` pops an id, pushes the ids of the items directly under it and removes it. On every
table it removes exactly the ids that descend from the stack (`cascade_spec`), so it is the closed
form `deleteSubtrees` (`cascade_eq_deleteSubtrees`), and so is one cascade per id
(`cascadeEach_eq_deleteSubtrees`).
-/

set_option autoImplicit false

namespace Outliner

open Classical in
/-- `t.Cascade gone t'`: `t'` is `t` less the items whose ids are `gone`, with their creation
numbers and styles, and with every table-of-contents pointer to a gone id cleared; the rest
stays as it was, in its order. -/
structure Tables.Cascade (gone : String → Prop) (t t' : Tables) : Prop where
  items : t'.items = t.items.filter fun e => ¬ gone e.1.id
  styles : t'.styles = t.styles.filter fun s => ¬ gone s.itemId
  documents : t'.documents = t.documents.map fun d =>
    if ∃ i, d.tocItemId = some i ∧ gone i then { d with tocItemId := none } else d
  categories : t'.categories = t.categories

namespace Tables.Cascade

variable {gone gone' : String → Prop} {t t' t'' : Tables}

theorem congr (h : t.Cascade gone t') (hiff : ∀ x, gone x ↔ gone' x) : t.Cascade gone' t' := by
  obtain rfl : gone = gone' := funext fun x => propext (hiff x)
  exact h

theorem unique (h : t.Cascade gone t') (h' : t.Cascade gone t'') : t' = t'' := by
  cases t' with
  | mk d i s c =>
    cases t'' with
    | mk d' i' s' c' =>
      simp only [Tables.mk.injEq]
      exact ⟨h.documents.trans h'.documents.symm, h.items.trans h'.items.symm,
        h.styles.trans h'.styles.symm, h.categories.trans h'.categories.symm⟩

theorem refl (t : Tables) : t.Cascade (fun _ => False) t :=
  ⟨by simp, by simp, by simp, rfl⟩

theorem mem_rows (h : t.Cascade gone t') {i : Item} : i ∈ t'.rows ↔ i ∈ t.rows ∧ ¬ gone i.id := by
  simp only [Tables.rows, h.items, List.mem_map, List.mem_filter, decide_eq_true_eq]
  constructor
  · rintro ⟨e, ⟨he, hg⟩, rfl⟩
    exact ⟨⟨e, he, rfl⟩, hg⟩
  · rintro ⟨⟨e, he, rfl⟩, hg⟩
    exact ⟨e, ⟨he, hg⟩, rfl⟩

theorem trans (h₁ : t.Cascade gone t') (h₂ : t'.Cascade gone' t'') :
    t.Cascade (fun y => gone y ∨ gone' y) t'' := by
  refine ⟨?_, ?_, ?_, h₂.categories.trans h₁.categories⟩
  · rw [h₂.items, h₁.items, List.filter_filter]
    exact List.filter_congr fun e _ => by rw [Bool.eq_iff_iff]; simp [and_comm]
  · rw [h₂.styles, h₁.styles, List.filter_filter]
    exact List.filter_congr fun s _ => by rw [Bool.eq_iff_iff]; simp [and_comm]
  · rw [h₂.documents, h₁.documents, List.map_map]
    refine List.map_congr_left fun d _ => ?_
    cases htoc : d.tocItemId with
    | none => simp [htoc]
    | some i =>
      by_cases h₁i : gone i
      · simp [htoc, h₁i]
      · by_cases h₂i : gone' i <;> simp [htoc, h₁i, h₂i]

end Tables.Cascade

namespace Descends

variable {items items' : List Item}

theorem avoid {x s z : String} (h : Descends items x s) (hx : x ≠ z)
    (hkeep : ∀ i ∈ items, i.id ≠ z → i ∈ items') :
    (s ≠ z ∧ Descends items' x s) ∨ ∃ c ∈ items, c.parentId = some z ∧ Descends items' x c.id := by
  induction h with
  | refl => exact .inl ⟨hx, .refl _⟩
  | @parent i p r hi hp _ ih =>
    have hi' : i ∈ items' := hkeep i hi hx
    by_cases hpz : p = z
    · subst hpz
      exact .inr ⟨i, hi, hp, .refl _⟩
    · rcases ih hpz with ⟨hr, hd⟩ | ⟨c, hc, hcp, hd⟩
      · exact .inl ⟨hr, .parent hi' hp hd⟩
      · exact .inr ⟨c, hc, hcp, .parent hi' hp hd⟩

theorem within {x s r : String} (h : Descends items x s) (hx : ¬ Descends items x r)
    (hkeep : ∀ i ∈ items, ¬ Descends items i.id r → i ∈ items') : Descends items' x s := by
  induction h with
  | refl => exact .refl _
  | @parent i p s' hi hp _ ih =>
    exact .parent (hkeep i hi hx) hp (ih fun hpr => hx (.parent hi hp hpr))

end Descends

namespace Memory

variable {t t₀ : Tables} {S₀ stack : List String} {G : String → Prop}

theorem cascade_dropItem (cur : String) (t : Tables) : t.Cascade (· = cur) (dropItem cur t) := by
  refine ⟨List.filter_congr fun e _ => by simp only [bne, beq_eq_decide, decide_not],
    List.filter_congr fun s _ => by simp only [bne, beq_eq_decide, decide_not], ?_, rfl⟩
  refine List.map_congr_left fun d _ => ?_
  cases htoc : d.tocItemId with
  | none => simp
  | some i => by_cases hi : i = cur <;> simp [hi]

theorem cascade_deleteSubtrees (roots : List String) (t : Tables) :
    t.Cascade (fun x => ∃ r ∈ roots, Descends t.rows x r) (deleteSubtrees roots t) := by
  have hgone := mem_deleted_iff t roots
  refine ⟨List.filter_congr fun e _ => ?_, List.filter_congr fun s _ => ?_, ?_, rfl⟩
  · rw [Bool.eq_iff_iff]
    simp [hgone]
  · rw [Bool.eq_iff_iff]
    simp [hgone]
  · refine List.map_congr_left fun d _ => ?_
    cases htoc : d.tocItemId with
    | none => simp
    | some i =>
      by_cases hi : i ∈ subtreeIds t.rows (t.items.length + 1) roots
      · simp [hi, (hgone i).mp hi]
      · have hout : ¬ ∃ r ∈ roots, Descends t.rows i r := fun h => hi ((hgone i).mpr h)
        simp only [List.contains_iff_mem, hi, if_false, Option.some.injEq, exists_eq_left', hout]

theorem mem_childIds {y cur : String} :
    y ∈ childIds t cur ↔ ∃ c ∈ t.rows, c.parentId = some cur ∧ c.id = y := by
  simp only [childIds, Tables.rows, List.mem_map, List.mem_filter, Item.isChildOf, beq_iff_eq]
  constructor
  · rintro ⟨e, ⟨he, hp⟩, rfl⟩
    exact ⟨e.1, ⟨e, he, rfl⟩, hp, rfl⟩
  · rintro ⟨_, ⟨e, he, rfl⟩, hp, rfl⟩
    exact ⟨e, ⟨he, hp⟩, rfl⟩

/-- What a run of the cascade from the stack `S₀` on `t₀` keeps: the ids popped so far, `G`,
are removed and descend from `S₀`; so do the ids on the stack; and every id that descends from
`S₀` and is not yet removed hangs under an id on the stack. -/
structure Pending (t₀ : Tables) (S₀ : List String) (G : String → Prop) (stack : List String)
    (t : Tables) : Prop where
  removed : t₀.Cascade G t
  sound : ∀ y, G y → ∃ r ∈ S₀, Descends t₀.rows y r
  stacked : ∀ s ∈ stack, ∃ r ∈ S₀, Descends t₀.rows s r
  pending : ∀ y, (∃ r ∈ S₀, Descends t₀.rows y r) → ¬ G y → ∃ s ∈ stack, Descends t.rows y s

theorem Pending.start (t : Tables) (S : List String) : Pending t S (fun _ => False) S t :=
  ⟨.refl t, fun _ h => h.elim, fun s hs => ⟨s, hs, .refl s⟩, fun _ hy _ => hy⟩

theorem Pending.step {cur : String} {rest : List String} (h : Pending t₀ S₀ G (cur :: rest) t) :
    Pending t₀ S₀ (fun y => G y ∨ y = cur) ((childIds t cur).reverse ++ rest) (dropItem cur t) := by
  have hdrop := cascade_dropItem cur t
  have hcur := h.stacked cur List.mem_cons_self
  refine ⟨h.removed.trans hdrop, ?_, ?_, ?_⟩
  · rintro y (hy | rfl)
    · exact h.sound y hy
    · exact hcur
  · intro s hs
    rcases List.mem_append.mp hs with hs | hs
    · obtain ⟨c, hc, hcp, rfl⟩ := mem_childIds.mp (List.mem_reverse.mp hs)
      obtain ⟨r, hr, hd⟩ := hcur
      exact ⟨r, hr, .parent ((h.removed.mem_rows).mp hc).1 hcp hd⟩
    · exact h.stacked s (List.mem_cons_of_mem _ hs)
  · intro y hy hG
    obtain ⟨s, hs, hd⟩ := h.pending y hy fun hg => hG (.inl hg)
    have hkeep : ∀ i ∈ t.rows, i.id ≠ cur → i ∈ (dropItem cur t).rows := fun i hi hne =>
      hdrop.mem_rows.mpr ⟨hi, hne⟩
    rcases hd.avoid (fun hyc => hG (.inr hyc)) hkeep with ⟨hsc, hd'⟩ | ⟨c, hc, hcp, hd'⟩
    · refine ⟨s, List.mem_append_right _ ?_, hd'⟩
      exact (List.mem_cons.mp hs).resolve_left hsc
    · exact ⟨c.id, List.mem_append_left _ (List.mem_reverse.mpr (mem_childIds.mpr ⟨c, hc, hcp, rfl⟩)), hd'⟩

theorem Pending.run (h : Pending t₀ S₀ G stack t) :
    t₀.Cascade (fun y => ∃ r ∈ S₀, Descends t₀.rows y r) (cascade stack t) := by
  induction stack, t using cascade.induct generalizing G with
  | case1 t =>
    rw [cascade]
    refine h.removed.congr fun y => ⟨h.sound y, fun hy => ?_⟩
    refine Classical.byContradiction fun hG => ?_
    obtain ⟨s, hs, -⟩ := h.pending y hy hG
    exact List.not_mem_nil hs
  | case2 cur rest t ih =>
    rw [cascade]
    exact ih h.step

theorem cascade_spec (S : List String) (t : Tables) :
    t.Cascade (fun y => ∃ r ∈ S, Descends t.rows y r) (cascade S t) :=
  (Pending.start t S).run

theorem cascade_eq_deleteSubtrees (S : List String) (t : Tables) : cascade S t = deleteSubtrees S t :=
  (cascade_spec S t).unique (cascade_deleteSubtrees S t)

theorem cascadeEach_spec (ids : List String) (t : Tables) :
    t.Cascade (fun y => ∃ r ∈ ids, Descends t.rows y r) (cascadeEach ids t) := by
  induction ids generalizing t with
  | nil => exact (Tables.Cascade.refl t).congr fun y => by simp
  | cons r rs ih =>
    have h₁ := cascade_spec [r] t
    refine (h₁.trans (ih (cascade [r] t))).congr fun y => ?_
    simp only [List.mem_cons, List.not_mem_nil, or_false, exists_eq_left, exists_eq_or_imp]
    constructor
    · rintro (hr | ⟨r', hr', hd⟩)
      · exact .inl hr
      · exact .inr ⟨r', hr', hd.mono fun i hi => (h₁.mem_rows.mp hi).1⟩
    · rintro (hr | ⟨r', hr', hd⟩)
      · exact .inl hr
      · by_cases hyr : Descends t.rows y r
        · exact .inl hyr
        · refine .inr ⟨r', hr', hd.within hyr fun i hi hir => h₁.mem_rows.mpr ⟨hi, ?_⟩⟩
          simpa using hir

theorem cascadeEach_eq_deleteSubtrees (ids : List String) (t : Tables) :
    cascadeEach ids t = deleteSubtrees ids t :=
  (cascadeEach_spec ids t).unique (cascade_deleteSubtrees ids t)

end Memory

end Outliner
