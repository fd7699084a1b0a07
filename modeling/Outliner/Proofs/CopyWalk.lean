import Mathlib
import Outliner.Proofs.TreeMap

/-!
# The copier's stack walk

A copy walks the source items from the root with a stack of frames (source item, copied
item). Taking a frame off the stack, it creates the copies of the source item's children not
copied yet, in child order, under the copied item, and pushes their frames so that the first
child is taken next.

In a tree every item has one parent and the parent is taken off the stack once, before any of
its children is copied. So the walk never skips a child: `Copying` records, for the items `O`
copied after the root and the frames `P` still on the stack, that an item whose frame was taken
has had all its children copied, in child order, and that no child of an item still on the
stack has been copied. The ids of the copies are the ids minted in the order of `O`
(`copyId`), and the walk appends to the items table one copy of each item of `O`, with
increasing sequence numbers (`walk_copies`).
-/

set_option autoImplicit false

namespace Outliner.Memory

/-- The copy of a source item `c` in document `docId`, with ids renamed by `f`. -/
def copyItem (docId : String) (f : String → String) (c : Item) : Item :=
  ⟨f c.id, docId, c.parentId.map f, c.itemText, c.childOrder, false⟩

/-- The id of the copy of the item with id `y`: `root'` for the root `rootId`, and for the
`k`-th item of `O`, the `k`-th id minted after `n`. -/
def copyId (rootId root' : String) (n : Nat) (O : List Item) (y : String) : String :=
  if y = rootId then root' else Uuid.minted (n + (O.map (·.id)).idxOf y + 1)

section CopyId

variable {rootId root' : String} {n : Nat} {O C : List Item}

theorem copyId_root : copyId rootId root' n O rootId = root' := if_pos rfl

theorem copyId_append {y : String} (hy : y ∈ rootId :: O.map (·.id)) :
    copyId rootId root' n (O ++ C) y = copyId rootId root' n O y := by
  unfold copyId
  split
  · rfl
  · rename_i hne
    have hyO : y ∈ O.map (·.id) := (List.mem_cons.mp hy).resolve_left hne
    rw [List.map_append, List.idxOf_append, if_pos hyO]

theorem copyId_new {c : Item} (hcO : c.id ∉ O.map (·.id)) (hroot : c.id ≠ rootId) :
    copyId rootId root' n (O ++ C) c.id =
      Uuid.minted (n + O.length + (C.map (·.id)).idxOf c.id + 1) := by
  unfold copyId
  rw [if_neg hroot, List.map_append, List.idxOf_append, if_neg hcO, List.length_map]
  congr 1
  omega

theorem copyId_injective (hroot' : ∀ k, root' ≠ Uuid.minted (n + k + 1))
    {y z : String} (hy : y ∈ rootId :: O.map (·.id)) (hz : z ∈ rootId :: O.map (·.id))
    (h : copyId rootId root' n O y = copyId rootId root' n O z) : y = z := by
  unfold copyId at h
  by_cases hyr : y = rootId <;> by_cases hzr : z = rootId
  · rw [hyr, hzr]
  · rw [if_pos hyr, if_neg hzr] at h
    exact absurd h (hroot' _)
  · rw [if_neg hyr, if_pos hzr] at h
    exact absurd h.symm (hroot' _)
  · rw [if_neg hyr, if_neg hzr, Uuid.minted_inj] at h
    have hyO := (List.mem_cons.mp hy).resolve_left hyr
    have hzO := (List.mem_cons.mp hz).resolve_left hzr
    rw [← List.getElem_idxOf (List.idxOf_lt_length_of_mem hyO),
      ← List.getElem_idxOf (List.idxOf_lt_length_of_mem hzO)]
    simp only [show (O.map (·.id)).idxOf y = (O.map (·.id)).idxOf z by omega]

theorem copyItem_append {docId : String} {d : Item} (hd : d.id ∈ rootId :: O.map (·.id))
    (hp : ∀ x, d.parentId = some x → x ∈ rootId :: O.map (·.id)) :
    copyItem docId (copyId rootId root' n (O ++ C)) d = copyItem docId (copyId rootId root' n O) d := by
  unfold copyItem
  rw [copyId_append hd]
  cases hpd : d.parentId with
  | none => rw [Option.map_none, Option.map_none]
  | some x => rw [Option.map_some, Option.map_some, copyId_append (hp x hpd)]

end CopyId

theorem copyChildren_ok {docId destId : String} :
    ∀ (srcs : List Item) (visited : List String) (acc : List (String × String)) {m m' : Memory}
      {r : List (String × String) × List String},
      (∀ c ∈ srcs, c.id ∉ visited) → (srcs.map (·.id)).Nodup →
      exec (Copy.copyChildren repository docId destId srcs visited acc) m = (.ok r, m') →
      r = (acc ++ srcs.map (fun c => (c.id, Uuid.minted (m.minted + (srcs.map (·.id)).idxOf c.id + 1))),
        (srcs.map (·.id)).reverse ++ visited) ∧
      (∃ N : List (Item × Nat), m'.tables = { m.tables with items := m.tables.items ++ N } ∧
        N.map (·.1) = srcs.map (fun c => ⟨Uuid.minted (m.minted + (srcs.map (·.id)).idxOf c.id + 1),
          docId, some destId, c.itemText, c.childOrder, false⟩) ∧
        N.map (·.2) = List.range' (m.sequence + 1) srcs.length) ∧
      m'.minted = m.minted + srcs.length ∧ m'.sequence = m.sequence + srcs.length
  | [], visited, acc, m, m', r, _, _, h => by
    unfold Copy.copyChildren at h
    rw [exec_pure, Prod.mk.injEq, Except.ok.injEq] at h
    obtain ⟨rfl, rfl⟩ := h
    exact ⟨by simp, ⟨[], by simp, rfl, rfl⟩, rfl, rfl⟩
  | c :: cs, visited, acc, m, m', r, hnew, hnodup, h => by
    have hc : c.id ∉ visited := hnew c List.mem_cons_self
    obtain ⟨hcs, hnodup'⟩ := List.nodup_cons.mp (List.map_cons ▸ hnodup)
    unfold Copy.copyChildren at h
    rw [if_neg (by simpa using hc)] at h
    obtain ⟨dest, m₁, hdest, h⟩ := exec_bind_eq_ok.mp h
    obtain ⟨rfl, rfl, -, -⟩ := createItem_ok (exec_during_eq_ok.mp hdest)
    -- the rest are copied from the store the first copy left
    have hrest : ∀ d ∈ cs, d.id ∉ c.id :: visited := fun d hd hmem => by
      rcases List.mem_cons.mp hmem with he | he
      · exact hcs (he ▸ List.mem_map_of_mem hd)
      · exact hnew d (List.mem_cons_of_mem _ hd) he
    obtain ⟨hr, ⟨N, hN, hN1, hN2⟩, hmint, hseq⟩ := copyChildren_ok cs _ _ hrest hnodup' h
    have hidx : ∀ d ∈ cs, (c.id :: cs.map (·.id)).idxOf d.id = (cs.map (·.id)).idxOf d.id + 1 := by
      intro d hd
      rw [List.idxOf_cons, cond_eq_ite, if_neg]
      intro he
      exact hcs (beq_iff_eq.mp he ▸ List.mem_map_of_mem hd)
    have hid : ∀ d ∈ cs, Uuid.minted (m.minted + 1 + (cs.map (·.id)).idxOf d.id + 1) =
        Uuid.minted (m.minted + (c.id :: cs.map (·.id)).idxOf d.id + 1) := fun d hd => by
      rw [hidx d hd]
      exact congrArg Uuid.minted (by omega)
    refine ⟨?_, ⟨(⟨Uuid.minted (m.minted + 1), docId, some destId, c.itemText, c.childOrder, false⟩,
      m.sequence + 1) :: N, ?_, ?_, ?_⟩, ?_, ?_⟩
    · rw [hr]
      simp only [List.map_cons, List.idxOf_cons_self, List.append_assoc, List.singleton_append,
        List.reverse_cons, Prod.mk.injEq, Nat.add_zero]
      refine ⟨?_, by simp⟩
      rw [List.map_congr_left fun d hd => by rw [hid d hd]]
    · rw [hN]
      simp
    · simp only [List.map_cons, List.idxOf_cons_self, hN1, Nat.add_zero]
      rw [List.map_congr_left fun d hd => by rw [hid d hd]]
    · rw [List.map_cons, hN2, List.length_cons, List.range'_succ]
    · dsimp only at hmint
      rw [hmint, List.length_cons]
      omega
    · dsimp only at hseq
      rw [hseq, List.length_cons]
      omega

/-- The stack frame of a source item: its id and the id of its copy. -/
def frame (rootId root' : String) (n : Nat) (O : List Item) (c : Item) : String × String :=
  (c.id, copyId rootId root' n O c.id)

section Walk

variable {L : List Item} {root : Item} {docId root' : String} {n : Nat} {base : Tables}

/-- The copier's state after it has copied the items `O` besides the root, with the frames of
the items `P` still on its stack: the store is `base` with one copy of each item of `O`
appended in order, and the children of an item are copied exactly when its frame is taken. -/
structure Copying (L : List Item) (root : Item) (docId root' : String) (n : Nat) (base : Tables)
    (m : Memory) (P O : List Item) : Prop where
  items : ∃ E : List (Item × Nat), m.tables = { base with items := base.items ++ E } ∧
    E.map (·.1) = O.map (copyItem docId (copyId root.id root' n O)) ∧
    (E.map (·.2)).Pairwise (· < ·) ∧ ∀ e ∈ E, e.2 ≤ m.sequence
  minted : m.minted = n + O.length
  sub : ∀ c ∈ O, c ∈ L
  nodup : ((root :: O).map (·.id)).Nodup
  pending : ∀ c ∈ P, c ∈ root :: O
  pending_nodup : (P.map (·.id)).Nodup
  done : ∀ c ∈ root :: O, c ∉ P → O.filter (Item.isChildOf c.id) = ItemNode.childrenOf L c.id
  unseen : ∀ c ∈ P, ∀ d ∈ O, d.parentId ≠ some c.id
  parent : ∀ d ∈ O, ∃ c ∈ root :: O, c ∉ P ∧ d.parentId = some c.id

variable {m : Memory} {p : Item} {P O : List Item}

theorem Copying.children_new (hL : (L.map (·.id)).Nodup) (hroot : root ∈ L)
    (hrootp : root.parentId = none) (h : Copying L root docId root' n base m (p :: P) O) :
    ∀ c ∈ ItemNode.childrenOf L p.id, c.id ∉ (root :: O).map (·.id) := by
  intro c hc hmem
  obtain ⟨hcL, hcp⟩ := ItemNode.mem_of_mem_childrenOf hc
  obtain ⟨d, hd, hid⟩ := List.mem_map.mp hmem
  have hdL : d ∈ L := by
    rcases List.mem_cons.mp hd with rfl | hdO
    exacts [hroot, h.sub d hdO]
  obtain rfl := List.inj_on_of_nodup_map hL hcL hdL hid.symm
  rcases List.mem_cons.mp hd with rfl | hcO
  · exact Option.some_ne_none _ (hcp.symm.trans hrootp)
  · exact h.unseen p List.mem_cons_self c hcO hcp

theorem Copying.step (hL : (L.map (·.id)).Nodup) (hroot : root ∈ L)
    (hrootp : root.parentId = none) (h : Copying L root docId root' n base m (p :: P) O)
    {r : List (String × String) × List String} {m₁ : Memory}
    (hx : exec (Copy.copyChildren repository docId (copyId root.id root' n O p.id)
      (ItemNode.childrenOf L p.id) ((O.map (·.id)).reverse ++ [root.id]) []) m = (.ok r, m₁)) :
    r = ((ItemNode.childrenOf L p.id).map (frame root.id root' n (O ++ ItemNode.childrenOf L p.id)),
      ((O ++ ItemNode.childrenOf L p.id).map (·.id)).reverse ++ [root.id]) ∧
    Copying L root docId root' n base m₁ (ItemNode.childrenOf L p.id ++ P)
      (O ++ ItemNode.childrenOf L p.id) := by
  have hnew := h.children_new hL hroot hrootp
  generalize hC : ItemNode.childrenOf L p.id = C at hx hnew ⊢
  have hp : p ∈ root :: O := h.pending p List.mem_cons_self
  obtain ⟨hpP, hPnd⟩ := List.nodup_cons.mp (List.map_cons ▸ h.pending_nodup)
  have hCL : ∀ c ∈ C, c ∈ L ∧ c.parentId = some p.id := fun c hc =>
    ItemNode.mem_of_mem_childrenOf (hC ▸ hc)
  have hCnot : ∀ c ∈ C, c ∉ root :: O := fun c hc hm => hnew c hc (List.mem_map_of_mem hm)
  have hCnd : (C.map (·.id)).Nodup := hC ▸ ItemNode.childrenOf_nodup hL p.id
  have hgrow : ∀ c ∈ root :: O, c ∈ root :: (O ++ C) := fun c hc => by
    rcases List.mem_cons.mp hc with rfl | hc
    exacts [List.mem_cons_self, List.mem_cons_of_mem _ (List.mem_append_left _ hc)]
  have hvis : ∀ c ∈ C, c.id ∉ (O.map (·.id)).reverse ++ [root.id] := fun c hc hm => by
    rw [List.mem_append, List.mem_reverse, List.mem_singleton] at hm
    exact hnew c hc (List.mem_cons.mpr hm.symm)
  obtain ⟨hr, ⟨N, hN, hN1, hN2⟩, hmint, hseq⟩ := copyChildren_ok C _ [] hvis hCnd hx
  -- the children are numbered after `O`, in their order
  have hid : ∀ c ∈ C, copyId root.id root' n (O ++ C) c.id =
      Uuid.minted (m.minted + (C.map (·.id)).idxOf c.id + 1) := fun c hc => by
    have hc' : c.id ∉ root.id :: O.map (·.id) := hnew c hc
    rw [copyId_new (fun hm => hc' (List.mem_cons_of_mem _ hm)) (fun he => hc' (he ▸ List.mem_cons_self)),
      h.minted]
  obtain ⟨E, hE, hE1, hE2, hE3⟩ := h.items
  refine ⟨?_, ⟨⟨E ++ N, ?_, ?_, ?_, ?_⟩, ?_, ?_, ?_, ?_, ?_, ?_, ?_, ?_⟩⟩
  · rw [hr, List.nil_append]
    refine congrArg₂ Prod.mk ?_ ?_
    · exact List.map_congr_left fun c hc => by rw [frame, hid c hc]
    · rw [List.map_append, List.reverse_append, List.append_assoc]
  · rw [hN, hE, List.append_assoc]
  · rw [List.map_append, List.map_append, hE1, hN1]
    refine congrArg₂ (· ++ ·) ?_ ?_
    · refine List.map_congr_left fun d hd => (copyItem_append (List.mem_cons_of_mem _
        (List.mem_map_of_mem hd)) fun x hx => ?_).symm
      obtain ⟨c, hc, -, hcp⟩ := h.parent d hd
      rw [hcp, Option.some_inj] at hx
      exact hx ▸ (List.mem_map_of_mem hc : c.id ∈ (root :: O).map (·.id))
    · refine List.map_congr_left fun c hc => ?_
      have hpid : p.id ∈ root.id :: O.map (·.id) := List.mem_map_of_mem hp
      rw [copyItem, hid c hc, (hCL c hc).2, Option.map_some, copyId_append hpid]
  · rw [List.map_append, hN2]
    refine List.pairwise_append.mpr ⟨hE2, List.pairwise_lt_range', fun a ha b hb => ?_⟩
    obtain ⟨e, he, rfl⟩ := List.mem_map.mp ha
    have := hE3 e he
    have := (List.mem_range'_1.mp hb).1
    omega
  · intro e he
    rcases List.mem_append.mp he with he | he
    · have := hE3 e he
      omega
    · have := (List.mem_range'_1.mp (hN2 ▸ List.mem_map_of_mem he)).2
      omega
  · rw [hmint, h.minted, List.length_append]
    omega
  · intro c hc
    rcases List.mem_append.mp hc with hc | hc
    exacts [h.sub c hc, (hCL c hc).1]
  · rw [← List.cons_append, List.map_append]
    refine List.nodup_append.mpr ⟨h.nodup, hCnd, fun a ha b hb hab => ?_⟩
    obtain ⟨c, hc, rfl⟩ := List.mem_map.mp hb
    exact hnew c hc (hab ▸ ha)
  · intro c hc
    rcases List.mem_append.mp hc with hc | hc
    exacts [List.mem_cons_of_mem _ (List.mem_append_right _ hc), hgrow c (h.pending c (List.mem_cons_of_mem _ hc))]
  · rw [List.map_append]
    refine List.nodup_append.mpr ⟨hCnd, hPnd, fun a ha b hb hab => ?_⟩
    obtain ⟨c, hc, rfl⟩ := List.mem_map.mp ha
    obtain ⟨q, hq, rfl⟩ := List.mem_map.mp hb
    exact hnew c hc (hab ▸ List.mem_map_of_mem (h.pending q (List.mem_cons_of_mem _ hq)))
  · intro c hc hcP
    have hc' : c ∈ root :: O := by
      rcases List.mem_cons.mp hc with rfl | hc
      · exact List.mem_cons_self
      rcases List.mem_append.mp hc with hc | hc
      exacts [List.mem_cons_of_mem _ hc, absurd (List.mem_append_left _ hc) hcP]
    rw [List.filter_append]
    by_cases hcp : c = p
    · -- the item just taken: none of `O` is its child, and all of `C` are
      subst hcp
      have hO : O.filter (Item.isChildOf c.id) = [] := List.filter_eq_nil_iff.mpr fun d hd hpd =>
        h.unseen c List.mem_cons_self d hd (by simpa [Item.isChildOf] using hpd)
      have hCc : C.filter (Item.isChildOf c.id) = C := List.filter_eq_self.mpr fun d hd => by
        simp [Item.isChildOf, (hCL d hd).2]
      rw [hO, hCc, List.nil_append, hC]
    · -- an item taken before: its children are all in `O`, none in `C`
      have hcP' : c ∉ p :: P := fun hm =>
        (List.mem_cons.mp hm).elim hcp fun hP => hcP (List.mem_append_right _ hP)
      have hne : p.id ≠ c.id := fun he => hcp (List.inj_on_of_nodup_map h.nodup hc' hp he.symm)
      have hCc : C.filter (Item.isChildOf c.id) = [] := List.filter_eq_nil_iff.mpr fun d hd hpd =>
        hne (by simpa [Item.isChildOf, (hCL d hd).2] using hpd)
      rw [h.done c hc' hcP', hCc, List.append_nil]
  · intro c hc d hd hpar
    rcases List.mem_append.mp hc with hcC | hcP <;> rcases List.mem_append.mp hd with hdO | hdC
    · obtain ⟨q, hq, -, hqp⟩ := h.parent d hdO
      rw [hqp, Option.some_inj] at hpar
      exact hnew c hcC (hpar ▸ List.mem_map_of_mem hq)
    · rw [(hCL d hdC).2, Option.some_inj] at hpar
      exact hnew c hcC (hpar ▸ List.mem_map_of_mem hp)
    · exact h.unseen c (List.mem_cons_of_mem _ hcP) d hdO hpar
    · rw [(hCL d hdC).2, Option.some_inj] at hpar
      exact hpP (hpar ▸ List.mem_map_of_mem hcP)
  · intro d hd
    rcases List.mem_append.mp hd with hdO | hdC
    · obtain ⟨q, hq, hqP, hqp⟩ := h.parent d hdO
      refine ⟨q, hgrow q hq, fun hm => ?_, hqp⟩
      rcases List.mem_append.mp hm with hqC | hqP'
      exacts [hCnot q hqC hq, hqP (List.mem_cons_of_mem _ hqP')]
    · refine ⟨p, hgrow p hp, fun hm => ?_, (hCL d hdC).2⟩
      rcases List.mem_append.mp hm with hpC | hpP'
      exacts [hCnot p hpC hp, hpP (List.mem_map_of_mem hpP')]

theorem Copying.length_le (hroot : root ∈ L) (h : Copying L root docId root' n base m P O) :
    O.length + 1 ≤ L.length :=
  (List.Nodup.of_map _ h.nodup).length_le_of_subset fun c hc => by
    rcases List.mem_cons.mp hc with rfl | hc
    exacts [hroot, h.sub c hc]

theorem walk_copies (hL : (L.map (·.id)).Nodup) (hroot : root ∈ L) (hrootp : root.parentId = none) :
    ∀ (fuel : Nat) {m m' : Memory} {P O : List Item}, Copying L root docId root' n base m P O →
      P.length + (L.length - (O.length + 1)) ≤ fuel →
      exec (Copy.walk repository docId L fuel (P.map (frame root.id root' n O))
        ((O.map (·.id)).reverse ++ [root.id])) m = (.ok (), m') →
      ∃ O', Copying L root docId root' n base m' [] O'
  | 0, m, m', P, O, h, hfuel, hx => by
    obtain rfl : P = [] := List.eq_nil_of_length_eq_zero (by omega)
    unfold Copy.walk at hx
    obtain ⟨-, rfl⟩ := Prod.mk.inj hx
    exact ⟨O, h⟩
  | fuel + 1, m, m', [], O, h, _, hx => by
    unfold Copy.walk at hx
    obtain ⟨-, rfl⟩ := Prod.mk.inj hx
    exact ⟨O, h⟩
  | fuel + 1, m, m', p :: P, O, h, hfuel, hx => by
    rw [List.map_cons, frame] at hx
    unfold Copy.walk at hx
    obtain ⟨r, m₁, hcopy, hx⟩ := exec_bind_eq_ok.mp hx
    obtain ⟨rfl, h₁⟩ := h.step hL hroot hrootp hcopy
    -- the frames left below keep their copies' ids
    have hP : P.map (frame root.id root' n O) =
        P.map (frame root.id root' n (O ++ ItemNode.childrenOf L p.id)) :=
      List.map_congr_left fun c hc => by
        rw [frame, frame, copyId_append (List.mem_map_of_mem (h.pending c (List.mem_cons_of_mem _ hc)))]
    rw [hP] at hx
    have hlen := h₁.length_le hroot
    rw [List.length_append] at hlen
    rw [List.length_cons] at hfuel
    refine walk_copies hL hroot hrootp fuel h₁ ?_ ?_
    · rw [List.length_append, List.length_append]
      omega
    · rw [List.map_append]
      exact hx

end Walk

end Outliner.Memory
