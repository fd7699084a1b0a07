import Mathlib
import Outliner.Proofs.CopyWalk
import Outliner.Proofs.Plain
import Outliner.Proofs.Injection

/-!
# A copy repeats the document's tree

A listing of items is ordered by parent (items without one first), then child order, then
sequence number: the lexicographic order of `listKey`. The children of one parent in a listing
are therefore its entries in table order whenever those are already in child order
(`filter_sortedItems`).

The copier creates the children of an item together, in the order the tree gives them, with
increasing sequence numbers. So the children of a copied item, read back from the copy's
listing, are the copies of the children of the source item, in the same order, ties included
(`CopyRun.children`). With the relabelling lemmas of the tree builder, the tree built from the
copy is the source's tree with the ids renamed and the root retitled (`CopyRun.build`);
erasing the ids, the two agree but for the root's text (`copy_reproduces_tree`).
-/

set_option autoImplicit false

namespace Outliner.ItemNode

theorem build_of_mem {L : List Item} (hL : (L.map (·.id)).Nodup) {r : Item} (hr : r ∈ L) :
    ∃ cs, build L r.id = some (mk r cs) := by
  unfold build
  rw [if_pos (List.any_eq_true.mpr ⟨r, hr, by simp⟩)]
  dsimp only
  rw [assemble, lastWithId_of_mem hL hr, Option.getD_some]
  exact ⟨_, rfl⟩

end Outliner.ItemNode

namespace Outliner.Memory

/-! ## List order -/

/-- Where an entry of the items table stands in list order: items without a parent first,
then by parent, child order and sequence number. -/
def listKey (e : Item × Nat) : Bool ×ₗ String ×ₗ Int ×ₗ Nat :=
  toLex (e.1.parentId.isSome, toLex (e.1.parentId.getD "", toLex (e.1.childOrder, e.2)))

theorem itemBefore_iff (a b : Item × Nat) : itemBefore a b = true ↔ listKey a ≤ listKey b := by
  unfold itemBefore listKey
  rcases a with ⟨⟨_, _, pa, _, ca, _⟩, sa⟩
  rcases b with ⟨⟨_, _, pb, _, cb, _⟩, sb⟩
  dsimp only
  have hpair : ((if ca ≠ cb then decide (ca < cb) else decide (sa ≤ sb)) = true) ↔
      toLex (ca, sa) ≤ toLex (cb, sb) := by
    rw [Prod.Lex.toLex_le_toLex]
    by_cases h : ca = cb <;> simp [h]
  cases pa with
  | none =>
    cases pb with
    | none => simpa [Prod.Lex.toLex_le_toLex] using hpair
    | some q => simp [Prod.Lex.toLex_le_toLex]
  | some p =>
    cases pb with
    | none => simp [Prod.Lex.toLex_le_toLex]
    | some q =>
      by_cases h : p = q
      · subst h
        simpa [Prod.Lex.toLex_le_toLex] using hpair
      · simp [Prod.Lex.toLex_le_toLex, h]

theorem itemBefore_trans (a b c : Item × Nat) (hab : itemBefore a b = true)
    (hbc : itemBefore b c = true) : itemBefore a c = true :=
  (itemBefore_iff a c).mpr (le_trans ((itemBefore_iff a b).mp hab) ((itemBefore_iff b c).mp hbc))

theorem itemBefore_total (a b : Item × Nat) : (itemBefore a b || itemBefore b a) = true := by
  rw [Bool.or_eq_true, itemBefore_iff, itemBefore_iff]
  exact le_total _ _

theorem filter_sortedItems {t : Tables} {keep : Item → Bool} {y : String}
    (hS : ((t.items.filter fun e => keep e.1).filter fun e => e.1.isChildOf y).Pairwise
      fun a b => itemBefore a b = true) :
    (sortedItems t keep).filter (Item.isChildOf y) =
      ((t.items.filter fun e => keep e.1).filter fun e => e.1.isChildOf y).map (·.1) := by
  unfold sortedItems
  rw [List.filter_map]
  congr 1
  have hsub := (List.sublist_mergeSort itemBefore_trans itemBefore_total hS List.filter_sublist).filter
    (fun e : Item × Nat => e.1.isChildOf y)
  rw [List.filter_eq_self.mpr fun e he => (List.mem_filter.mp he).2] at hsub
  have hperm := (List.mergeSort_perm (t.items.filter fun e => keep e.1) itemBefore).filter
    (fun e : Item × Nat => e.1.isChildOf y)
  exact (hsub.eq_of_length hperm.length_eq.symm).symm

theorem sortedItems_ids_nodup {t : Tables} (keep : Item → Bool) (h : (t.rows.map (·.id)).Nodup) :
    ((sortedItems t keep).map (·.id)).Nodup := by
  unfold sortedItems
  rw [List.map_map]
  refine ((List.mergeSort_perm _ _).map _).nodup_iff.mpr ?_
  unfold Tables.rows at h
  rw [List.map_map] at h
  exact h.sublist (List.filter_sublist.map _)

theorem sortedItems_perm (t : Tables) (keep : Item → Bool) :
    (sortedItems t keep).Perm ((t.items.filter fun e => keep e.1).map (·.1)) :=
  (List.mergeSort_perm _ _).map _

/-! ## What a copy leaves -/

theorem exec_atomically_eq_ok {α : Type} {body : MemoryM α} {m m' : Memory} {a : α}
    (hout : m.inTransaction = false) (h : exec (atomically body) m = (.ok a, m')) :
    ∃ m'', exec body { m with inTransaction := true } = (.ok a, m'') ∧
      m' = { m'' with inTransaction := false } := by
  rw [exec_atomically hout] at h
  rcases hr : exec body { m with inTransaction := true } with ⟨r, m''⟩
  rw [hr] at h
  cases r with
  | ok b =>
    simp only [Prod.mk.injEq, Except.ok.injEq] at h
    obtain ⟨rfl, rfl⟩ := h
    exact ⟨m'', rfl, rfl⟩
  | error e => cases h

theorem Copying.congr {L : List Item} {root : Item} {docId root' : String} {n : Nat} {base : Tables}
    {m m' : Memory} {P O : List Item} (h : Copying L root docId root' n base m P O)
    (ht : m'.tables = m.tables) (hn : m'.minted = m.minted) (hs : m'.sequence = m.sequence) :
    Copying L root docId root' n base m' P O :=
  ⟨by rw [ht, hs]; exact h.items, by rw [hn]; exact h.minted, h.sub, h.nodup, h.pending,
    h.pending_nodup, h.done, h.unseen, h.parent⟩

theorem root_of_find? {catalog : Catalog} {m : Memory} {src : Document} {r : Item}
    (hc : Consistent catalog m) (hsrc : src ∈ m.tables.documents)
    (hr : (sortedItems m.tables (·.documentId == src.id)).find? (·.id == src.rootId) = some r) :
    r ∈ sortedItems m.tables (·.documentId == src.id) ∧ src.rootItemId = some r.id ∧
      r.parentId = none := by
  have hmem := List.mem_of_find?_eq_some hr
  have hid : r.id = src.rootId := by simpa using List.find?_some hr
  obtain ⟨R, hR, hroot⟩ := hc.invariant.rooted src hsrc
  obtain ⟨j, hj, hjR, -, hjp⟩ := root_row hroot
  rw [Document.rootId, hR, Option.getD_some] at hid
  obtain rfl : r = j := hc.fresh.item_eq (mem_sortedItems.mp hmem).1 hj (hid.trans hjR.symm)
  exact ⟨hmem, hid ▸ hR, hjp⟩

/-- The document a copy made from store `m` for `user` is: the next id, the user's, private,
without a table of contents, the id after it for its root item, and created and modified at the
clock's next reading. -/
def copyDocument (m : Memory) (user : String) : Document :=
  ⟨Uuid.minted (m.minted + 1), user, some (Uuid.minted (m.minted + 2)), none, false,
    m.clock (m.readings + 1), some (m.clock (m.readings + 1))⟩

/-- The root item of that copy, titled from the source root `r`. -/
def copyRoot (m : Memory) (r : Item) : Item :=
  ⟨Uuid.minted (m.minted + 2), Uuid.minted (m.minted + 1), none, effectiveTitle r.itemText, 0, false⟩

/-- The tables once the copy's document and root item are made, before the walk. -/
def copyBase (m : Memory) (user : String) (r : Item) : Tables :=
  { m.tables with
    documents := m.tables.documents ++ [copyDocument m user]
    items := m.tables.items ++ [(copyRoot m r, m.sequence + 1)] }

/-- A copy of the document `src` of a consistent store `m` for `user` that ran to its end in
`m'`: the walk started at the source root `r` and copied the items `O` below it. -/
structure CopyRun (catalog : Catalog) (m m' : Memory) (src : Document) (user : String) (r : Item)
    (O : List Item) : Prop where
  consistent : Consistent catalog m
  plain : AllPlain m
  source : src ∈ m.tables.documents
  root_mem : r ∈ sortedItems m.tables (·.documentId == src.id)
  root_id : src.rootItemId = some r.id
  root_parent : r.parentId = none
  walk : Copying (sortedItems m.tables (·.documentId == src.id)) r (Uuid.minted (m.minted + 1))
    (Uuid.minted (m.minted + 2)) (m.minted + 2) (copyBase m user r) m' [] O

theorem replicate_ok {catalog : Catalog} {m m' : Memory} {src D : Document} {user : String}
    (hc : Consistent catalog m) (hplain : AllPlain m) (hout : m.inTransaction = false)
    (hsrc : src ∈ m.tables.documents)
    (h : exec (Copy.replicate repository src (sortedItems m.tables (·.documentId == src.id)) user) m =
      (.ok D, m')) :
    ∃ (r : Item) (O : List Item), D = copyDocument m user ∧ CopyRun catalog m m' src user r O := by
  unfold Copy.replicate at h
  split at h
  · rw [exec_raise] at h
    cases h
  rename_i r hr
  obtain ⟨hrL, hrR, hrp⟩ := root_of_find? hc hsrc hr
  obtain ⟨m₃, hb, rfl⟩ := exec_atomically_eq_ok hout h
  obtain ⟨x, m₁, hx, hb⟩ := exec_bind_eq_ok.mp hb
  obtain ⟨ht₁, hn₁, -, rfl⟩ := createWithRoot_ok (m := { m with inTransaction := true }) hc.fresh
    (exec_during_eq_ok.mp hx)
  dsimp only at hb
  obtain ⟨_, m₂, htext, hb⟩ := exec_bind_eq_ok.mp hb
  obtain ⟨_, m₃', hwalk, hb⟩ := exec_bind_eq_ok.mp hb
  rw [exec_pure, Prod.mk.injEq, Except.ok.injEq] at hb
  obtain ⟨rfl, rfl⟩ := hb
  dsimp only at ht₁ hn₁
  dsimp only [repository] at htext hwalk
  -- the title goes on the new root item only: no item of the store had its id
  have hm₂ : m₂.tables = { m.tables with
      documents := m.tables.documents ++
        [⟨Uuid.minted (m.minted + 1), user, some (Uuid.minted (m.minted + 2)), none, false,
          m.clock (m.readings + 1), some (m.clock (m.readings + 1))⟩]
      items := m.tables.items ++ [(⟨Uuid.minted (m.minted + 2), Uuid.minted (m.minted + 1), none,
        effectiveTitle r.itemText, 0, false⟩, m.sequence + 1)] } ∧ m₂.minted = m.minted + 2 := by
    rw [exec_during_eq_ok] at htext
    rcases updateText_cases (Uuid.minted (m.minted + 1)) (Uuid.minted (m.minted + 2))
      (effectiveTitle r.itemText) m₁ with ⟨e, he⟩ | ⟨i, -, -, he⟩ <;> rw [he] at htext
    · cases htext
    obtain ⟨-, rfl⟩ := Prod.mk.inj htext
    refine ⟨?_, hn₁⟩
    have hold : ∀ e ∈ m.tables.items, e.1.id ≠ Uuid.minted (m.minted + 2) := fun e he =>
      (hc.fresh.mono (Nat.le_succ _)).item_ne_next (List.mem_map_of_mem he)
    simp only [ht₁, Tables.withDocument, List.map_append, List.map_singleton, beq_self_eq_true,
      ↓reduceIte]
    congr 2
    refine (List.map_congr_left fun e he => ?_).trans (List.map_id _)
    rw [if_neg (by simpa using hold e he)]
    rfl
  obtain ⟨hm₂, hn₂⟩ := hm₂
  have h₀ : Copying (sortedItems m.tables (·.documentId == src.id)) r (Uuid.minted (m.minted + 1))
      (Uuid.minted (m.minted + 2)) (m.minted + 2) m₂.tables m₂ [r] [] :=
    { items := ⟨[], by rw [List.append_nil], rfl, List.Pairwise.nil, fun _ h => absurd h List.not_mem_nil⟩
      minted := hn₂
      sub := fun _ h => absurd h List.not_mem_nil
      nodup := List.nodup_singleton _
      pending := fun _ h => h
      pending_nodup := List.nodup_singleton _
      done := fun _ hc hcP => absurd hc hcP
      unseen := fun _ _ _ h => absurd h List.not_mem_nil
      parent := fun _ h => absurd h List.not_mem_nil }
  have hstack : [r].map (frame r.id (Uuid.minted (m.minted + 2)) (m.minted + 2) []) =
      [(r.id, Uuid.minted (m.minted + 2))] := by
    rw [List.map_singleton, frame, copyId_root]
  obtain ⟨O, hO⟩ := walk_copies (sortedItems_ids_nodup _ hc.fresh.items_nodup) hrL hrp
    ((sortedItems m.tables (·.documentId == src.id)).length + 1) h₀
    (by simp only [List.length_singleton, List.length_nil]; omega) (by rw [hstack]; exact hwalk)
  refine ⟨r, O, rfl, hc, hplain, hsrc, hrL, hrR, hrp, ?_⟩
  rw [hm₂] at hO
  exact hO.congr rfl rfl rfl

theorem Copying.complete {catalog : Catalog} {m₀ m : Memory} {src : Document} {r : Item}
    {docId root' : String} {n : Nat} {base : Tables} {O : List Item}
    (hc : Consistent catalog m₀) (hsrc : src ∈ m₀.tables.documents)
    (hrL : r ∈ sortedItems m₀.tables (·.documentId == src.id)) (hrR : src.rootItemId = some r.id)
    (h : Copying (sortedItems m₀.tables (·.documentId == src.id)) r docId root' n base m [] O) :
    ∀ c ∈ sortedItems m₀.tables (·.documentId == src.id), c ∈ r :: O := by
  -- by induction on the descent from the root, each item of the document is copied
  have key : ∀ x y, Descends m₀.tables.rows x y → y = r.id →
      ∀ c ∈ sortedItems m₀.tables (·.documentId == src.id), c.id = x → c ∈ r :: O := by
    intro x y hd
    induction hd with
    | refl x =>
      intro hy c hcL hcx
      obtain rfl : c = r :=
        hc.fresh.item_eq (mem_sortedItems.mp hcL).1 (mem_sortedItems.mp hrL).1 (hcx.trans hy)
      exact List.mem_cons_self
    | @parent i p y hi hp _ ih =>
      intro hy c hcL hci
      obtain ⟨hc₁, hcdoc⟩ := mem_sortedItems.mp hcL
      obtain rfl : c = i := hc.fresh.item_eq hc₁ hi hci
      obtain ⟨q, hq, hqp, hqdoc⟩ := hc.invariant.parent_linked c hc₁ p hp
      have hqL : q ∈ sortedItems m₀.tables (·.documentId == src.id) :=
        mem_sortedItems.mpr ⟨hq, hqdoc ▸ hcdoc⟩
      have hqO := ih hy q hqL hqp
      have hchild : c ∈ ItemNode.childrenOf (sortedItems m₀.tables (·.documentId == src.id)) q.id :=
        List.mem_mergeSort.mpr (List.mem_filter.mpr ⟨hcL, by simp [Item.isChildOf, hp, hqp]⟩)
      rw [← h.done q hqO (fun h => absurd h List.not_mem_nil)] at hchild
      exact List.mem_cons_of_mem _ (List.mem_filter.mp hchild).1
  intro c hcL
  obtain ⟨hc₁, hcdoc⟩ := mem_sortedItems.mp hcL
  obtain ⟨d, hd, hdid, R, hR, hdesc⟩ := hc.invariant.grounded c hc₁
  obtain rfl : d = src := hc.fresh.document_eq hd hsrc (hdid.trans (by simpa using hcdoc))
  rw [hrR, Option.some.injEq] at hR
  exact key c.id R hdesc hR.symm c hcL rfl

/-! ## The copy's listing -/

/-- A source item as it stands in the copy `docId`, its ids renamed by `f` and all else kept. -/
def Item.relabel (docId : String) (f : String → String) (c : Item) : Item :=
  { c with id := f c.id, documentId := docId, parentId := c.parentId.map f }

theorem copyItem_eq_relabel {docId : String} {f : String → String} {c : Item}
    (h : c.collapsed = false) : copyItem docId f c = Item.relabel docId f c := by
  unfold copyItem Item.relabel
  rw [← h]

@[simp] theorem erase_relabel (docId : String) (f : String → String) (c : Item) :
    (Item.relabel docId f c).erase = c.erase := rfl

theorem childrenOf_sorted (L : List Item) (x : String) :
    (ItemNode.childrenOf L x).Pairwise fun a b => a.childOrder ≤ b.childOrder := by
  unfold ItemNode.childrenOf
  refine (List.pairwise_mergeSort (fun a b c hab hbc => ?_) (fun a b => ?_) _).imp fun h => by
    simpa using h
  · simp only [decide_eq_true_eq] at hab hbc ⊢
    exact le_trans hab hbc
  · simp only [Bool.or_eq_true, decide_eq_true_eq]
    exact le_total _ _

theorem itemBefore_of_siblings {a b : Item × Nat} {y : String} (ha : a.1.parentId = some y)
    (hb : b.1.parentId = some y) (hco : a.1.childOrder ≤ b.1.childOrder) (hs : a.2 ≤ b.2) :
    itemBefore a b = true := by
  unfold itemBefore
  rw [ha, hb]
  by_cases h : a.1.childOrder = b.1.childOrder
  · simp [h, hs]
  · simp only [ne_eq, not_true_eq_false, ↓reduceIte, h, not_false_eq_true, decide_eq_true_eq]
    omega

section Listing

variable {L : List Item} {r : Item} {docId root' : String} {n : Nat} {base : Tables} {m' : Memory}
  {O : List Item} {E : List (Item × Nat)}

theorem Copying.children_copies (hroot' : ∀ k, root' ≠ Uuid.minted (n + k + 1))
    (h : Copying L r docId root' n base m' [] O)
    (hE : E.map (·.1) = O.map (copyItem docId (copyId r.id root' n O))) {p : Item} (hp : p ∈ r :: O) :
    (E.filter fun e => e.1.isChildOf (copyId r.id root' n O p.id)).map (·.1) =
      (ItemNode.childrenOf L p.id).map (copyItem docId (copyId r.id root' n O)) := by
  have hpid : p.id ∈ r.id :: O.map (·.id) := List.mem_map_of_mem hp
  have hfilter : (E.filter fun e => e.1.isChildOf (copyId r.id root' n O p.id)).map (·.1) =
      (E.map (·.1)).filter (Item.isChildOf (copyId r.id root' n O p.id)) := by
    rw [List.filter_map]
    rfl
  rw [hfilter, hE, List.filter_map, ← h.done p hp fun h => absurd h List.not_mem_nil]
  congr 1
  refine List.filter_congr fun c hc => ?_
  obtain ⟨q, hq, -, hcq⟩ := h.parent c hc
  have hqid : q.id ∈ r.id :: O.map (·.id) := List.mem_map_of_mem hq
  simp only [Function.comp, copyItem, Item.isChildOf, hcq, Option.map_some]
  exact decide_eq_decide.mpr ⟨copyId_injective hroot' hqid hpid, congrArg _⟩

end Listing

theorem minted_ne_after (k : Nat) : ∀ j, Uuid.minted k ≠ Uuid.minted (k + j + 1) := fun j he => by
  rw [Uuid.minted_inj] at he
  omega

theorem copyId_minted (rootId : String) (k : Nat) (O : List Item) (y : String) :
    ∃ j, copyId rootId (Uuid.minted k) k O y = Uuid.minted (k + j) := by
  unfold copyId
  split
  · exact ⟨0, rfl⟩
  · exact ⟨_, congrArg Uuid.minted (Nat.add_assoc _ _ _)⟩

theorem Consistent.documentId_ne_next {catalog : Catalog} {m : Memory} (hc : Consistent catalog m) :
    ∀ e ∈ m.tables.items, e.1.documentId ≠ Uuid.minted (m.minted + 1) := by
  intro e he
  obtain ⟨d, hd, hdid, -⟩ := hc.invariant.grounded e.1 (List.mem_map_of_mem he)
  exact hdid ▸ hc.fresh.document_ne_next hd

theorem triple_canView_found (P : Memory → Prop) (user docId : String) :
    Triple P (Access.canView repository user docId)
      (fun d m => P m ∧ document? m.tables docId = some d) := by
  unfold Access.canView Access.load
  refine Triple.bind (((readsOnly_getDocument docId).triple_with
    fun m d h => getDocument_found h).during _) fun d => ?_
  exact Triple.ite (Triple.pure_of d fun _ h => h) (Triple.ite (Triple.raise _ _ _) (Triple.raise _ _ _))

theorem copy_ok {m m' : Memory} {user docId : String} {D' : Document}
    (h : exec (Documents.copy repository user docId) m = (.ok D', m')) :
    ∃ src, document? m.tables docId = some src ∧
      exec (Copy.replicate repository src (sortedItems m.tables (·.documentId == src.id)) user) m =
        (.ok D', m') := by
  unfold Documents.copy at h
  cases hu : (user == "") with
  | true =>
    rw [if_pos hu, exec_raise] at h
    cases h
  | false =>
    rw [if_neg (by simp [hu])] at h
    obtain ⟨src, m₁, hv, hrest⟩ := exec_bind_eq_ok.mp h
    obtain rfl : m₁ = m := by simpa [hv] using readsOnly_canView user docId m
    obtain ⟨items, m₂, hl, hrep⟩ := exec_bind_eq_ok.mp hrest
    dsimp only [repository] at hl
    rw [exec_listItems, Prod.mk.injEq, Except.ok.injEq] at hl
    obtain ⟨rfl, rfl⟩ := hl
    exact ⟨src, (triple_canView_found (fun _ => True) user docId m₁ src m₁ trivial hv).2, hrep⟩

namespace CopyRun

variable {catalog : Catalog} {m m' : Memory} {src : Document} {user : String} {r : Item}
  {O : List Item}

theorem ids_nodup (h : CopyRun catalog m m' src user r O) :
    ((sortedItems m.tables (·.documentId == src.id)).map (·.id)).Nodup :=
  sortedItems_ids_nodup _ h.consistent.fresh.items_nodup

theorem complete (h : CopyRun catalog m m' src user r O) :
    ∀ c ∈ sortedItems m.tables (·.documentId == src.id), c ∈ r :: O :=
  h.walk.complete h.consistent h.source h.root_mem h.root_id

theorem entries (h : CopyRun catalog m m' src user r O) :
    ∃ E : List (Item × Nat), m'.tables.items = m.tables.items ++ (copyRoot m r, m.sequence + 1) :: E ∧
      (m'.tables.items.filter fun e => e.1.documentId == Uuid.minted (m.minted + 1)) =
        (copyRoot m r, m.sequence + 1) :: E ∧
      E.map (·.1) = O.map (copyItem (Uuid.minted (m.minted + 1))
        (copyId r.id (Uuid.minted (m.minted + 2)) (m.minted + 2) O)) ∧
      (E.map (·.2)).Pairwise (· < ·) := by
  obtain ⟨E, hm', hE, hseq, -⟩ := h.walk.items
  have hitems : m'.tables.items = m.tables.items ++ (copyRoot m r, m.sequence + 1) :: E := by
    rw [hm']
    simp [copyBase]
  refine ⟨E, hitems, ?_, hE, hseq⟩
  have hnew : ∀ e ∈ E, e.1.documentId = Uuid.minted (m.minted + 1) := by
    intro e he
    obtain ⟨c, -, hce⟩ := List.mem_map.mp (hE ▸ List.mem_map_of_mem he)
    rw [← hce]
    rfl
  rw [hitems, List.filter_append, List.filter_eq_nil_iff.mpr fun e he => by
      simpa using h.consistent.documentId_ne_next e he,
    List.nil_append, List.filter_eq_self.mpr fun e he => by
      rcases List.mem_cons.mp he with rfl | he
      exacts [by simp [copyRoot], by simp [hnew e he]]]

theorem children (h : CopyRun catalog m m' src user r O) {x : String}
    (hx : x ∈ (sortedItems m.tables (·.documentId == src.id)).map (·.id)) :
    ItemNode.childrenOf (sortedItems m'.tables (·.documentId == Uuid.minted (m.minted + 1)))
        (copyId r.id (Uuid.minted (m.minted + 2)) (m.minted + 2) O x) =
      (ItemNode.childrenOf (sortedItems m.tables (·.documentId == src.id)) x).map
        (Item.relabel (Uuid.minted (m.minted + 1))
          (copyId r.id (Uuid.minted (m.minted + 2)) (m.minted + 2) O)) := by
  obtain ⟨p, hpL, rfl⟩ := List.mem_map.mp hx
  have hp : p ∈ r :: O := h.complete p hpL
  obtain ⟨E, -, hfil, hE, hseq⟩ := h.entries
  have hcopies := h.walk.children_copies (minted_ne_after _) hE hp
  generalize copyId r.id (Uuid.minted (m.minted + 2)) (m.minted + 2) O = f at hcopies hE ⊢
  -- the copy's root item has no parent: the children of a copy are among the walk's copies
  have hS : ((m'.tables.items.filter fun e => e.1.documentId == Uuid.minted (m.minted + 1)).filter
      fun e => e.1.isChildOf (f p.id)) = E.filter fun e => e.1.isChildOf (f p.id) := by
    rw [hfil, List.filter_cons_of_neg (by simp [Item.isChildOf, copyRoot])]
  have hsorted : (E.filter fun e => e.1.isChildOf (f p.id)).Pairwise
      fun a b => itemBefore a b = true := by
    have hco : (E.filter fun e => e.1.isChildOf (f p.id)).Pairwise
        fun a b => a.1.childOrder ≤ b.1.childOrder := by
      have hmap : ((E.filter fun e => e.1.isChildOf (f p.id)).map (·.1)).Pairwise
          fun a b => a.childOrder ≤ b.childOrder := by
        rw [hcopies]
        exact List.pairwise_map.mpr ((childrenOf_sorted _ _).imp fun h => by simpa [copyItem] using h)
      have := List.pairwise_map.mp hmap
      exact this
    have hsq := (List.pairwise_map.mp hseq).sublist (List.filter_sublist (p := fun e => e.1.isChildOf (f p.id)))
    refine (hco.and hsq).imp_of_mem fun {a b} ha hb hab => ?_
    have hpa : a.1.parentId = some (f p.id) := by simpa [Item.isChildOf] using (List.mem_filter.mp ha).2
    have hpb : b.1.parentId = some (f p.id) := by simpa [Item.isChildOf] using (List.mem_filter.mp hb).2
    exact itemBefore_of_siblings hpa hpb hab.1 (Nat.le_of_lt hab.2)
  have hlist := @filter_sortedItems m'.tables (·.documentId == Uuid.minted (m.minted + 1)) (f p.id)
    (by rw [hS]; exact hsorted)
  rw [hS, hcopies] at hlist
  conv_lhs => rw [ItemNode.childrenOf]
  rw [hlist, List.mergeSort_of_pairwise]
  · exact List.map_congr_left fun c hc' => copyItem_eq_relabel
      (h.plain c (mem_sortedItems.mp (mem_childrenOf hc')).1).1
  · exact List.pairwise_map.mpr ((childrenOf_sorted _ _).imp fun h => decide_eq_true h)

theorem listing_perm (h : CopyRun catalog m m' src user r O) :
    (sortedItems m'.tables (·.documentId == Uuid.minted (m.minted + 1))).Perm
      (copyRoot m r :: O.map (copyItem (Uuid.minted (m.minted + 1))
        (copyId r.id (Uuid.minted (m.minted + 2)) (m.minted + 2) O))) := by
  obtain ⟨E, -, hfil, hE, -⟩ := h.entries
  have hperm := sortedItems_perm m'.tables (·.documentId == Uuid.minted (m.minted + 1))
  rwa [hfil, List.map_cons, hE] at hperm

theorem listing_nodup (h : CopyRun catalog m m' src user r O) :
    ((sortedItems m'.tables (·.documentId == Uuid.minted (m.minted + 1))).map (·.id)).Nodup := by
  refine (h.listing_perm.map _).nodup_iff.mpr ?_
  have hids : (copyRoot m r :: O.map (copyItem (Uuid.minted (m.minted + 1))
      (copyId r.id (Uuid.minted (m.minted + 2)) (m.minted + 2) O))).map (·.id) =
      ((r :: O).map (·.id)).map (copyId r.id (Uuid.minted (m.minted + 2)) (m.minted + 2) O) := by
    rw [List.map_cons, List.map_cons, List.map_cons, List.map_map, List.map_map, copyId_root]
    rfl
  rw [hids]
  exact List.Nodup.map_on (fun x hx y hy => copyId_injective (minted_ne_after _) hx hy) h.walk.nodup

theorem listing_ids (h : CopyRun catalog m m' src user r O) :
    ∀ i ∈ sortedItems m'.tables (·.documentId == Uuid.minted (m.minted + 1)),
      ∃ j, i.id = Uuid.minted (m.minted + 2 + j) := by
  intro i hi
  rcases List.mem_cons.mp (h.listing_perm.mem_iff.mp hi) with rfl | hi
  · exact ⟨0, rfl⟩
  · obtain ⟨c, -, rfl⟩ := List.mem_map.mp hi
    exact copyId_minted _ _ _ _

theorem relabel (h : CopyRun catalog m m' src user r O) :
    ItemNode.Relabel (sortedItems m.tables (·.documentId == src.id))
      (sortedItems m'.tables (·.documentId == Uuid.minted (m.minted + 1)))
      (copyId r.id (Uuid.minted (m.minted + 2)) (m.minted + 2) O)
      (Item.relabel (Uuid.minted (m.minted + 1))
        (copyId r.id (Uuid.minted (m.minted + 2)) (m.minted + 2) O)) := by
  -- the source ids are those of the root and of `O`, where the renaming is one to one
  have hdom : ∀ x ∈ (sortedItems m.tables (·.documentId == src.id)).map (·.id),
      x ∈ r.id :: O.map (·.id) := by
    intro x hx
    obtain ⟨c, hc, rfl⟩ := List.mem_map.mp hx
    have hmem := List.mem_map_of_mem (f := Item.id) (h.complete c hc)
    rwa [List.map_cons] at hmem
  refine ⟨h.ids_nodup, fun x hx y hy => copyId_injective (minted_ne_after _) (hdom x hx) (hdom y hy),
    fun _ _ => rfl, fun x hx => h.children hx, fun c hc hp => ?_, ?_⟩
  · -- an item with a parent is not the root, so the walk copied it
    have hcO : c ∈ O := (List.mem_cons.mp (h.complete c hc)).resolve_left fun hcr => by
      rw [hcr, h.root_parent] at hp
      cases hp
    have hmem := h.listing_perm.mem_iff.mpr (List.mem_cons_of_mem _ (List.mem_map_of_mem hcO))
    rw [copyItem_eq_relabel (h.plain c (mem_sortedItems.mp hc).1).1] at hmem
    exact ItemNode.lastWithId_of_mem h.listing_nodup hmem
  · -- the copies and the root's copy are as many as the source items
    have hlen := h.listing_perm.length_eq
    have hle := h.walk.length_le h.root_mem
    have hge := (List.Nodup.of_map _ h.ids_nodup).length_le_of_subset h.complete
    simp only [List.length_cons, List.length_map] at hlen hge
    omega

theorem build (h : CopyRun catalog m m' src user r O) :
    ItemNode.build (sortedItems m'.tables (·.documentId == Uuid.minted (m.minted + 1)))
        (Uuid.minted (m.minted + 2)) =
      (ItemNode.build (sortedItems m.tables (·.documentId == src.id)) r.id).map fun t =>
        ItemNode.mk (copyRoot m r) (t.children.map (ItemNode.map (Item.relabel
          (Uuid.minted (m.minted + 1)) (copyId r.id (Uuid.minted (m.minted + 2)) (m.minted + 2) O)))) := by
  have hlast : ItemNode.lastWithId (sortedItems m'.tables (·.documentId == Uuid.minted (m.minted + 1)))
      (copyId r.id (Uuid.minted (m.minted + 2)) (m.minted + 2) O r.id) = some (copyRoot m r) := by
    rw [copyId_root]
    exact ItemNode.lastWithId_of_mem h.listing_nodup (h.listing_perm.mem_iff.mpr List.mem_cons_self)
  have hb := ItemNode.build_map h.relabel h.root_mem hlast
  rwa [copyId_root] at hb

theorem tree_erased (h : CopyRun catalog m m' src user r O) :
    ∃ T, ItemNode.build (sortedItems m.tables (·.documentId == src.id)) r.id = some T ∧
      (ItemNode.build (sortedItems m'.tables (·.documentId == Uuid.minted (m.minted + 1)))
        (Uuid.minted (m.minted + 2))).map (ItemNode.map Item.erase) =
        some ((T.map Item.erase).retitle (effectiveTitle T.item.itemText)) := by
  obtain ⟨cs, hT⟩ := ItemNode.build_of_mem h.ids_nodup h.root_mem
  refine ⟨_, hT, ?_⟩
  obtain ⟨hcol, hord⟩ := h.plain r (mem_sortedItems.mp h.root_mem).1
  rw [h.build, hT]
  simp only [Option.map_some, ItemNode.map_mk, ItemNode.children, ItemNode.item, ItemNode.retitle,
    List.map_map]
  congr 2
  · simp [Item.erase, copyRoot, hcol, hord h.root_parent]
  · refine List.map_congr_left fun t _ => ?_
    rw [Function.comp_apply, ItemNode.map_map]
    exact congrArg (ItemNode.map · t) (funext fun c => erase_relabel _ _ c)

end CopyRun

/-- What a copy `D'` of the document `src`, made for `user`, leaves in store `m'` after `m`. -/
structure FaithfulCopy (user : String) (m m' : Memory) (src D' : Document) : Prop where
  fresh : D'.id ∉ m.tables.documents.map (·.id)
  owner : D'.userId = user
  unshared : D'.publiclyViewable = false
  no_toc : D'.tocItemId = none
  documents : m'.tables.documents = m.tables.documents ++ [D']
  unstyled : ∀ s ∈ m'.tables.styles, ∀ i ∈ sortedItems m'.tables (·.documentId == D'.id),
    i.id ≠ s.itemId
  uncategorized : ∀ c ∈ m'.tables.categories, c.documentId ≠ D'.id
  tree : ∃ T, ItemNode.build (sortedItems m.tables (·.documentId == src.id)) src.rootId = some T ∧
    (ItemNode.build (sortedItems m'.tables (·.documentId == D'.id)) D'.rootId).map
      (ItemNode.map Item.erase) = some ((T.map Item.erase).retitle (effectiveTitle T.item.itemText))
  length : (sortedItems m'.tables (·.documentId == D'.id)).length =
    (sortedItems m.tables (·.documentId == src.id)).length
  source : sortedItems m'.tables (·.documentId == src.id) = sortedItems m.tables (·.documentId == src.id)
  styles : m'.tables.styles = m.tables.styles
  categories : m'.tables.categories = m.tables.categories

theorem CopyRun.faithful {catalog : Catalog} {m m' : Memory} {src : Document} {user : String}
    {r : Item} {O : List Item} (h : CopyRun catalog m m' src user r O) :
    FaithfulCopy user m m' src (copyDocument m user) := by
  obtain ⟨E, hm', -⟩ := h.walk.items
  have hstyles : m'.tables.styles = m.tables.styles := by rw [hm']; rfl
  have hcategories : m'.tables.categories = m.tables.categories := by rw [hm']; rfl
  obtain ⟨T, hT, htree⟩ := h.tree_erased
  refine ⟨fun hmem => ?_, rfl, rfl, rfl, by rw [hm']; rfl, ?_, ?_,
    ⟨T, by rw [Document.rootId, h.root_id, Option.getD_some]; exact hT, htree⟩, h.relabel.length,
    ?_, hstyles, hcategories⟩
  · obtain ⟨d, hd, hid⟩ := List.mem_map.mp hmem
    exact h.consistent.fresh.document_ne_next hd hid
  · -- a style sits on an item of the store before, whose id the copy did not mint
    intro s hs i hi hid
    obtain ⟨⟨j, hj, hjs⟩, -⟩ := h.consistent.invariant.styles_valid s (hstyles ▸ hs)
    obtain ⟨x, hx⟩ := h.listing_ids i hi
    refine (h.consistent.fresh.mono (show m.minted ≤ m.minted + 1 + x by omega)).item_ne_next hj ?_
    rw [hjs, ← hid, hx]
    congr 1
    omega
  · intro c hc hcd
    obtain ⟨d, hd, hdc⟩ := h.consistent.invariant.categories_placed c (hcategories ▸ hc)
    exact h.consistent.fresh.document_ne_next hd (hdc.trans hcd)
  · -- the copy's entries belong to the copy, not to the source
    obtain ⟨E, hitems, hfil, -⟩ := h.entries
    have hsrc : src.id ≠ Uuid.minted (m.minted + 1) := h.consistent.fresh.document_ne_next h.source
    have hnew : ∀ e ∈ (copyRoot m r, m.sequence + 1) :: E,
        e.1.documentId = Uuid.minted (m.minted + 1) := by
      intro e he
      rw [← hfil] at he
      simpa using (List.mem_filter.mp he).2
    have hout : (((copyRoot m r, m.sequence + 1) :: E).filter fun e => e.1.documentId == src.id) = [] :=
      List.filter_eq_nil_iff.mpr fun e he => by simp [hnew e he, Ne.symm hsrc]
    unfold sortedItems
    rw [hitems, List.filter_append, hout, List.append_nil]

end Outliner.Memory

namespace Outliner

/-- Copying a document a user may view, from any reachable store, gives the user a new private
document with nothing on it whose tree is the source's tree, ids erased and the root retitled,
and leaves the source, the styles and the categories as they were. -/
theorem copy_reproduces_tree {catalog : Catalog} {limits : Limits} {m m' : Memory}
    (hm : Reachable catalog limits m) {user docId : String} {D' : Document}
    (h : Memory.exec (Documents.copy Memory.repository user docId) m = (.ok D', m')) :
    ∃ src, Memory.document? m.tables docId = some src ∧ Memory.FaithfulCopy user m m' src D' := by
  obtain ⟨src, hsrc, hrep⟩ := Memory.copy_ok h
  obtain ⟨r, O, rfl, hrun⟩ := Memory.replicate_ok hm.consistent hm.allPlain hm.outside
    (document?_eq_some hsrc).1 hrep
  exact ⟨src, hsrc, hrun.faithful⟩

/-- Its owner copies the first document: the copy is the next document, and a faithful one. -/
theorem first_copy_faithful :
    Memory.exec (Documents.copy Memory.repository "alice" (Uuid.minted 1)) firstStore =
        (.ok ⟨Uuid.minted 3, "alice", some (Uuid.minted 4), none, false, secondsClock 2, some (secondsClock 2)⟩,
          (Memory.exec (Documents.copy Memory.repository "alice" (Uuid.minted 1)) firstStore).2) ∧
      ∃ src, Memory.document? firstStore.tables (Uuid.minted 1) = some src ∧
        Memory.FaithfulCopy "alice" firstStore
          (Memory.exec (Documents.copy Memory.repository "alice" (Uuid.minted 1)) firstStore).2 src
          ⟨Uuid.minted 3, "alice", some (Uuid.minted 4), none, false, secondsClock 2, some (secondsClock 2)⟩ := by
  have hm : Reachable Catalog.standard Limits.standard firstStore := .step _ (.empty 0 secondsClock)
  have hrun : (Memory.exec (Documents.copy Memory.repository "alice" (Uuid.minted 1)) firstStore).1 =
      .ok ⟨Uuid.minted 3, "alice", some (Uuid.minted 4), none, false, secondsClock 2, some (secondsClock 2)⟩ := by
    decide +kernel
  exact ⟨Prod.ext hrun rfl, copy_reproduces_tree hm (Prod.ext hrun rfl)⟩

end Outliner
