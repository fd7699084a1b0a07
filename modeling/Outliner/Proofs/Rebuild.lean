import Outliner.Proofs.Integrity
import Outliner.Proofs.StackWalk

/-!
# Reconciling rebuilds the document from the snapshot

Writing a plan clears everything under the document's root item, which in a consistent store
is the whole document but the root, and creates one item per planned node, in plan order, under
the root item or under the item just created for its parent, with ids minted after every id the
store held (`write_items`). As the planner's walk is the reference walk, a reconciliation that
succeeds on a reachable store leaves the document with exactly its root item and one new item
for each placement of the reference walk, each under the item of its parent
(`reconcile_builds_snapshot_tree`).
-/

set_option autoImplicit false

namespace Outliner

/-- The items of a document, in the order of the store. -/
def Tables.itemsOf (t : Tables) (doc : String) : List Item := t.rows.filter (·.documentId == doc)

/-- The item written for a planned node as `x`: under the root item `root`, or under the item
written for its parent among `persisted`. -/
def PlannedNode.item (docId root : String) (persisted : List String) (n : PlannedNode) (x : String) :
    Item :=
  ⟨x, docId, some (n.parent.elim root fun k => persisted.getD k ""), n.text, n.order, false⟩

/-- The item written for a placement, with `ids` giving the new id of each client id and `root`
the document's root item. -/
def Placement.item (docId root : String) (ids : String → String) (p : Placement) : Item :=
  ⟨ids p.clientId, docId, some (p.parent.elim root ids), p.node.itemText.getD "", p.node.childOrder,
    false⟩

namespace Tables

theorem itemsOf_of_rows {t t' : Tables} (h : t'.rows = t.rows) (doc : String) :
    t'.itemsOf doc = t.itemsOf doc := by
  unfold itemsOf
  rw [h]

theorem itemsOf_deleteChildren {catalog : Catalog} {n : Nat} {t : Tables} (h : StoreInvariant catalog t)
    (hf : Fresh n t) {d : Document} (hd : d ∈ t.documents) {R : String} (hR : d.rootItemId = some R) :
    ((Memory.deleteSubtrees ((t.items.filter fun e => e.1.isChildOf R).map (·.1.id)) t).itemsOf d.id).map
      (·.id) = [R] := by
  let roots := (t.items.filter fun e => e.1.isChildOf R).map (·.1.id)
  obtain ⟨r, hr, hroot⟩ := h.rooted d hd
  rw [hR, Option.some.injEq] at hr
  subst hr
  rw [← hroot]
  unfold itemsOf
  rw [rows_deleteSubtrees, List.filter_filter]
  congr 1
  refine List.filter_congr fun i hi => ?_
  by_cases hdoc : i.documentId = d.id
  swap
  · have hne : (i.documentId == d.id) = false := by simpa using hdoc
    simp [hne]
  simp only [hdoc, beq_self_eq_true, Bool.true_and]
  -- in the document, the item stays exactly when it is the parentless root
  have hchild : ∀ c ∈ t.rows, c.parentId = some R → c.id ∈ roots := fun c hc hcp => by
    obtain ⟨e, he, rfl⟩ := List.mem_map.mp hc
    exact List.mem_map_of_mem (List.mem_filter.mpr ⟨he, by simp [Item.isChildOf, hcp]⟩)
  obtain ⟨e, he, heid, r', hr', hdesc⟩ := h.grounded i hi
  obtain rfl : e = d := hf.document_eq he hd (heid.trans hdoc)
  rw [hR, Option.some.injEq] at hr'
  subst hr'
  cases hp : i.parentId with
  | none =>
    have hx : ∀ j ∈ t.rows, j.id = i.id → j.parentId = none := fun j hj hji => by
      rw [hf.item_eq hj hi hji, hp]
    have hnotroot : i.id ∉ roots := fun hmem => by
      obtain ⟨e, he, heq⟩ := List.mem_map.mp hmem
      obtain ⟨he, hpar⟩ := List.mem_filter.mp he
      have : e.1 = i := hf.item_eq (List.mem_map_of_mem he) hi heq
      simp [Item.isChildOf, this, hp] at hpar
    simpa using not_mem_deletedIds_of_parentless hx hnotroot
  | some q =>
    rcases hdesc.eq_or_child with hir | ⟨c, hc, hcp, hdc⟩
    · have := (h.root_parentless hf hd hR i hi hir).1
      simp [hp] at this
    · have hgone : i.id ∈ deletedIds roots t := mem_deletedIds.mpr ⟨c.id, hchild c hc hcp, hdc⟩
      simpa using hgone

end Tables

namespace Memory

variable {α : Type} {catalog : Catalog} {m₀ : Memory}

theorem Triple.exists_pre {ι : Type} {P : ι → Memory → Prop} {x : MemoryM α} {Q : α → Memory → Prop}
    (h : ∀ i, Triple (P i) x Q) : Triple (fun m => ∃ i, P i m) x Q := by
  rintro m a m' ⟨i, hi⟩ hx
  exact h i m a m' hi hx

theorem frame_updateDocument {F : Memory → Prop} (hF : OnRows F) (id : String)
    (f : Document → Except Failure Document) : Triple F (updateDocument id f) (fun _ => F) := by
  intro m a m' hm h
  rcases updateDocument_cases id f m with ⟨e, he⟩ | ⟨_, _, -, -, he⟩ <;> rw [he] at h
  · cases h
  · obtain ⟨-, rfl⟩ := Prod.mk.inj h
    exact hF m _ rfl hm

theorem onRows_itemsOf (doc : String) (X : List Item) : OnRows fun m => m.tables.itemsOf doc = X :=
  fun _ _ hr h => (Tables.itemsOf_of_rows hr doc).trans h

theorem items_deleteChildren {d : Document} {R : String} (hd : d ∈ m₀.tables.documents)
    (hR : d.rootItemId = some R) :
    Triple (fun m => Kept catalog m₀ m ∧ m.tables = m₀.tables) (deleteChildren R)
      (fun _ m => Kept catalog m₀ m ∧ ∃ r, r.id = R ∧ m.tables.itemsOf d.id = [r]) := by
  rintro m a m' ⟨hk, ht⟩ h
  refine ⟨kept_deleteChildren R m a m' hk h, ?_⟩
  rw [exec_deleteChildren] at h
  obtain ⟨-, rfl⟩ := Prod.mk.inj h
  dsimp only
  rw [ht]
  obtain ⟨r, hr, hrid⟩ := List.map_eq_singleton_iff.mp
    (Tables.itemsOf_deleteChildren hk.start.invariant hk.start.fresh hd hR)
  exact ⟨r, hrid, hr⟩

theorem items_updateText {doc R text : String} (htext : text.length ≤ maxItemTextLength) :
    Triple (fun m => Kept catalog m₀ m ∧ ∃ r, r.id = R ∧ m.tables.itemsOf doc = [r])
      (updateText doc R text) (fun _ m => Kept catalog m₀ m ∧ ∃ r, r.id = R ∧ m.tables.itemsOf doc = [r]) := by
  rintro m a m' ⟨hk, r, hr, hitems⟩ h
  refine ⟨kept_updateText htext doc R m a m' hk h, ?_⟩
  rcases updateText_cases doc R text m with ⟨e, he⟩ | ⟨i, -, -, he⟩ <;> rw [he] at h
  · cases h
  obtain ⟨-, rfl⟩ := Prod.mk.inj h
  refine ⟨r.withText R text, by simp [hr], ?_⟩
  have hmap : ((m.tables.rows.map (Item.withText R text)).filter (·.documentId == doc)) =
      (m.tables.rows.filter (·.documentId == doc)).map (Item.withText R text) := by
    rw [List.filter_map]
    congr 1
    exact List.filter_congr fun i _ => by simp
  unfold Tables.itemsOf at hitems ⊢
  rw [rows_setText, hmap, hitems, List.map_singleton]

theorem createNodes_cons (docId : String) (p : Plan) (n : PlannedNode) (ns : List PlannedNode)
    (acc : List String) :
    Plan.createNodes repository docId p (n :: ns) acc = (do
      let item ← Failure.during ("create item for " ++ n.clientId) (repository.createItem
        ⟨"", docId, some (n.parent.elim p.rootItemId fun k => acc.getD k ""), n.text, n.order, false⟩)
      if !n.styles.isEmpty then
        let _ ← Failure.during ("styles for " ++ n.clientId) (StyleWrite.apply repository item.id n.styles [])
      Plan.createNodes repository docId p ns (acc ++ [item.id])) := by
  rw [Plan.createNodes]
  cases n.parent <;> rfl

theorem items_createNodes (docId : String) (p : Plan) (nodes : List PlannedNode) :
    ∀ (acc : List String) (X : List Item), (∀ n ∈ nodes, Plan.Writable catalog n.text n.styles) →
      (∀ (i : Nat) (h : i < nodes.length) (k : Nat), nodes[i].parent = some k → k < acc.length + i) →
      Triple (fun m => Kept catalog m₀ m ∧ m.tables.itemsOf docId = X)
        (Plan.createNodes repository docId p nodes acc)
        (fun out m => Kept catalog m₀ m ∧ ∃ new, out = acc ++ new ∧ new.length = nodes.length ∧
          (∀ x ∈ new, ¬ MintedBy m₀.minted x) ∧
          m.tables.itemsOf docId = X ++ (nodes.zip new).map fun q => q.1.item docId p.rootItemId out q.2) := by
  induction nodes with
  | nil =>
    intro acc X _ _
    exact Triple.pure_of acc fun m h => ⟨h.1, [], by simp, rfl, by simp, by simp [h.2]⟩
  | cons n ns ih =>
    intro acc X hw hpar
    obtain ⟨htext, hstyles⟩ := hw n (List.mem_cons_self ..)
    have hns : ∀ n ∈ ns, Plan.Writable catalog n.text n.styles := fun n' h => hw n' (List.mem_cons_of_mem _ h)
    have hpar₀ : ∀ k, n.parent = some k → k < acc.length := fun k hk => by
      simpa using hpar 0 (by simp) k hk
    have hpar' : ∀ x : String, ∀ (i : Nat) (h : i < ns.length) (k : Nat), ns[i].parent = some k →
        k < (acc ++ [x]).length + i := fun x i h k hk => by
      have := hpar (i + 1) (by simpa using h) k hk
      simp only [List.length_append, List.length_singleton]
      omega
    rw [createNodes_cons]
    dsimp only
    -- the created item joins the document after the items it had
    have hcreate : ∀ parentId : String, Triple (fun m => Kept catalog m₀ m ∧ m.tables.itemsOf docId = X)
        (createItem ⟨"", docId, some parentId, n.text, n.order, false⟩)
        (fun item m => Kept catalog m₀ m ∧ ¬ MintedBy m₀.minted item.id ∧
          m.tables.itemsOf docId = X ++ [⟨item.id, docId, some parentId, n.text, n.order, false⟩]) := by
      rintro parentId m item m' ⟨hk, hX⟩ h
      obtain ⟨hk', -, -⟩ := kept_createItem _ rfl htext m item m' hk h
      obtain ⟨rfl, rfl, -, -⟩ := createItem_ok h
      refine ⟨hk', fun hmint => not_mintedBy_next m.minted (hmint.mono hk.evolves.1), ?_⟩
      unfold Tables.itemsOf at hX ⊢
      simp [List.filter_append, hX]
    refine ((hcreate _).during _).bind fun item => Triple.of_pre (fun _ h => h.2.1) fun hfresh => ?_
    have hrest := ih (acc ++ [item.id]) (X ++ [⟨item.id, docId, some (n.parent.elim p.rootItemId fun k => acc.getD k ""), n.text,
      n.order, false⟩]) hns (hpar' item.id)
    have hpost : ∀ out m, (Kept catalog m₀ m ∧ ∃ new, out = acc ++ [item.id] ++ new ∧ new.length = ns.length ∧
        (∀ x ∈ new, ¬ MintedBy m₀.minted x) ∧
        m.tables.itemsOf docId = X ++ [⟨item.id, docId, some (n.parent.elim p.rootItemId fun k => acc.getD k ""), n.text, n.order,
          false⟩] ++
          (ns.zip new).map fun q => q.1.item docId p.rootItemId out q.2) →
        Kept catalog m₀ m ∧ ∃ new, out = acc ++ new ∧ new.length = ns.length + 1 ∧
          (∀ x ∈ new, ¬ MintedBy m₀.minted x) ∧
          m.tables.itemsOf docId = X ++ ((n :: ns).zip new).map fun q => q.1.item docId p.rootItemId out q.2 := by
      rintro out m ⟨hk, new, rfl, hlen, hnew, hitems⟩
      refine ⟨hk, item.id :: new, by simp, by simp [hlen], ?_, ?_⟩
      · intro x hx
        rcases List.mem_cons.mp hx with rfl | hx
        · exact hfresh
        · exact hnew x hx
      · -- the parent's id was created before, so it reads the same among all the ids
        have hrow : (⟨item.id, docId, some (n.parent.elim p.rootItemId fun k => acc.getD k ""), n.text, n.order, false⟩ : Item) =
            n.item docId p.rootItemId (acc ++ [item.id] ++ new) item.id := by
          cases hq : n.parent with
          | none => simp [PlannedNode.item, hq]
          | some k =>
            have hk' := hpar₀ k hq
            simp [PlannedNode.item, hq, List.getD_eq_getElem?_getD, List.getElem?_append_left hk']
        rw [hitems, List.zip_cons_cons, List.map_cons, ← hrow]
        simp
    refine Triple.mono ?_ (fun _ h => And.intro h.1 h.2.2) fun _ _ h => h
    refine Triple.ite ?_ (hrest.mono (fun _ h => h) hpost)
    exact ((kept_applyStyles (onRows_itemsOf docId _) item.id n.styles [] hstyles).during _).bind
      fun _ => hrest.mono (fun _ h => h) hpost

theorem items_write {limits : Limits} {d : Document} {s : Snapshot} {p : Plan} {R : String}
    (hp : Plan.make catalog limits d s = .ok p) (hd : d ∈ m₀.tables.documents)
    (hR : d.rootItemId = some R)
    (hparents : ∀ (i : Nat) (h : i < p.nodes.length) (k : Nat), p.nodes[i].parent = some k → k < i) :
    Triple (fun m => Kept catalog m₀ m ∧ m.tables = m₀.tables) (p.write repository d)
      (fun res m => ∃ removed persisted, res = p.result removed persisted ∧
        persisted.length = p.nodes.length ∧ (∀ x ∈ persisted, ¬ MintedBy m₀.minted x) ∧
        ∃ r, r.id = R ∧ m.tables.itemsOf d.id =
          r :: (p.nodes.zip persisted).map fun q => q.1.item d.id R persisted q.2) := by
  obtain ⟨-, hrootText, hrootStyles, hnodes⟩ := Plan.make_writable hp
  have hR' : p.rootItemId = R := Plan.make_rootItemId hp hR
  subst hR'
  have hparents' : ∀ (i : Nat) (h : i < p.nodes.length) (k : Nat), p.nodes[i].parent = some k →
      k < ([] : List String).length + i := fun i h k hk => by simpa using hparents i h k hk
  -- from the clearing until the nodes are created the root item is alone in the document, and
  -- the last two steps change only documents
  have hF : OnRows fun m => ∃ r, r.id = p.rootItemId ∧ m.tables.itemsOf d.id = [r] :=
    fun _ _ hrows h => by
      obtain ⟨r, hr, h⟩ := h
      exact ⟨r, hr, (Tables.itemsOf_of_rows hrows _).trans h⟩
  have hN : ∀ ids : List String, OnRows fun m => ids.length = p.nodes.length ∧
      (∀ y ∈ ids, ¬ MintedBy m₀.minted y) ∧ ∃ r, r.id = p.rootItemId ∧ m.tables.itemsOf d.id =
        r :: (p.nodes.zip ids).map fun q => q.1.item d.id p.rootItemId ids q.2 :=
    fun _ _ _ hrows h => by
      obtain ⟨hlen, hfresh, r, hr, h⟩ := h
      exact ⟨hlen, hfresh, r, hr, (Tables.itemsOf_of_rows hrows _).trans h⟩
  refine Triple.write_of (fun m h => ⟨h.1.inTransaction true, h.2⟩) (fun _ _ h => h)
    (items_deleteChildren hd hR) (fun t ht => items_updateText (hrootText t ht))
    (fun _ => kept_upsertStyles hF _ hrootStyles) (fun _ _ h => h) ?_
    (fun ids => frame_updateDocument (hN ids) _ _) (fun _ _ h => h)
    (fun ids _ => frame_updateDocument (hN ids) _ _) fun removed ids _ h => ⟨removed, ids, rfl, h⟩
  have hpre : ∀ m, (Kept catalog m₀ m ∧ ∃ r, r.id = p.rootItemId ∧ m.tables.itemsOf d.id = [r]) →
      ∃ r : Item, r.id = p.rootItemId ∧ Kept catalog m₀ m ∧ m.tables.itemsOf d.id = [r] :=
    fun _ h => by
      obtain ⟨hk, r, hr, h⟩ := h
      exact ⟨r, hr, hk, h⟩
  refine (Triple.exists_pre fun r => ?_).mono hpre fun _ _ h => h
  refine Triple.of_pre (fun _ h => h.1) fun hr => Triple.mono ?_ (fun _ h => h.2) fun _ _ h => h
  refine (@items_createNodes catalog m₀ d.id p p.nodes [] [r] hnodes hparents').mono
    (fun _ h => h) fun ids m h => ?_
  obtain ⟨-, new, hnew, hlen, hfresh, hitems⟩ := h
  rw [List.nil_append] at hnew
  subst hnew
  exact ⟨hlen, hfresh, r, hr, hitems⟩

theorem getDocument_found {id : String} {m : Memory} {d : Document}
    (h : exec (getDocument id) m = (.ok d, m)) : document? m.tables id = some d := by
  rw [exec_getDocument] at h
  cases hd : document? m.tables id with
  | none => simp [hd] at h
  | some d' =>
    simp only [hd, Prod.mk.injEq, Except.ok.injEq, and_true] at h
    rw [h]

theorem triple_canEdit_found (P : Memory → Prop) (user docId : String) :
    Triple P (Access.canEdit repository user docId)
      (fun d m => P m ∧ document? m.tables docId = some d) := by
  unfold Access.canEdit Access.load
  refine Triple.ite (Triple.raise _ _ _) (Triple.bind (((readsOnly_getDocument docId).triple_with
    fun m d h => getDocument_found h).during _) fun d => ?_)
  exact Triple.ite (Triple.pure_of d fun _ h => h) (Triple.raise _ _ _)

theorem reconcile_write {limits : Limits} {m m' : Memory} {user docId : String} {s : Snapshot}
    {res : ReconcileResult}
    (h : exec (Documents.reconcile repository catalog limits user docId (some s)) m = (.ok res, m')) :
    ∃ d p, document? m.tables docId = some d ∧ Plan.make catalog limits d s = .ok p ∧
      exec (p.write repository d) m = (.ok res, m') := by
  unfold Documents.reconcile at h
  obtain ⟨d, m₁, hd, hrest⟩ := exec_bind_eq_ok.mp h
  have hm₁ : m₁ = m := by simpa [hd] using readsOnly_canEdit user docId m
  subst hm₁
  have hfound := (triple_canEdit_found (fun _ => True) user docId m₁ d m₁ trivial hd).2
  cases hp : Plan.make catalog limits d s with
  | error f => simp [hp] at hrest
  | ok p =>
    simp only [hp] at hrest
    exact ⟨d, p, hfound, hp, hrest⟩

end Memory

/-! ## From placements to items -/

namespace Placement

variable {P : List Placement} (hnodup : (P.map (·.clientId)).Nodup) {persisted : List String}
  (hlen : persisted.length = P.length)
include hnodup hlen

theorem assigned_ids :
    P.map (fun p => persisted.getD ((P.map (·.clientId)).idxOf p.clientId) "") = persisted := by
  refine List.ext_getElem (by simp [hlen]) fun i h₁ h₂ => ?_
  have hi : i < (P.map (·.clientId)).length := by simpa using h₁
  have hidx : (P.map (·.clientId)).idxOf P[i].clientId = i := by
    simpa using hnodup.idxOf_getElem i hi
  simp [hidx, List.getD_eq_getElem?_getD, h₂]

theorem planned_items (docId root : String) :
    ((P.map (Placement.planned (P.map (·.clientId)))).zip persisted).map
        (fun q => q.1.item docId root persisted q.2) =
      P.map (Placement.item docId root fun c => persisted.getD ((P.map (·.clientId)).idxOf c) "") := by
  refine List.ext_getElem (by simp [hlen]) fun i h₁ h₂ => ?_
  have hi : i < (P.map (·.clientId)).length := by simpa using h₂
  have hi' : i < P.length := by simpa using h₂
  have hidx : (P.map (·.clientId)).idxOf P[i].clientId = i := by
    simpa using hnodup.idxOf_getElem i hi
  have hp : i < persisted.length := by simpa [hlen] using h₂
  cases hq : P[i].parent <;>
    simp [PlannedNode.item, Placement.item, Placement.planned, hq, hidx, List.getD_eq_getElem?_getD, hp]

end Placement

namespace Memory

variable {catalog : Catalog}

theorem reconcile_outcome {limits : Limits} {m m' : Memory} {d : Document} {R user : String}
    {s : Snapshot} {res : ReconcileResult} {v : Visit} (hc : Consistent catalog m)
    (hd : d ∈ m.tables.documents) (hR : d.rootItemId = some R)
    (h : exec (Documents.reconcile repository catalog limits user d.id (some s)) m = (.ok res, m'))
    (hv : s.Walked v) :
    ∃ (p : Plan) (removed : Nat) (ids : String → String), v.WellFormed ∧ s.reason? s.rootItem = none ∧
      p.rootClientId = s.rootItem ∧ p.rootItemId = R ∧
      p.nodes = v.placed.map (Placement.planned v.ids) ∧
      p.unresolved = v.visited.filterMap (fun c => (s.reason? c).map (c, ·)) ++
        (s.items.filter fun e => !v.visited.contains e.1).map (fun e => (e.1, Unresolved.unreachable)) ∧
      res = p.result removed (v.placed.map fun a => ids a.clientId) ∧
      (v.placed.map fun a => ids a.clientId).Nodup ∧
      (∀ a ∈ v.placed, ids a.clientId ∉ m.tables.rows.map (·.id)) ∧
      ∃ r, r.id = R ∧ m'.tables.itemsOf d.id = r :: v.placed.map (Placement.item d.id R ids) := by
  obtain ⟨d', p, hfound, hp, hw⟩ := reconcile_write h
  -- the document found is the one named: ids are not shared
  obtain ⟨hd', hid⟩ := document?_eq_some hfound
  obtain rfl : d = d' := (hc.fresh.document_eq hd' hd hid).symm
  obtain ⟨v', hv', hwf, hreason, hrootClient, -, hnodes, hunresolved⟩ := Plan.make_placements hp
  obtain rfl := hv.deterministic hv'
  have hR' : p.rootItemId = R := Plan.make_rootItemId hp hR
  have hparents := hwf.planned_parent_lt
  rw [← hnodes] at hparents
  obtain ⟨removed, persisted, hres, hlen, hfresh, r, hr, hitems⟩ :=
    @items_write catalog m limits d s p R hp hd hR hparents m res m' ⟨Kept.refl hc, rfl⟩ hw
  have hkept : Kept catalog m m' := kept_write hp hd m res m' (Kept.refl hc) hw
  have hlen' : persisted.length = v.placed.length := by rw [hlen, hnodes, List.length_map]
  have hids : (r :: (p.nodes.zip persisted).map fun q => q.1.item d.id R persisted q.2).map (·.id) =
      R :: persisted := by
    rw [List.map_cons, List.map_map, hr]
    congr 1
    have hfun : ((·.id) ∘ fun q : PlannedNode × String => q.1.item d.id R persisted q.2) = Prod.snd := rfl
    rw [hfun, List.map_snd_zip (by omega)]
  have hnodup : (R :: persisted).Nodup := by
    rw [← hids, ← hitems]
    exact (List.filter_sublist.map _).nodup hkept.now.fresh.items_nodup
  obtain ⟨ids, hids⟩ : ∃ ids : String → String, ids = fun c => persisted.getD (v.ids.idxOf c) "" := ⟨_, rfl⟩
  have hassigned : v.placed.map (fun a => ids a.clientId) = persisted := by
    rw [hids]
    exact Placement.assigned_ids hwf.ids_nodup hlen'
  refine ⟨p, removed, ids, hwf, hreason, hrootClient, hR', hnodes, hunresolved, ?_, ?_,
    fun a ha hmem => ?_, r, hr, ?_⟩
  · rw [hassigned]
    exact hres
  · rw [hassigned]
    exact (List.nodup_cons.mp hnodup).2
  · have hx : ids a.clientId ∈ persisted := hassigned ▸ List.mem_map_of_mem ha
    obtain ⟨i, hi, hieq⟩ := List.mem_map.mp hmem
    exact hfresh _ hx (hieq ▸ hc.fresh.items_minted i hi)
  · rw [hitems, hnodes, hids]
    exact congrArg (r :: ·) (Placement.planned_items hwf.ids_nodup hlen' d.id R)

end Memory

/-! ## The rebuilt document -/

/-- A reconciliation that succeeds on a reachable store rebuilds the document from the snapshot:
afterwards the document's items are its root item and, for each placement of the reference walk
in its order, one new item under the item of the placement's parent (the root item under the
root), with the node's text and order. The new ids are distinct, and none was an id of the store
before. -/
theorem reconcile_builds_snapshot_tree {catalog : Catalog} {limits₀ limits : Limits} {m m' : Memory}
    {d : Document} {R user : String} {s : Snapshot} {res : ReconcileResult} {v : Visit}
    (hm : Reachable catalog limits₀ m) (hd : d ∈ m.tables.documents) (hR : d.rootItemId = some R)
    (h : Memory.exec (Documents.reconcile Memory.repository catalog limits user d.id (some s)) m =
      (.ok res, m'))
    (hv : s.Walked v) :
    ∃ ids : String → String, (v.placed.map fun p => ids p.clientId).Nodup ∧
      (∀ p ∈ v.placed, ids p.clientId ∉ m.tables.rows.map (·.id)) ∧
      ∃ r, r.id = R ∧ m'.tables.itemsOf d.id = r :: v.placed.map (Placement.item d.id R ids) := by
  obtain ⟨-, -, ids, -, -, -, -, -, -, -, hnodup, hfresh, hitems⟩ :=
    Memory.reconcile_outcome hm.consistent hd hR h hv
  exact ⟨ids, hnodup, hfresh, hitems⟩

/-- The store after a first document is created. -/
def firstStore : Memory :=
  (Memory.exec ((Call.create "alice").run Catalog.standard Limits.standard) (Memory.empty 0 secondsClock)).2

/-- A snapshot of the first document with one child, with a text, under its root item. -/
def oneChildSnapshot : Snapshot :=
  ⟨Uuid.minted 2, none,
    [(Uuid.minted 2, ⟨"", none, 0, ["00000000-0000-4000-8000-0000000000aa"], none, []⟩),
     ("00000000-0000-4000-8000-0000000000aa", ⟨"", none, 0, [], some "hello", []⟩)]⟩

deriving instance DecidableEq for ReconcileResult

/-- Reconciling the first document with one child creates one item under its root item. -/
theorem first_reconcile_builds_tree :
    Reachable Catalog.standard Limits.standard firstStore ∧
      (⟨Uuid.minted 1, "alice", some (Uuid.minted 2), none, false, secondsClock 1, some (secondsClock 1)⟩ : Document) ∈
        firstStore.tables.documents ∧
      Memory.exec (Documents.reconcile Memory.repository Catalog.standard Limits.standard "alice"
          (Uuid.minted 1) (some oneChildSnapshot)) firstStore =
        (.ok ⟨[("00000000-0000-4000-8000-0000000000aa", some (Uuid.minted 3)),
            (Uuid.minted 2, some (Uuid.minted 2))], [], 0, 1, none⟩,
          (Memory.exec (Documents.reconcile Memory.repository Catalog.standard Limits.standard "alice"
            (Uuid.minted 1) (some oneChildSnapshot)) firstStore).2) ∧
      oneChildSnapshot.Walked ⟨[Uuid.minted 2, "00000000-0000-4000-8000-0000000000aa"],
        [⟨"00000000-0000-4000-8000-0000000000aa", none, ⟨"", none, 0, [], some "hello", []⟩⟩]⟩ ∧
      ∃ ids : String → String, [ids "00000000-0000-4000-8000-0000000000aa"].Nodup ∧
        (ids "00000000-0000-4000-8000-0000000000aa" ∉ firstStore.tables.rows.map (·.id)) ∧
        ∃ r, r.id = Uuid.minted 2 ∧
          (Memory.exec (Documents.reconcile Memory.repository Catalog.standard Limits.standard "alice"
            (Uuid.minted 1) (some oneChildSnapshot)) firstStore).2.tables.itemsOf (Uuid.minted 1) =
            [r, ⟨ids "00000000-0000-4000-8000-0000000000aa", Uuid.minted 1, some (Uuid.minted 2), "hello", 0,
              false⟩] := by
  have hm : Reachable Catalog.standard Limits.standard firstStore := .step _ (.empty 0 secondsClock)
  have hd : (⟨Uuid.minted 1, "alice", some (Uuid.minted 2), none, false, secondsClock 1, some (secondsClock 1)⟩ : Document) ∈
      firstStore.tables.documents := by
    rw [show firstStore.tables.documents = [⟨Uuid.minted 1, "alice", some (Uuid.minted 2), none, false, secondsClock 1, some (secondsClock 1)⟩]
      from rfl]
    exact List.mem_singleton_self _
  have hrun : (Memory.exec (Documents.reconcile Memory.repository Catalog.standard Limits.standard "alice"
      (Uuid.minted 1) (some oneChildSnapshot)) firstStore).1 =
      .ok ⟨[("00000000-0000-4000-8000-0000000000aa", some (Uuid.minted 3)),
        (Uuid.minted 2, some (Uuid.minted 2))], [], 0, 1, none⟩ := by
    decide +kernel
  have hv : oneChildSnapshot.Walked ⟨[Uuid.minted 2, "00000000-0000-4000-8000-0000000000aa"],
      [⟨"00000000-0000-4000-8000-0000000000aa", none, ⟨"", none, 0, [], some "hello", []⟩⟩]⟩ :=
    .place (by decide +kernel) rfl (by decide +kernel) .nil .nil
  obtain ⟨ids, hnodup, hfresh, r, hr, hitems⟩ :=
    reconcile_builds_snapshot_tree hm hd rfl (Prod.ext hrun rfl) hv
  exact ⟨hm, hd, Prod.ext hrun rfl, hv, ids, List.nodup_singleton _, by simpa using hfresh, r, hr,
    by simpa [Placement.item] using hitems⟩

end Outliner
