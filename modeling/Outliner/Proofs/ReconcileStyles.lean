import Mathlib
import Outliner.Proofs.StyleRows

/-!
# Styles through a reconciliation

A reconciliation clears the outline under the document's root item, upserts the root node's
edits on the root item and creates one item per planned node with that node's edits. Tracked
step by step through the plan's write (`StylesSoFar`), this leaves:

* on the root item, each edit of the root node as its one row for the edit's property, and every
  other row as it was before: the clearing does not reach the root item, and the upsert leaves
  the properties it does not name;
* on each created item, one row per edit of its node and no other, since its id was minted
  during the write and had no rows;
* on every item of another document, its rows: the clearing reaches only items of the document,
  and the writes name the root item or ids minted during the write.

The main statement is `reconcile_keeps_omitted_styles`.
-/

set_option autoImplicit false

namespace Outliner

namespace Tables

variable {catalog : Catalog} {n : Nat} {t : Tables}

theorem stylesOf_deleteSubtrees {roots : List String} {y : String} (hy : y ∉ deletedIds roots t) :
    (Memory.deleteSubtrees roots t).stylesOf y = t.stylesOf y := by
  unfold stylesOf
  change (t.styles.filter fun s => !(deletedIds roots t).contains s.itemId).filter _ = _
  rw [List.filter_filter]
  refine List.filter_congr fun s _ => ?_
  by_cases hs : s.itemId = y
  · simp [hs, hy]
  · simp [hs]

theorem stylesOf_eq_nil (hinv : StoreInvariant catalog t) (hf : Fresh n t) {y : String}
    (hy : ¬ MintedBy n y) : t.stylesOf y = [] :=
  List.filter_eq_nil_iff.mpr fun s hs hsy => by
    obtain ⟨⟨i, hi, his⟩, -⟩ := hinv.styles_valid s hs
    have hid : i.id = y := his.trans (beq_iff_eq.mp hsy)
    exact hy (hid ▸ hf.items_minted i hi)

theorem deletedIds_children (hinv : StoreInvariant catalog t) (hf : Fresh n t) {d : Document}
    (hd : d ∈ t.documents) {R : String} (hR : d.rootItemId = some R) :
    R ∉ deletedIds ((t.items.filter fun e => e.1.isChildOf R).map (·.1.id)) t ∧
      ∀ x ∈ t.rows, x.documentId ≠ d.id →
        x.id ∉ deletedIds ((t.items.filter fun e => e.1.isChildOf R).map (·.1.id)) t := by
  have hchild : ∀ j ∈ t.rows, j.id ∈ (t.items.filter fun e => e.1.isChildOf R).map (·.1.id) →
      j.parentId = some R := fun j hj hmem => by
    obtain ⟨e, he, heq⟩ := List.mem_map.mp hmem
    obtain ⟨he, hpar⟩ := List.mem_filter.mp he
    rw [← hf.item_eq (List.mem_map_of_mem he) hj heq]
    simpa [Item.isChildOf] using hpar
  have hparentless := hinv.root_parentless hf hd hR
  refine ⟨not_mem_deletedIds_of_parentless (fun i hi hir => (hparentless i hi hir).1) fun hmem => ?_,
    fun x hx hxd hgone => ?_⟩
  · obtain ⟨e, he, heq⟩ := List.mem_map.mp hmem
    have hrow : e.1 ∈ t.rows := List.mem_map_of_mem (List.mem_filter.mp he).1
    have := (hparentless e.1 hrow heq).1
    rw [hchild e.1 hrow (heq ▸ hmem)] at this
    cases this
  · obtain ⟨j, hj, hjroots, hjd⟩ := doc_of_mem_deletedIds hinv hf hgone hx rfl
    obtain ⟨q, hq, hqR, hqd⟩ := hinv.parent_linked j hj R (hchild j hj hjroots)
    exact hxd (hjd ▸ hqd ▸ (hparentless q hq hqR).2)

end Tables

namespace Memory

variable {catalog : Catalog} {m₀ : Memory} {D R : String} {E : List StyleEdit}
  {done : List (PlannedNode × String)}

/-- Where a reconciliation of document `D` with root item `R`, started from `m₀`, has brought
the styles: the keys are apart; the items of the other documents keep their rows; the root item
has the edits `E` over the rows it had; each node written so far, with its id, has its edits and
no other row, under an id minted since the start. -/
structure StylesSoFar (m₀ : Memory) (D R : String) (E : List StyleEdit)
    (done : List (PlannedNode × String)) (m : Memory) : Prop where
  keys : StyleKeysUnique m
  others : ∀ x ∈ m₀.tables.rows, x.documentId ≠ D → m.tables.stylesOf x.id = m₀.tables.stylesOf x.id
  root : m.tables.EditsOver R E (m₀.tables.stylesAt R)
  created : ∀ q ∈ done, m.tables.EditsOver q.2 q.1.styles fun _ => []
  fresh : ∀ q ∈ done, ¬ MintedBy m₀.minted q.2 ∧ MintedBy m.minted q.2

/-- `y` is the id of an item just made: minted since the start and after the nodes written so
far, with no style rows yet. -/
structure NewItem (m₀ : Memory) (done : List (PlannedNode × String)) (y : String) (m : Memory) :
    Prop where
  unstyled : m.tables.stylesOf y = []
  after_start : ¬ MintedBy m₀.minted y
  minted : MintedBy m.minted y
  apart : ∀ q ∈ done, q.2 ≠ y

/-- `R` is the root item of document `D` in the start store `m₀`, whose ids are unshared. -/
structure RootOf (m₀ : Memory) (D R : String) : Prop where
  fresh : Fresh m₀.minted m₀.tables
  minted : MintedBy m₀.minted R
  document : ∀ x ∈ m₀.tables.rows, x.id = R → x.documentId = D

theorem RootOf.of_document (hc₀ : Consistent catalog m₀) {d : Document}
    (hd : d ∈ m₀.tables.documents) (hR : d.rootItemId = some R) : RootOf m₀ d.id R := by
  obtain ⟨r, hr, hroot⟩ := hc₀.invariant.rooted d hd
  rw [hR, Option.some.injEq] at hr
  subst hr
  obtain ⟨j, hj, hjr, -, -⟩ := root_row hroot
  exact ⟨hc₀.fresh, hjr ▸ hc₀.fresh.items_minted j hj,
    fun x hx hxR => (hc₀.invariant.root_parentless hc₀.fresh hd hR x hx hxR).2⟩

theorem RootOf.item_ne (hr : RootOf m₀ D R) {x : Item} (hx : x ∈ m₀.tables.rows) {y : String}
    (hy : ¬ MintedBy m₀.minted y) : x.id ≠ y :=
  fun hxy => hy (hxy ▸ hr.fresh.items_minted x hx)

namespace StylesSoFar

variable {m m' : Memory}

theorem of_styles (h : StylesSoFar m₀ D R E done m) (hs : m'.tables.styles = m.tables.styles)
    (hn : m.minted ≤ m'.minted) : StylesSoFar m₀ D R E done m' := by
  have hof : ∀ y, m'.tables.stylesOf y = m.tables.stylesOf y := fun y => by
    unfold Tables.stylesOf
    rw [hs]
  exact ⟨by unfold StyleKeysUnique; rw [hs]; exact h.keys, fun x hx hxd => (hof x.id).trans (h.others x hx hxd),
    h.root.of_stylesOf (hof R), fun q hq => (h.created q hq).of_stylesOf (hof q.2),
    fun q hq => ⟨(h.fresh q hq).1, (h.fresh q hq).2.mono hn⟩⟩

theorem cleared (hc₀ : Consistent catalog m₀) (hu₀ : StyleKeysUnique m₀) {d : Document}
    (hd : d ∈ m₀.tables.documents) (hR : d.rootItemId = some R)
    (ht : m.tables = deleteSubtrees ((m₀.tables.items.filter fun e => e.1.isChildOf R).map (·.1.id))
      m₀.tables) :
    StylesSoFar m₀ d.id R [] [] m := by
  obtain ⟨hRgone, hgone⟩ := Tables.deletedIds_children hc₀.invariant hc₀.fresh hd hR
  have hof : ∀ y, y ∉ deletedIds ((m₀.tables.items.filter fun e => e.1.isChildOf R).map (·.1.id))
      m₀.tables → m.tables.stylesOf y = m₀.tables.stylesOf y := fun y hy => by
    rw [ht]
    exact Tables.stylesOf_deleteSubtrees hy
  refine ⟨?_, fun x hx hxd => hof x.id (hgone x hx hxd), .of_stylesAt fun q => ?_,
    fun _ h => absurd h List.not_mem_nil, fun _ h => absurd h List.not_mem_nil⟩
  · unfold StyleKeysUnique
    rw [ht]
    exact (List.filter_sublist.map _).nodup hu₀
  · rw [Tables.stylesAt_eq_filter, Tables.stylesAt_eq_filter, hof R hRgone]

theorem root_written (h : StylesSoFar m₀ D R [] done m) (hw : StylesWritten R E m m')
    (hr : RootOf m₀ D R) : StylesSoFar m₀ D R E done m' := by
  obtain ⟨S, rfl⟩ := hw.only_styles
  have hne : ∀ q ∈ done, q.2 ≠ R := fun q hq hqR => (h.fresh q hq).1 (hqR ▸ hr.minted)
  refine ⟨hw.keys, fun x hx hxd => ?_, h.root.append hw.rows fun _ he => absurd he List.not_mem_nil,
    fun q hq => (h.created q hq).of_stylesOf (hw.others q.2 (hne q hq)), h.fresh⟩
  have hxR : x.id ≠ R := fun hxR => hxd (hr.document x hx hxR)
  exact (hw.others x.id hxR).trans (h.others x hx hxd)

theorem node_written {y : String} {n : PlannedNode} (h : StylesSoFar m₀ D R E done m)
    (hy : NewItem m₀ done y m) (hw : StylesWritten y n.styles m m') (hr : RootOf m₀ D R) :
    StylesSoFar m₀ D R E (done ++ [(n, y)]) m' := by
  obtain ⟨S, rfl⟩ := hw.only_styles
  have hRy : R ≠ y := fun hRy => hy.after_start (hRy ▸ hr.minted)
  refine ⟨hw.keys, fun x hx hxd => ?_, h.root.of_stylesOf (hw.others R hRy), fun q hq => ?_,
    fun q hq => ?_⟩
  · exact (hw.others x.id (hr.item_ne hx hy.after_start)).trans (h.others x hx hxd)
  · rcases List.mem_append.mp hq with hq | hq
    · exact (h.created q hq).of_stylesOf (hw.others q.2 (hy.apart q hq))
    · -- the item had no rows, so its edits are all it has
      rw [List.mem_singleton.mp hq]
      have hnone : m.tables.EditsOver y [] fun _ => [] :=
        .of_stylesAt (Tables.stylesAt_of_stylesOf_nil hy.unstyled)
      simpa using hnone.append hw.rows fun _ he => absurd he List.not_mem_nil
  · rcases List.mem_append.mp hq with hq | hq
    · exact h.fresh q hq
    · rw [List.mem_singleton.mp hq]
      exact ⟨hy.after_start, hy.minted⟩

end StylesSoFar

/-! ## The steps of the write -/

section Steps

variable {α : Type}

theorem stylesSoFar_updateDocument (id : String) (f : Document → Except Failure Document) :
    Triple (StylesSoFar m₀ D R E done) (updateDocument id f) (fun _ => StylesSoFar m₀ D R E done) := by
  intro m a m' h hx
  rcases updateDocument_cases id f m with ⟨e, he⟩ | ⟨_, _, -, -, he⟩ <;> rw [he] at hx
  · cases hx
  obtain ⟨-, rfl⟩ := Prod.mk.inj hx
  exact h.of_styles rfl (Nat.le_refl _)

theorem stylesSoFar_updateText {doc id text : String} (htext : text.length ≤ maxItemTextLength) :
    Triple (fun m => Kept catalog m₀ m ∧ StylesSoFar m₀ D R E done m) (updateText doc id text)
      (fun _ m => Kept catalog m₀ m ∧ StylesSoFar m₀ D R E done m) := by
  rintro m a m' ⟨hk, h⟩ hx
  refine ⟨kept_updateText htext doc id m a m' hk hx, ?_⟩
  rcases updateText_cases doc id text m with ⟨e, he⟩ | ⟨_, -, -, he⟩ <;> rw [he] at hx
  · cases hx
  obtain ⟨-, rfl⟩ := Prod.mk.inj hx
  exact h.of_styles rfl (Nat.le_refl _)

theorem stylesSoFar_deleteChildren {d : Document} (hd : d ∈ m₀.tables.documents)
    (hR : d.rootItemId = some R) (hu₀ : StyleKeysUnique m₀) :
    Triple (fun m => Kept catalog m₀ m ∧ m.tables = m₀.tables) (deleteChildren R)
      (fun _ m => Kept catalog m₀ m ∧ StylesSoFar m₀ d.id R [] [] m) := by
  rintro m a m' ⟨hk, ht⟩ hx
  refine ⟨kept_deleteChildren R m a m' hk hx, ?_⟩
  rw [exec_deleteChildren] at hx
  obtain ⟨-, rfl⟩ := Prod.mk.inj hx
  exact StylesSoFar.cleared hk.start hu₀ hd hR (by rw [ht])

theorem triple_written {y : String} {es : List StyleEdit} (present : List String)
    (hv : ∀ e ∈ es, catalog.validate e = .ok ()) (hnodup : (es.map (·.property)).Nodup)
    {P Q : Memory → Prop} (hQ : ∀ m m', P m → StylesWritten y es m m' → Q m') :
    Triple (fun m => Kept catalog m₀ m ∧ StyleKeysUnique m ∧ P m)
      (StyleWrite.apply repository y es present) (fun _ m => Kept catalog m₀ m ∧ Q m) := by
  rintro m a m' ⟨hk, hu, hP⟩ hx
  have hk' := (kept_applyStyles (F := fun _ => True) (fun _ _ _ h => h) y es present hv m a m'
    ⟨hk, trivial⟩ hx).1
  exact ⟨hk', hQ m m' hP (apply_written y es present hnodup hu hx)⟩

theorem stylesSoFar_upsert (hr : RootOf m₀ D R) (hv : ∀ e ∈ E, catalog.validate e = .ok ())
    (hnodup : (E.map (·.property)).Nodup) :
    Triple (fun m => Kept catalog m₀ m ∧ StylesSoFar m₀ D R [] done m)
      (StyleWrite.upsert repository R E) (fun _ m => Kept catalog m₀ m ∧ StylesSoFar m₀ D R E done m) := by
  unfold StyleWrite.upsert
  split
  · rename_i hE
    exact Triple.pure_of _ fun _ h => List.isEmpty_iff.mp hE ▸ h
  · exact (((readsOnly_listItemStyles R).triple _).during _).bind fun _ =>
      (triple_written _ hv hnodup fun _ _ h hw => h.root_written hw hr).mono
        (fun _ h => ⟨h.1, h.2.keys, h.2⟩) fun _ _ h => h

theorem stylesSoFar_createItem (i : Item) (hp : i.parentId.isSome)
    (htext : i.itemText.length ≤ maxItemTextLength) :
    Triple (fun m => Kept catalog m₀ m ∧ StylesSoFar m₀ D R E done m) (createItem i)
      (fun item m => Kept catalog m₀ m ∧ StylesSoFar m₀ D R E done m ∧ NewItem m₀ done item.id m) := by
  rintro m item m' ⟨hk, h⟩ hx
  have hk' := (kept_createItem i hp htext m item m' hk hx).1
  obtain ⟨rfl, rfl, -, -⟩ := createItem_ok hx
  refine ⟨hk', h.of_styles rfl (Nat.le_succ _), ⟨?_, fun hy => ?_, mintedBy_next _, fun q hq hqy => ?_⟩⟩
  · exact Tables.stylesOf_eq_nil hk.now.invariant hk.now.fresh (not_mintedBy_next _)
  · exact not_mintedBy_next m.minted (hy.mono hk.evolves.1)
  · have hq' : q.2 = Uuid.minted (m.minted + 1) := hqy
    exact not_mintedBy_next m.minted (hq' ▸ (h.fresh q hq).2)

theorem styles_createNodes (hr : RootOf m₀ D R) (docId : String) (p : Plan)
    (nodes : List PlannedNode) :
    ∀ (acc : List String) (done : List (PlannedNode × String)),
      (∀ n ∈ nodes, Plan.Writable catalog n.text n.styles) →
      (∀ n ∈ nodes, (n.styles.map (·.property)).Nodup) →
      Triple (fun m => Kept catalog m₀ m ∧ StylesSoFar m₀ D R E done m)
        (Plan.createNodes repository docId p nodes acc)
        (fun out m => Kept catalog m₀ m ∧ ∃ new, out = acc ++ new ∧ new.length = nodes.length ∧
          StylesSoFar m₀ D R E (done ++ nodes.zip new) m) := by
  induction nodes with
  | nil =>
    intro acc done _ _
    exact Triple.pure_of acc fun m h => ⟨h.1, [], by simp, rfl, by simpa using h.2⟩
  | cons n ns ih =>
    intro acc done hw hnodup
    obtain ⟨htext, hstyles⟩ := hw n List.mem_cons_self
    have hns : ∀ n ∈ ns, Plan.Writable catalog n.text n.styles :=
      fun n' h => hw n' (List.mem_cons_of_mem _ h)
    have hnodup' : ∀ n ∈ ns, (n.styles.map (·.property)).Nodup :=
      fun n' h => hnodup n' (List.mem_cons_of_mem _ h)
    -- once the node is written under its id, the rest of the nodes
    have hrest : ∀ y : String, Triple (fun m => Kept catalog m₀ m ∧ StylesSoFar m₀ D R E (done ++ [(n, y)]) m)
        (Plan.createNodes repository docId p ns (acc ++ [y]))
        (fun out m => Kept catalog m₀ m ∧ ∃ new, out = acc ++ new ∧ new.length = ns.length + 1 ∧
          StylesSoFar m₀ D R E (done ++ (n :: ns).zip new) m) := fun y =>
      (ih (acc ++ [y]) (done ++ [(n, y)]) hns hnodup').mono (fun _ h => h) fun out m h => by
        obtain ⟨hk, new, rfl, hlen, hS⟩ := h
        refine ⟨hk, y :: new, by simp, by simp [hlen], ?_⟩
        simpa using hS
    rw [createNodes_cons]
    dsimp only
    refine ((stylesSoFar_createItem _ rfl htext).during _).bind fun item => ?_
    split
    · have hnode : Triple (fun m => Kept catalog m₀ m ∧ StylesSoFar m₀ D R E done m ∧
          NewItem m₀ done item.id m) (StyleWrite.apply repository item.id n.styles [])
          (fun _ m => Kept catalog m₀ m ∧ StylesSoFar m₀ D R E (done ++ [(n, item.id)]) m) :=
        (triple_written [] hstyles (hnodup n List.mem_cons_self)
          fun _ _ h hw => h.1.node_written h.2 hw hr).mono (fun _ h => ⟨h.1, h.2.1.keys, h.2⟩)
            fun _ _ h => h
      exact (hnode.during _).bind fun _ => hrest item.id
    · -- a node without edits: its item keeps no rows
      rename_i hempty
      have hn : n.styles = [] := by simpa using hempty
      refine (hrest item.id).mono (fun m h => ⟨h.1, h.2.1.node_written h.2.2 ?_ hr⟩) fun _ _ h => h
      rw [hn]
      exact StylesWritten.nil h.2.1.keys

theorem styles_write {limits : Limits} {d : Document} {s : Snapshot} {p : Plan}
    (hp : Plan.make catalog limits d s = .ok p) (hd : d ∈ m₀.tables.documents)
    (hR : d.rootItemId = some R) (hc₀ : Consistent catalog m₀) (hu₀ : StyleKeysUnique m₀) :
    Triple (fun m => Kept catalog m₀ m ∧ m.tables = m₀.tables) (p.write repository d)
      (fun res m => ∃ removed persisted, res = p.result removed persisted ∧
        persisted.length = p.nodes.length ∧
        StylesSoFar m₀ d.id R p.rootStyles (p.nodes.zip persisted) m) := by
  obtain ⟨-, hrootText, hrootStyles, hnodes⟩ := Plan.make_writable hp
  obtain ⟨⟨root, -, hrootEq, hrootNodup⟩, hnodeStyles⟩ := Plan.make_styles hp
  have hrootNodup' : (p.rootStyles.map (·.property)).Nodup := hrootEq ▸ hrootNodup
  have hnodesNodup : ∀ n ∈ p.nodes, (n.styles.map (·.property)).Nodup := fun n hn => by
    obtain ⟨node, -, hstyles, hnodup⟩ := hnodeStyles n hn
    rw [hstyles]
    exact hnodup
  have hr := RootOf.of_document hc₀ hd hR
  have hR' : p.rootItemId = R := Plan.make_rootItemId hp hR
  subst hR'
  -- the last two steps change only documents
  have hdocs : ∀ (ids : List String) (f : Document → Except Failure Document),
      Triple (fun m => ids.length = p.nodes.length ∧
        StylesSoFar m₀ d.id p.rootItemId p.rootStyles (p.nodes.zip ids) m) (updateDocument d.id f)
      (fun _ m => ids.length = p.nodes.length ∧
        StylesSoFar m₀ d.id p.rootItemId p.rootStyles (p.nodes.zip ids) m) := fun _ f =>
    Triple.of_pre (fun _ h => h.1) fun hlen =>
      (stylesSoFar_updateDocument d.id f).mono (fun _ h => h.2) fun _ _ h => ⟨hlen, h⟩
  refine Triple.write_of (fun m h => ⟨h.1.inTransaction true, h.2⟩)
    (fun _ _ h => ⟨h.1, h.2.of_styles rfl (Nat.le_refl _)⟩)
    (stylesSoFar_deleteChildren hd hR hu₀) (fun t ht => stylesSoFar_updateText (hrootText t ht))
    (fun _ => stylesSoFar_upsert hr hrootStyles hrootNodup') (fun hs _ h => ?_) ?_
    (fun ids => hdocs ids _) (fun _ _ h => ⟨h.1, h.2.of_styles rfl (Nat.le_refl _)⟩)
    (fun ids _ => hdocs ids _) fun removed ids _ h => ⟨removed, ids, rfl, h⟩
  · -- no root edits: the root item's rows are as the clearing left them
    have hE : p.rootStyles = [] := by simpa using hs
    exact hE ▸ h
  · refine (styles_createNodes (E := p.rootStyles) hr d.id p p.nodes [] [] hnodes
      hnodesNodup).mono (fun _ h => h) fun ids m h => ?_
    obtain ⟨-, new, hnew, hlen, hS⟩ := h
    rw [List.nil_append] at hnew hS
    subst hnew
    exact ⟨hlen, hS⟩

end Steps

theorem reconcile_styles {limits : Limits} {m m' : Memory} {user docId : String} {s : Snapshot}
    {res : ReconcileResult} (hc : Consistent catalog m) (hu : StyleKeysUnique m)
    (h : exec (Documents.reconcile repository catalog limits user docId (some s)) m = (.ok res, m')) :
    ∃ d p removed persisted, document? m.tables docId = some d ∧ Plan.make catalog limits d s = .ok p ∧
      res = p.result removed persisted ∧ persisted.length = p.nodes.length ∧
      StylesSoFar m d.id d.rootId p.rootStyles (p.nodes.zip persisted) m' := by
  obtain ⟨d, p, hfound, hp, hw⟩ := reconcile_write h
  have hd := (document?_eq_some hfound).1
  obtain ⟨R, hR, -⟩ := hc.invariant.rooted d hd
  have hRid : d.rootId = R := by rw [Document.rootId, hR]; rfl
  obtain ⟨removed, persisted, hres, hlen, hS⟩ :=
    styles_write hp hd hR hc hu m res m' ⟨Kept.refl hc, rfl⟩ hw
  exact ⟨d, p, removed, persisted, hfound, hp, hres, hlen, hRid ▸ hS⟩

end Memory

/-! ## Styles after a reconciliation -/

/-- What a reconciliation of document `d` with snapshot `s`, by plan `p` and with `persisted`
the ids it created for the plan's nodes, did to the styles of `m`, leaving `m'`. -/
structure ReconciledStyles (s : Snapshot) (p : Plan) (persisted : List String) (d : Document)
    (m m' : Memory) : Prop where
  /-- The root item has each edit of the root node as its row for the edit's property, and
  every other row it had. -/
  root : ∃ node, s.node? s.rootItem = some node ∧
    m'.tables.EditsOver d.rootId node.styles (m.tables.stylesAt d.rootId)
  /-- The item created for a node has one row per edit of the node, and no other. -/
  created : ∀ n i, (n, i) ∈ p.nodes.zip persisted → ∃ node, s.node? n.clientId = some node ∧
    m'.tables.EditsOver i node.styles fun _ => []
  /-- The items of every other document keep their rows. -/
  others : ∀ x ∈ m.tables.rows, x.documentId ≠ d.id →
    m'.tables.stylesOf x.id = m.tables.stylesOf x.id

/-- Reconciling styles keeps what the snapshot omits: a reconciliation that succeeds on a
reachable store gives the root item the root node's edits and leaves its other rows, gives each
created item exactly its node's edits, and leaves the styles of the other documents' items. -/
theorem reconcile_keeps_omitted_styles {catalog : Catalog} {limits₀ limits : Limits}
    {m m' : Memory} {user docId : String} {s : Snapshot} {res : ReconcileResult}
    (hm : Reachable catalog limits₀ m)
    (h : Memory.exec (Documents.reconcile Memory.repository catalog limits user docId (some s)) m =
      (.ok res, m')) :
    ∃ d p removed persisted, Memory.document? m.tables docId = some d ∧
      Plan.make catalog limits d s = .ok p ∧ res = p.result removed persisted ∧
      persisted.length = p.nodes.length ∧ ReconciledStyles s p persisted d m m' := by
  obtain ⟨d, p, removed, persisted, hfound, hp, hres, hlen, hS⟩ :=
    Memory.reconcile_styles hm.consistent hm.styleKeysUnique h
  obtain ⟨⟨root, hroot, hrootStyles, -⟩, hnodes⟩ := Plan.make_styles hp
  refine ⟨d, p, removed, persisted, hfound, hp, hres, hlen,
    ⟨⟨root, hroot, hrootStyles ▸ hS.root⟩, fun n i hni => ?_, hS.others⟩⟩
  obtain ⟨node, hnode, hstyles, -⟩ := hnodes n (List.of_mem_zip hni).1
  exact ⟨node, hnode, hstyles ▸ hS.created (n, i) hni⟩

/-- A snapshot of the first document whose root node and one child carry edits. -/
def styledSnapshot : Snapshot :=
  ⟨Uuid.minted 2, none,
    [(Uuid.minted 2, ⟨"", none, 0, ["00000000-0000-4000-8000-0000000000aa"], none,
        [⟨"color", some "red", none, none⟩]⟩),
     ("00000000-0000-4000-8000-0000000000aa", ⟨"", none, 0, [], some "hello",
        [⟨"font-size", none, some 12, some "px"⟩, ⟨"text-align", some "center", none, none⟩]⟩)]⟩

/-- Reconciling the first document with a styled snapshot succeeds, and leaves the styles that
`reconcile_keeps_omitted_styles` describes. -/
theorem first_reconcile_styles :
    Reachable Catalog.standard Limits.standard firstStore ∧
      Memory.exec (Documents.reconcile Memory.repository Catalog.standard Limits.standard "alice"
          (Uuid.minted 1) (some styledSnapshot)) firstStore =
        (.ok ⟨[("00000000-0000-4000-8000-0000000000aa", some (Uuid.minted 3)),
            (Uuid.minted 2, some (Uuid.minted 2))], [], 0, 1, none⟩,
          (Memory.exec (Documents.reconcile Memory.repository Catalog.standard Limits.standard "alice"
            (Uuid.minted 1) (some styledSnapshot)) firstStore).2) ∧
      ∃ d p removed persisted, Memory.document? firstStore.tables (Uuid.minted 1) = some d ∧
        Plan.make Catalog.standard Limits.standard d styledSnapshot = .ok p ∧
        (⟨[("00000000-0000-4000-8000-0000000000aa", some (Uuid.minted 3)),
            (Uuid.minted 2, some (Uuid.minted 2))], [], 0, 1, none⟩ : ReconcileResult) =
          p.result removed persisted ∧ persisted.length = p.nodes.length ∧
        ReconciledStyles styledSnapshot p persisted d firstStore
          (Memory.exec (Documents.reconcile Memory.repository Catalog.standard Limits.standard "alice"
            (Uuid.minted 1) (some styledSnapshot)) firstStore).2 := by
  have hm : Reachable Catalog.standard Limits.standard firstStore := .step _ (.empty 0 secondsClock)
  have hrun : (Memory.exec (Documents.reconcile Memory.repository Catalog.standard Limits.standard
      "alice" (Uuid.minted 1) (some styledSnapshot)) firstStore).1 =
      .ok ⟨[("00000000-0000-4000-8000-0000000000aa", some (Uuid.minted 3)),
        (Uuid.minted 2, some (Uuid.minted 2))], [], 0, 1, none⟩ := by
    decide +kernel
  exact ⟨hm, Prod.ext hrun rfl, reconcile_keeps_omitted_styles hm (Prod.ext hrun rfl)⟩

end Outliner
