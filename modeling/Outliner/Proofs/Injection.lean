import Outliner.Proofs.Rebuild

/-!
# Writes fail only by the injected failure

The store can be told to fail one item creation with a storage failure. On a consistent store
nothing else makes the writes of a reconciliation or of a copy fail: every check that a store
operation makes is met by what the steps before it left. The document exists; the root item is
an item of it before and after its subtree is cleared; each node's parent is the root item or an
item created earlier in the same run; the root's styles are updated exactly where the root has
a row for the property, and the styles of a new item are all inserted, since no row names an id
that was never an item's; a copy's new document has no root item yet, and each copied item goes
under an item of the copy.

`OnlyInjected P x` says that `x`, run from a store with `P`, fails only by the injected failure,
with the steps that were under way written in front of its text (`Injected`). It is combined
with the `Triple`s that say what the steps before left.
-/

set_option autoImplicit false

namespace Outliner

/-- The failure the store injects at the chosen item creation, with the names of the steps that
were under way written in front. -/
inductive Injected : Failure → Prop
  | injected : Injected (Failure.storage "injected storage failure")
  | wrap (step : String) {f : Failure} : Injected f → Injected (f.wrap step)

namespace Memory

variable {α β : Type}

/-- Run from a store with `P`, `x` fails, if at all, only by the injected failure. -/
def OnlyInjected (P : Memory → Prop) (x : MemoryM α) : Prop :=
  ∀ m e m', P m → exec x m = (.error e, m') → Injected e

namespace OnlyInjected

variable {P P' : Memory → Prop}

theorem of_never {x : MemoryM α} (h : ∀ m e m', P m → exec x m = (.error e, m') → False) :
    OnlyInjected P x :=
  fun m e m' hm hx => absurd (h m e m' hm hx) id

theorem pure (a : α) : OnlyInjected P (Pure.pure a : MemoryM α) :=
  of_never fun _ _ _ _ h => by cases h

theorem mono {x : MemoryM α} (h : OnlyInjected P x) (hP : ∀ m, P' m → P m) : OnlyInjected P' x :=
  fun m e m' hm hx => h m e m' (hP m hm) hx

theorem of_pre {x : MemoryM α} {Φ : Prop} (h : ∀ m, P m → Φ) (hx : Φ → OnlyInjected P x) :
    OnlyInjected P x :=
  fun m e m' hm => hx (h m hm) m e m' hm

theorem of_false {x : MemoryM α} (h : ∀ m, P m → False) : OnlyInjected P x :=
  fun m _ _ hm => absurd (h m hm) id

theorem bind {R : α → Memory → Prop} {x : MemoryM α} {f : α → MemoryM β} (hx : OnlyInjected P x)
    (ht : Triple P x R) (hf : ∀ a, OnlyInjected (R a) (f a)) : OnlyInjected P (x >>= f) := by
  intro m e m'' hm h
  rw [exec_bind] at h
  rcases hr : exec x m with ⟨r, m'⟩
  rw [hr] at h
  cases r with
  | ok a => exact hf a m' e m'' (ht m a m' hm hr) h
  | error e' =>
    simp only [Prod.mk.injEq, Except.error.injEq] at h
    obtain ⟨rfl, -⟩ := h
    exact hx m e' m' hm hr

theorem during (s : String) {x : MemoryM α} (hx : OnlyInjected P x) :
    OnlyInjected P (Failure.during s x) := by
  intro m e m' hm h
  rw [exec_during] at h
  rcases hr : exec x m with ⟨r, m''⟩
  rw [hr] at h
  cases r with
  | ok a => cases h
  | error e' =>
    simp only [Except.mapError, Prod.mk.injEq, Except.error.injEq] at h
    obtain ⟨rfl, -⟩ := h
    exact .wrap s (hx m e' m'' hm hr)

theorem ite {c : Prop} [Decidable c] {x y : MemoryM α} (hx : c → OnlyInjected P x)
    (hy : ¬ c → OnlyInjected P y) : OnlyInjected P (if c then x else y) := by
  split
  · rename_i hc
    exact hx hc
  · rename_i hc
    exact hy hc

theorem atomically {body : MemoryM α} (hb : OnlyInjected P body)
    (hP : ∀ m, P m → P { m with inTransaction := true }) : OnlyInjected P (Memory.atomically body) := by
  intro m e m' hm h
  cases hin : m.inTransaction with
  | true =>
    rw [exec_atomically_inside hin] at h
    exact hb m e m' hm h
  | false =>
    rw [exec_atomically hin] at h
    rcases hr : exec body { m with inTransaction := true } with ⟨r, m''⟩
    rw [hr] at h
    cases r with
    | ok a => cases h
    | error e' =>
      simp only [Prod.mk.injEq, Except.error.injEq] at h
      obtain ⟨rfl, -⟩ := h
      exact hb _ e' m'' (hP m hm) hr

end OnlyInjected

/-! ## Lookups on the rows -/

theorem item?_isSome_of_mem {t : Tables} {q : Item} (hq : q ∈ t.rows) : (item? t q.id).isSome := by
  obtain ⟨e, he, rfl⟩ := List.mem_map.mp hq
  unfold item?
  rw [Option.isSome_map]
  exact List.find?_isSome.mpr ⟨e, he, by simp⟩

theorem item?_of_mem {n : Nat} {t : Tables} (hf : Fresh n t) {q : Item} (hq : q ∈ t.rows) :
    item? t q.id = some q := by
  obtain ⟨q', hq'⟩ := Option.isSome_iff_exists.mp (item?_isSome_of_mem hq)
  obtain ⟨hmem, hid⟩ := item?_eq_some hq'
  rw [hq', hf.item_eq hmem hq hid]

theorem document?_isSome_of_mem {t : Tables} {d : Document} (hd : d ∈ t.documents) :
    (document? t d.id).isSome :=
  List.find?_isSome.mpr ⟨d, hd, by simp⟩

theorem document_of_present {catalog : Catalog} {m₀ m : Memory} {doc : String} {ys : List String}
    (hk : Kept catalog m₀ m) (hp : Present doc ys m) {y : String} (hy : y ∈ ys) :
    (document? m.tables doc).isSome := by
  obtain ⟨i, hi, -, hdoc⟩ := hp y hy
  obtain ⟨e, he, hid, -⟩ := hk.now.invariant.grounded i hi
  rw [← hdoc, ← hid]
  exact document?_isSome_of_mem he

/-! ## Single operations -/

theorem onlyInjected_lockDocument (id : String) :
    OnlyInjected (fun m => (document? m.tables id).isSome) (lockDocument id) :=
  OnlyInjected.of_never fun m e m' hm h => by
    obtain ⟨d, hd⟩ := Option.isSome_iff_exists.mp hm
    unfold lockDocument at h
    rw [exec_bind, exec_getDocument, hd] at h
    cases h

theorem onlyInjected_deleteChildren (p : String) : OnlyInjected (fun _ => True) (deleteChildren p) :=
  OnlyInjected.of_never fun m e m' _ h => by
    rw [exec_deleteChildren] at h
    cases h

theorem onlyInjected_updateText (doc id text : String) :
    OnlyInjected (fun m => ∃ i, item? m.tables id = some i ∧ i.documentId = doc)
      (updateText doc id text) :=
  OnlyInjected.of_never fun m e m' ⟨i, hi, hdoc⟩ h => by
    simp only [updateText, exec_bind_ok (exec_tablesNow m), hi, hdoc] at h
    simp at h

theorem onlyInjected_updateDocument (id : String) (f : Document → Except Failure Document) :
    OnlyInjected (fun m => ∃ d d', document? m.tables id = some d ∧ f d = .ok d') (updateDocument id f) :=
  OnlyInjected.of_never fun m e m' ⟨d, d', hd, hf⟩ h => by
    simp only [updateDocument, exec_bind_ok (exec_tablesNow m), hd] at h
    rw [exec_bind, exec_liftExcept, hf] at h
    cases h

theorem onlyInjected_setTocItem (id : String) (toc : Option String) :
    OnlyInjected (fun m => (document? m.tables id).isSome) (setTocItem id toc) :=
  (onlyInjected_updateDocument id _).mono fun m hm => by
    obtain ⟨d, hd⟩ := Option.isSome_iff_exists.mp hm
    exact ⟨d, _, hd, rfl⟩

theorem onlyInjected_now {P : Memory → Prop} : OnlyInjected P now :=
  OnlyInjected.of_never fun m e m' _ h => by
    rw [exec_now] at h
    cases h

theorem onlyInjected_touchDocument (id : String) (time : Time.Instant) :
    OnlyInjected (fun m => (document? m.tables id).isSome) (touchDocument id time) :=
  (onlyInjected_updateDocument id _).mono fun m hm => by
    obtain ⟨d, hd⟩ := Option.isSome_iff_exists.mp hm
    exact ⟨d, _, hd, rfl⟩

theorem onlyInjected_createItem (i : Item) :
    OnlyInjected (fun m => (document? m.tables i.documentId).isSome ∧
      ∀ p, i.parentId = some p → ∃ q, item? m.tables p = some q ∧ q.documentId = i.documentId)
      (createItem i) := by
  rintro m e m' ⟨hdoc, hparent⟩ h
  simp only [createItem, exec_bind, exec_get, exec_set, exec_ite, exec_throw] at h
  split at h
  · -- the creation chosen to fail
    simp only [Prod.mk.injEq, Except.error.injEq] at h
    rw [← h.1]
    exact .injected
  split at h
  · rename_i hnone
    rw [Option.isNone_iff_eq_none.mp hnone] at hdoc
    cases hdoc
  cases hp : i.parentId with
  | none => simp [hp, exec_bind, exec_map, Except.map] at h
  | some p =>
    obtain ⟨q, hq, hqd⟩ := hparent p hp
    simp only [hp, hq] at h
    split at h
    · rename_i hne
      exact absurd hqd hne
    · simp [exec_bind, exec_map, Except.map] at h

theorem onlyInjected_insertStyle (st : Style) :
    OnlyInjected (fun m => (item? m.tables st.itemId).isSome ∧
      (m.tables.styles.any fun s => s.itemId == st.itemId && s.property == st.property) = false)
      (insertStyle st) :=
  OnlyInjected.of_never fun m e m' ⟨hitem, hnone⟩ h => by
    obtain ⟨q, hq⟩ := Option.isSome_iff_exists.mp hitem
    simp only [insertStyle, exec_bind_ok (exec_tablesNow m), exec_bind, exec_ite, exec_throw,
      exec_modifyTables, hnone] at h
    simp [hq] at h

theorem onlyInjected_updateStyle (st : Style) :
    OnlyInjected (fun m =>
      (m.tables.styles.any fun s => s.itemId == st.itemId && s.property == st.property) = true)
      (updateStyle st) :=
  OnlyInjected.of_never fun m e m' hany h => by
    simp only [updateStyle, exec_bind_ok (exec_tablesNow m), exec_bind, exec_ite, exec_throw,
      exec_modifyTables, hany] at h
    simp at h

/-! ## Writing styles -/

theorem Triple.true {P : Memory → Prop} (x : MemoryM α) : Triple P x (fun _ _ => True) :=
  fun _ _ _ _ _ => trivial

/-- The item exists, and `present` lists exactly the properties it has rows for. -/
def HasProperties (itemId : String) (present : List String) (m : Memory) : Prop :=
  (item? m.tables itemId).isSome ∧
    ∀ prop, (m.tables.styles.any fun s => s.itemId == itemId && s.property == prop) = present.contains prop

theorem hasProperties_updateStyle {itemId : String} {present : List String} (e : StyleEdit) :
    Triple (HasProperties itemId present) (updateStyle (e.toStyle itemId))
      (fun _ => HasProperties itemId present) := by
  rintro m a m' ⟨hitem, hprops⟩ h
  rcases updateStyle_cases (e.toStyle itemId) m with ⟨e', he⟩ | ⟨-, he⟩ <;> rw [he] at h
  · cases h
  obtain ⟨-, rfl⟩ := Prod.mk.inj h
  refine ⟨hitem, fun prop => ?_⟩
  rw [← hprops prop, List.any_map]
  congr 1
  funext s
  simp only [Function.comp_apply]
  split
  · rename_i hs
    obtain ⟨h1, h2⟩ : s.itemId = itemId ∧ s.property = e.property := by simpa [StyleEdit.toStyle] using hs
    simp [StyleEdit.toStyle, h1, h2]
  · rfl

theorem hasProperties_insertStyle {itemId : String} {present : List String} (e : StyleEdit) :
    Triple (HasProperties itemId present) (insertStyle (e.toStyle itemId))
      (fun _ => HasProperties itemId (e.property :: present)) := by
  rintro m a m' ⟨hitem, hprops⟩ h
  rcases insertStyle_cases (e.toStyle itemId) m with ⟨e', he⟩ | ⟨-, -, he⟩ <;> rw [he] at h
  · cases h
  obtain ⟨-, rfl⟩ := Prod.mk.inj h
  refine ⟨hitem, fun prop => ?_⟩
  simp only [List.any_append, hprops prop, List.any_cons, List.any_nil, Bool.or_false,
    List.contains_cons]
  by_cases hp : prop = e.property
  · subst hp
    simp [StyleEdit.toStyle]
  · simp only [StyleEdit.toStyle, beq_self_eq_true, Bool.true_and, beq_false_of_ne hp,
      beq_false_of_ne (Ne.symm hp), Bool.or_false, Bool.false_or]

theorem onlyInjected_applyStyles (itemId : String) :
    ∀ (edits : List StyleEdit) (present : List String),
      OnlyInjected (HasProperties itemId present) (StyleWrite.apply repository itemId edits present)
  | [], _ => OnlyInjected.pure _
  | e :: es, present => by
    unfold StyleWrite.apply
    dsimp only
    refine OnlyInjected.ite (fun hcontains => ?_) fun hcontains => ?_
    · refine ((onlyInjected_updateStyle _).mono fun m h => ?_).during _ |>.bind
        ((hasProperties_updateStyle e).during _) fun _ =>
          (onlyInjected_applyStyles itemId es present).bind (Triple.true _) fun _ => OnlyInjected.pure _
      show (m.tables.styles.any fun s => s.itemId == itemId && s.property == e.property) = true
      rw [h.2 e.property]
      exact hcontains
    · refine ((onlyInjected_insertStyle _).mono fun m h => ⟨h.1, ?_⟩).during _ |>.bind
        ((hasProperties_insertStyle e).during _) fun _ =>
          (onlyInjected_applyStyles itemId es _).bind (Triple.true _) fun _ => OnlyInjected.pure _
      show (m.tables.styles.any fun s => s.itemId == itemId && s.property == e.property) = false
      rw [h.2 e.property]
      simpa using hcontains

theorem hasProperties_listed {itemId : String} {m : Memory} (hitem : (item? m.tables itemId).isSome) :
    HasProperties itemId (((m.tables.styles.filter (·.itemId == itemId)).mergeSort
      (fun a b => a.property ≤ b.property)).map (·.property)) m := by
  refine ⟨hitem, fun prop => ?_⟩
  rw [Bool.eq_iff_iff, List.any_eq_true, List.contains_iff_mem, List.mem_map]
  simp only [List.mem_mergeSort, List.mem_filter, Bool.and_eq_true, beq_iff_eq]
  constructor
  · rintro ⟨s, hs, hid, hprop⟩
    exact ⟨s, ⟨hs, hid⟩, hprop⟩
  · rintro ⟨s, ⟨hs, hid⟩, hprop⟩
    exact ⟨s, hs, hid, hprop⟩

theorem onlyInjected_upsertStyles (itemId : String) (edits : List StyleEdit) :
    OnlyInjected (fun m => (item? m.tables itemId).isSome) (StyleWrite.upsert repository itemId edits) := by
  unfold StyleWrite.upsert
  refine OnlyInjected.ite (fun _ => OnlyInjected.pure _) fun _ => ?_
  refine ((OnlyInjected.of_never fun m e m' _ h => ?_).during _).bind
    (((readsOnly_listItemStyles itemId).triple_with fun m a h => (Prod.mk.inj h).1).during _)
    fun existing => (onlyInjected_applyStyles itemId edits _).mono fun m h => ?_
  · cases h
  · obtain ⟨hitem, hexisting⟩ := h
    rw [Except.ok.injEq] at hexisting
    rw [← hexisting]
    exact hasProperties_listed hitem

/-! ## Creating the planned nodes -/

section Nodes

variable {catalog : Catalog} {m₀ : Memory}

theorem Present.mono {doc : String} {ys ys' : List String} {m : Memory} (h : Present doc ys m)
    (hsub : ∀ y ∈ ys', y ∈ ys) : Present doc ys' m :=
  fun y hy => h y (hsub y hy)

theorem made_createItem (i : Item) (hp : i.parentId.isSome)
    (htext : i.itemText.length ≤ maxItemTextLength) (ys : List String) :
    Triple (fun m => Kept catalog m₀ m ∧ Present i.documentId ys m) (createItem i)
      (fun i' m => Kept catalog m₀ m ∧ Present i.documentId (ys ++ [i'.id]) m ∧
        HasProperties i'.id [] m) := by
  rintro m i' m' ⟨hk, hys⟩ h
  obtain ⟨hk', hmem, hdoc⟩ := kept_createItem i hp htext m i' m' hk h
  obtain ⟨rfl, rfl, -, -⟩ := createItem_ok h
  refine ⟨hk', fun y hy => ?_, item?_isSome_of_mem hmem, fun prop => ?_⟩
  · rcases List.mem_append.mp hy with hy | hy
    · obtain ⟨q, hq, hqy, hqd⟩ := hys y hy
      exact ⟨q, rows_addItem ▸ List.mem_append_left _ hq, hqy, hqd⟩
    · exact ⟨_, hmem, (List.mem_singleton.mp hy).symm, hdoc⟩
  · rw [List.contains_nil, Bool.eq_false_iff]
    intro hany
    obtain ⟨s, hs, hsid⟩ := List.any_eq_true.mp hany
    simp only [Bool.and_eq_true, beq_iff_eq] at hsid
    obtain ⟨q, hq, hqid⟩ := (hk.now.invariant.styles_valid s hs).1
    exact hk.now.fresh.item_ne_next hq (hqid.trans hsid.1)

theorem onlyInjected_createUnder (i : Item) {p : String} (hp : i.parentId = some p) {ys : List String}
    (hy : p ∈ ys) : OnlyInjected (fun m => Kept catalog m₀ m ∧ Present i.documentId ys m) (createItem i) := by
  refine (onlyInjected_createItem i).mono fun m h => ⟨document_of_present h.1 h.2 hy, fun x hx => ?_⟩
  rw [hp, Option.some.injEq] at hx
  obtain ⟨q, hq, hqx, hqd⟩ := h.2 p hy
  exact ⟨q, hx ▸ hqx ▸ item?_of_mem h.1.now.fresh hq, hqd⟩

theorem onlyInjected_createNodes (docId R : String) (p : Plan) (hR : p.rootItemId = R) :
    ∀ (nodes : List PlannedNode) (acc : List String), (∀ n ∈ nodes, Plan.Writable catalog n.text n.styles) →
      (∀ (i : Nat) (h : i < nodes.length) (k : Nat), nodes[i].parent = some k → k < acc.length + i) →
      OnlyInjected (fun m => Kept catalog m₀ m ∧ Present docId (R :: acc) m)
        (Plan.createNodes repository docId p nodes acc)
  | [], _, _, _ => OnlyInjected.pure _
  | n :: ns, acc, hw, hpar => by
    obtain ⟨htext, hstyles⟩ := hw n List.mem_cons_self
    have hns : ∀ n ∈ ns, Plan.Writable catalog n.text n.styles := fun n' h => hw n' (List.mem_cons_of_mem _ h)
    have hpar' : ∀ x : String, ∀ (i : Nat) (h : i < ns.length) (k : Nat), ns[i].parent = some k →
        k < (acc ++ [x]).length + i := fun x i h k hk => by
      have := hpar (i + 1) (by simpa using h) k hk
      simp only [List.length_append, List.length_singleton]
      omega
    -- the parent is the root item or an item created for an earlier node
    have hparent : n.parent.elim p.rootItemId (fun k => acc.getD k "") ∈ R :: acc := by
      cases hq : n.parent with
      | none => simp [hR]
      | some k =>
        have hk : k < acc.length := by simpa using hpar 0 (by simp) k hq
        simp [List.getD_eq_getElem?_getD, hk, List.getElem_mem]
    rw [createNodes_cons]
    dsimp only
    refine ((onlyInjected_createUnder _ rfl hparent).during _).bind
      ((made_createItem ⟨"", docId, some (n.parent.elim p.rootItemId fun k => acc.getD k ""), n.text,
        n.order, false⟩ rfl htext (R :: acc)).during _) fun item => ?_
    have hrest := (onlyInjected_createNodes docId R p hR ns (acc ++ [item.id]) hns (hpar' item.id)).mono
      fun m (h : Kept catalog m₀ m ∧ Present docId (R :: acc ++ [item.id]) m) => h
    refine OnlyInjected.ite (fun _ => ?_) fun _ => hrest.mono fun m h => ⟨h.1, h.2.1⟩
    exact ((onlyInjected_applyStyles item.id n.styles []).mono fun m h => h.2.2).during _ |>.bind
      (((kept_applyStyles (present_onRows docId _) item.id n.styles [] hstyles).mono
        (fun m h => ⟨h.1, h.2.1⟩) fun _ _ h => h).during _) fun _ => hrest

end Nodes

/-! ## Writing a plan -/

section Write

variable {catalog : Catalog} {m₀ : Memory}

theorem OnlyInjected.exists_pre {ι : Type} {P : ι → Memory → Prop} {x : MemoryM α}
    (h : ∀ i, OnlyInjected (P i) x) : OnlyInjected (fun m => ∃ i, P i m) x := by
  rintro m e m' ⟨i, hi⟩ hx
  exact h i m e m' hi hx

theorem found_updateDocument (id : String) (f : Document → Except Failure Document)
    (hf : ∀ d d', f d = .ok d' → d'.id = d.id) :
    Triple (fun m => (document? m.tables id).isSome) (updateDocument id f)
      (fun _ m => (document? m.tables id).isSome) := by
  intro m a m' _ h
  rcases updateDocument_cases id f m with ⟨e, he⟩ | ⟨d, d', hd, hfd, he⟩ <;> rw [he] at h
  · cases h
  · obtain ⟨-, rfl⟩ := Prod.mk.inj h
    obtain ⟨hmem, hid⟩ := document?_eq_some hd
    have hid' : d'.id = id := (hf d d' hfd).trans hid
    refine List.find?_isSome.mpr ⟨d', List.mem_map.mpr ⟨d, hmem, by simp [hid]⟩, by simp [hid']⟩

theorem found_of_itemsOf {m : Memory} (hk : Kept catalog m₀ m) {doc : String} {r : Item}
    (hr : r ∈ m.tables.itemsOf doc) :
    item? m.tables r.id = some r ∧ r.documentId = doc ∧ (document? m.tables doc).isSome := by
  obtain ⟨hmem, hdoc⟩ := List.mem_filter.mp hr
  rw [beq_iff_eq] at hdoc
  exact ⟨item?_of_mem hk.now.fresh hmem, hdoc,
    document_of_present hk (fun _ hy => ⟨r, hmem, (List.mem_singleton.mp hy).symm, hdoc⟩)
      (List.mem_singleton_self r.id)⟩

theorem onlyInjected_write {limits : Limits} {d : Document} {s : Snapshot} {p : Plan} {R : String}
    (hp : Plan.make catalog limits d s = .ok p) (hd : d ∈ m₀.tables.documents)
    (hR : d.rootItemId = some R)
    (hparents : ∀ (i : Nat) (h : i < p.nodes.length) (k : Nat), p.nodes[i].parent = some k → k < i) :
    OnlyInjected (fun m => Kept catalog m₀ m ∧ m.tables = m₀.tables) (p.write repository d) := by
  obtain ⟨-, hrootText, hrootStyles, hnodes⟩ := Plan.make_writable hp
  have hR' : p.rootItemId = R := Plan.make_rootItemId hp hR
  have hparents' : ∀ (i : Nat) (h : i < p.nodes.length) (k : Nat), p.nodes[i].parent = some k →
      k < ([] : List String).length + i := fun i h k hk => by simpa using hparents i h k hk
  unfold Plan.write
  dsimp only
  rw [hR']
  refine (OnlyInjected.atomically ?_ fun m h => ⟨h.1.inTransaction true, h.2⟩).bind (Triple.true _)
    fun _ => OnlyInjected.pure _
  have hlock : OnlyInjected (fun m => Kept catalog m₀ m ∧ m.tables = m₀.tables) (lockDocument d.id) :=
    (onlyInjected_lockDocument _).mono fun m h => by
      rw [h.2]
      exact document?_isSome_of_mem hd
  refine (hlock.during _).bind (((readsOnly_lockDocument _).triple _).during _) fun _ => ?_
  refine (((onlyInjected_deleteChildren _).mono fun _ _ => trivial).during _).bind
    ((items_deleteChildren hd hR).during _) fun removed => ?_
  -- from here on the root item is alone in the document, until the nodes are created
  have tail : OnlyInjected (fun m => Kept catalog m₀ m ∧ ∃ r, r.id = R ∧ m.tables.itemsOf d.id = [r]) (do
      let persisted ← Plan.createNodes repository d.id p p.nodes []
      Failure.during "set toc item" (repository.setTocItem d.id (p.tocItemId persisted))
      let time ← repository.now
      Failure.during "touch document" (repository.touchDocument d.id time)
      pure (removed, persisted)) := by
    refine (OnlyInjected.exists_pre
      (P := fun (r : Item) m => r.id = R ∧ Kept catalog m₀ m ∧ m.tables.itemsOf d.id = [r])
      fun r => ?_).mono fun m h => ?_
    swap
    · obtain ⟨hk, r, hr, h⟩ := h
      exact ⟨r, hr, hk, h⟩
    refine OnlyInjected.of_pre (fun _ h => h.1) fun hr => ?_
    have hmade := (onlyInjected_createNodes d.id R p hR' p.nodes [] hnodes hparents').mono
      fun m (h : r.id = R ∧ Kept catalog m₀ m ∧ m.tables.itemsOf d.id = [r]) =>
        ⟨h.2.1, fun y hy => ⟨r, (List.mem_filter.mp (h.2.2 ▸ List.mem_singleton_self r)).1,
          hr.trans (List.mem_singleton.mp hy).symm,
          (found_of_itemsOf h.2.1 (h.2.2 ▸ List.mem_singleton_self r)).2.1⟩⟩
    have hfound := (@items_createNodes catalog m₀ d.id p p.nodes [] [r] hnodes hparents').mono
      (fun m (h : r.id = R ∧ Kept catalog m₀ m ∧ m.tables.itemsOf d.id = [r]) => h.2)
      fun _ m h => show (document? m.tables d.id).isSome by
        obtain ⟨hk, _, -, -, -, hitems⟩ := h
        have hmem : r ∈ m.tables.itemsOf d.id := by
          rw [hitems]
          exact List.mem_append_left _ (List.mem_singleton_self r)
        exact (found_of_itemsOf hk hmem).2.2
    refine hmade.bind hfound fun persisted => ?_
    refine ((onlyInjected_setTocItem _ _).during _).bind
      ((found_updateDocument _ _ fun _ _ h => by cases h; rfl).during _) fun _ => ?_
    exact onlyInjected_now.bind (triple_now fun _ h => h) fun time =>
      ((onlyInjected_touchDocument _ time).during _).bind (Triple.true _) fun _ => OnlyInjected.pure _
  have hF : OnRows fun m => ∃ r, r.id = R ∧ m.tables.itemsOf d.id = [r] :=
    fun _ _ hrows h => by
      obtain ⟨r, hr, h⟩ := h
      exact ⟨r, hr, (Tables.itemsOf_of_rows hrows _).trans h⟩
  have hrootFound : ∀ m, (Kept catalog m₀ m ∧ ∃ r, r.id = R ∧ m.tables.itemsOf d.id = [r]) →
      ∃ r, item? m.tables R = some r ∧ r.documentId = d.id := fun m h => by
    obtain ⟨hk, r, rfl, hitems⟩ := h
    obtain ⟨hfound, hdoc, -⟩ := found_of_itemsOf hk (hitems ▸ List.mem_singleton_self r)
    exact ⟨r, hfound, hdoc⟩
  have styles : OnlyInjected (fun m => Kept catalog m₀ m ∧ ∃ r, r.id = R ∧ m.tables.itemsOf d.id = [r])
      (if (!p.rootStyles.isEmpty) = true then do
        let _ ← Failure.during "root styles" (StyleWrite.upsert repository R p.rootStyles)
        let persisted ← Plan.createNodes repository d.id p p.nodes []
        Failure.during "set toc item" (repository.setTocItem d.id (p.tocItemId persisted))
        let time ← repository.now
        Failure.during "touch document" (repository.touchDocument d.id time)
        pure (removed, persisted)
      else do
        let persisted ← Plan.createNodes repository d.id p p.nodes []
        Failure.during "set toc item" (repository.setTocItem d.id (p.tocItemId persisted))
        let time ← repository.now
        Failure.during "touch document" (repository.touchDocument d.id time)
        pure (removed, persisted)) := by
    refine OnlyInjected.ite (fun _ => ?_) fun _ => tail
    have hupsert := (onlyInjected_upsertStyles R p.rootStyles).mono fun m h => by
      obtain ⟨r, hr, -⟩ := hrootFound m h
      rw [hr]
      rfl
    exact (hupsert.during _).bind ((kept_upsertStyles hF _ hrootStyles).during _) fun _ => tail
  split
  · rename_i t ht
    exact (((onlyInjected_updateText _ _ _).mono hrootFound).during _).bind
      ((items_updateText (hrootText t ht)).during _) fun _ => styles
  · exact styles

end Write

/-! ## Copying a document -/

section Copy

variable {catalog : Catalog} {m₀ : Memory}

theorem found_createDocument (user : String) (visible : Bool) (time : Time.Instant) :
    Triple (fun m => Fresh m.minted m.tables) (createDocument user visible time)
      (fun d m => document? m.tables d.id = some d ∧ d.rootItemId = none) := by
  intro m d m' hf h
  rw [exec_createDocument, Prod.mk.injEq, Except.ok.injEq] at h
  obtain ⟨rfl, rfl⟩ := h
  refine ⟨?_, rfl⟩
  unfold document?
  rw [List.find?_append, List.find?_eq_none.mpr fun e he => by simpa using hf.document_ne_next he]
  simp

theorem onlyInjected_createWithRoot (user : String) :
    OnlyInjected (fun m => Fresh m.minted m.tables) (Copy.createWithRoot repository user) := by
  unfold Copy.createWithRoot
  dsimp only [repository]
  refine onlyInjected_now.bind (triple_now fun _ h => h) fun time => ?_
  refine (OnlyInjected.of_never fun m e m' _ h => ?_).bind (found_createDocument user false time) fun d => ?_
  · rw [exec_createDocument] at h
    cases h
  have hframe : Triple (fun m => document? m.tables d.id = some d ∧ d.rootItemId = none)
      (createItem ⟨"", d.id, none, "", 0, false⟩)
      (fun _ m => document? m.tables d.id = some d ∧ d.rootItemId = none) := by
    intro m i m' hm h
    obtain ⟨-, rfl, -, -⟩ := createItem_ok h
    exact hm
  have hroot : OnlyInjected (fun m => document? m.tables d.id = some d ∧ d.rootItemId = none)
      (createItem ⟨"", d.id, none, "", 0, false⟩) :=
    (onlyInjected_createItem _).mono fun m h => ⟨by rw [h.1]; rfl, fun _ hp => by cases hp⟩
  refine (hroot.during _).bind (hframe.during _) fun root => ?_
  refine (((onlyInjected_updateDocument _ _).mono fun m h => ⟨d, { d with rootItemId := some root.id },
    h.1, by simp [h.2]⟩).during _).bind (Triple.true _) fun _ => OnlyInjected.pure _

theorem present_createWithRoot (user : String) :
    Triple (Kept catalog m₀) (Copy.createWithRoot repository user)
      (fun x m => Kept catalog m₀ m ∧ Present x.1.id [x.2.id] m) := by
  intro m x m' hk h
  refine ⟨kept_createWithRoot user m x m' hk h, fun y hy => ?_⟩
  obtain ⟨htables, -, -, rfl⟩ := createWithRoot_ok hk.now.fresh h
  rw [List.mem_singleton.mp hy, htables, rows_withDocument]
  exact ⟨_, List.mem_append_right _ (List.mem_singleton_self _), rfl, rfl⟩

theorem present_updateText {text : String} (htext : text.length ≤ maxItemTextLength)
    (doc id : String) {docId : String} {ys : List String} :
    Triple (fun m => Kept catalog m₀ m ∧ Present docId ys m) (updateText doc id text)
      (fun _ m => Kept catalog m₀ m ∧ Present docId ys m) := by
  rintro m a m' ⟨hk, hys⟩ h
  refine ⟨kept_updateText htext doc id m a m' hk h, fun y hy => ?_⟩
  rcases updateText_cases doc id text m with ⟨e, he⟩ | ⟨i, -, -, he⟩ <;> rw [he] at h
  · cases h
  obtain ⟨-, rfl⟩ := Prod.mk.inj h
  obtain ⟨q, hq, hqy, hqd⟩ := hys y hy
  refine ⟨q.withText id text, ?_, by simp [hqy], by simp [hqd]⟩
  rw [rows_setText]
  exact List.mem_map_of_mem hq

theorem present_copyItem (docId destId : String) (src : Item)
    (htext : src.itemText.length ≤ maxItemTextLength) (ys : List String) (acc : List (String × String)) :
    Triple (fun m => Kept catalog m₀ m ∧ Present docId (ys ++ acc.map Prod.snd) m)
      (createItem ⟨"", docId, some destId, src.itemText, src.childOrder, false⟩)
      (fun dest m => Kept catalog m₀ m ∧ Present docId (ys ++ (acc ++ [(src.id, dest.id)]).map Prod.snd) m) :=
  (made_createItem ⟨"", docId, some destId, src.itemText, src.childOrder, false⟩ rfl htext _).mono
    (fun _ h => h) fun dest m h => by
      refine ⟨h.1, h.2.1.mono fun y hy => ?_⟩
      simpa [List.append_assoc] using hy

theorem present_copyChildren (docId destId : String) (ys : List String) :
    ∀ (srcs : List Item) (visited : List String) (acc : List (String × String)),
      (∀ i ∈ srcs, i.itemText.length ≤ maxItemTextLength) →
      Triple (fun m => Kept catalog m₀ m ∧ Present docId (ys ++ acc.map Prod.snd) m)
        (Copy.copyChildren repository docId destId srcs visited acc)
        (fun out m => Kept catalog m₀ m ∧ Present docId (ys ++ out.1.map Prod.snd) m) :=
  fun _ visited acc htexts => Triple.copyChildren_of
    (I := fun acc m => Kept catalog m₀ m ∧ Present docId (ys ++ acc.map Prod.snd) m)
    (fun src hsrc acc => present_copyItem docId destId src (htexts src hsrc) ys acc) visited acc

theorem onlyInjected_copyChildren (docId destId : String) (ys : List String) (hdest : destId ∈ ys) :
    ∀ (srcs : List Item) (visited : List String) (acc : List (String × String)),
      (∀ i ∈ srcs, i.itemText.length ≤ maxItemTextLength) →
      OnlyInjected (fun m => Kept catalog m₀ m ∧ Present docId (ys ++ acc.map Prod.snd) m)
        (Copy.copyChildren repository docId destId srcs visited acc)
  | [], _, acc, _ => OnlyInjected.pure _
  | src :: rest, visited, acc, htexts => by
    have hrest : ∀ i ∈ rest, i.itemText.length ≤ maxItemTextLength :=
      fun i h => htexts i (List.mem_cons_of_mem _ h)
    unfold Copy.copyChildren
    refine OnlyInjected.ite (fun _ => onlyInjected_copyChildren docId destId ys hdest rest visited acc hrest)
      fun _ => ?_
    exact ((onlyInjected_createUnder ⟨"", docId, some destId, src.itemText, src.childOrder, false⟩ rfl
      (List.mem_append_left _ hdest)).during _).bind
        ((present_copyItem docId destId src (htexts src List.mem_cons_self) ys acc).during _)
        fun _ => onlyInjected_copyChildren docId destId ys hdest rest _ _ hrest

theorem onlyInjected_copyWalk (docId : String) (items : List Item)
    (htexts : ∀ i ∈ items, i.itemText.length ≤ maxItemTextLength) :
    ∀ (fuel : Nat) (stack : List (String × String)) (visited : List String),
      OnlyInjected (fun m => Kept catalog m₀ m ∧ Present docId (stack.map Prod.snd) m)
        (Copy.walk repository docId items fuel stack visited)
  | 0, _, _ => OnlyInjected.pure _
  | _ + 1, [], _ => OnlyInjected.pure _
  | fuel + 1, (src, dest) :: stack, visited => by
    have hchildren : ∀ i ∈ ItemNode.childrenOf items src, i.itemText.length ≤ maxItemTextLength :=
      fun i h => htexts i (mem_childrenOf h)
    have hpre : ∀ m, (Kept catalog m₀ m ∧ Present docId (((src, dest) :: stack).map Prod.snd) m) →
        Kept catalog m₀ m ∧ Present docId ((dest :: stack.map Prod.snd) ++ ([] : List (String × String)).map Prod.snd) m :=
      fun _ h => ⟨h.1, by simpa using h.2⟩
    have hpost := (present_copyChildren docId dest (dest :: stack.map Prod.snd) _ visited [] hchildren).mono hpre
      fun out m h => show Kept catalog m₀ m ∧ Present docId ((out.1 ++ stack).map Prod.snd) m from
        ⟨h.1, h.2.mono fun y hy => by
          rw [List.map_append] at hy
          rcases List.mem_append.mp hy with hy | hy <;> simp [hy]⟩
    exact ((onlyInjected_copyChildren docId dest _ List.mem_cons_self _ visited [] hchildren).mono hpre).bind
      hpost fun _ => onlyInjected_copyWalk docId items htexts fuel _ _

theorem mem_sortedItems {t : Tables} {keep : Item → Bool} {i : Item} :
    i ∈ sortedItems t keep ↔ i ∈ t.rows ∧ keep i = true := by
  unfold sortedItems Tables.rows
  constructor
  · intro h
    obtain ⟨e, he, rfl⟩ := List.mem_map.mp h
    obtain ⟨he, hkeep⟩ := List.mem_filter.mp (List.mem_mergeSort.mp he)
    exact ⟨List.mem_map_of_mem he, hkeep⟩
  · rintro ⟨h, hkeep⟩
    obtain ⟨e, he, rfl⟩ := List.mem_map.mp h
    exact List.mem_map_of_mem (List.mem_mergeSort.mpr (List.mem_filter.mpr ⟨he, hkeep⟩))

theorem onlyInjected_replicate {d : Document} (hd : d ∈ m₀.tables.documents) (user : String) :
    OnlyInjected (Kept catalog m₀)
      (Copy.replicate repository d (sortedItems m₀.tables (·.documentId == d.id)) user) := by
  unfold Copy.replicate
  split
  · -- the root item is one of the document's items
    rename_i hnone
    refine OnlyInjected.of_false fun m hk => ?_
    obtain ⟨r, hr, hroot⟩ := hk.start.invariant.rooted d hd
    obtain ⟨j, hj, hjr, hjd, -⟩ := root_row hroot
    have hfound := List.find?_eq_none.mp hnone j (mem_sortedItems.mpr ⟨hj, by simp [hjd]⟩)
    simp [Document.rootId, hr, hjr] at hfound
  · rename_i srcRoot hsrc
    refine OnlyInjected.of_pre
      (Φ := ∀ i ∈ sortedItems m₀.tables (·.documentId == d.id), i.itemText.length ≤ maxItemTextLength)
      (fun m hk i hi => hk.start.invariant.texts_bounded i (mem_sortedItems.mp hi).1) fun htexts => ?_
    have htitle := effectiveTitle_length_le (htexts srcRoot (List.mem_of_find?_eq_some hsrc))
    refine OnlyInjected.atomically ?_ fun m h => h.inTransaction true
    refine (((onlyInjected_createWithRoot user).mono fun m h => h.now.fresh).during _).bind
      ((present_createWithRoot user).during _) fun x => ?_
    obtain ⟨copy, root⟩ := x
    dsimp only
    -- the copy's root item is found by its id, and stays while the copies go under it
    refine (((onlyInjected_updateText _ _ _).mono fun m h => ?_).during _).bind
      ((present_updateText htitle _ _).during _) fun _ => ?_
    · obtain ⟨q, hq, hqy, hqd⟩ := h.2 _ (List.mem_singleton_self _)
      exact ⟨q, hqy ▸ item?_of_mem h.1.now.fresh hq, hqd⟩
    exact ((onlyInjected_copyWalk _ _ htexts _ _ _).mono fun m h => ⟨h.1, by simpa using h.2⟩).bind
      (Triple.true _) fun _ => OnlyInjected.pure _

end Copy

end Memory

/-- On a reachable store, writing a plan made for one of its documents, and copying that document
from the items it lists, fail only by the injected storage failure. -/
theorem writes_fail_only_by_injection {catalog : Catalog} {limits₀ limits : Limits} {m : Memory}
    (hm : Reachable catalog limits₀ m) {d : Document} (hd : d ∈ m.tables.documents) {s : Snapshot}
    {p : Plan} (hp : Plan.make catalog limits d s = .ok p) (user : String) :
    (∀ e m', Memory.exec (p.write Memory.repository d) m = (.error e, m') → Injected e) ∧
    ∀ e m', Memory.exec (Copy.replicate Memory.repository d
      (Memory.sortedItems m.tables (·.documentId == d.id)) user) m = (.error e, m') → Injected e := by
  have hc := hm.consistent
  obtain ⟨R, hR, -⟩ := hc.invariant.rooted d hd
  obtain ⟨v, -, hwf, -, -, -, hnodes, -⟩ := Plan.make_placements hp
  have hparents := hwf.planned_parent_lt
  rw [← hnodes] at hparents
  exact ⟨fun e m' h => Memory.onlyInjected_write hp hd hR hparents m e m' ⟨Memory.Kept.refl hc, rfl⟩ h,
    fun e m' h => Memory.onlyInjected_replicate hd user m e m' (Memory.Kept.refl hc) h⟩

/-- The store after a first document is created, set to fail the second item creation. -/
def secondCreationFails : Memory :=
  (Memory.exec ((Call.create "alice").run Catalog.standard Limits.standard) (Memory.empty 2 secondsClock)).2

/-- On that store, writing the plan for one child does fail, and only by injection. -/
theorem second_creation_fails_only_by_injection :
    ∃ p, Plan.make Catalog.standard Limits.standard ⟨Uuid.minted 1, "alice", some (Uuid.minted 2), none, false, secondsClock 1, some (secondsClock 1)⟩
        oneChildSnapshot = .ok p ∧
      (Memory.exec (p.write Memory.repository ⟨Uuid.minted 1, "alice", some (Uuid.minted 2), none, false, secondsClock 1, some (secondsClock 1)⟩)
        secondCreationFails).1.isOk = false ∧
      ((∀ e m', Memory.exec (p.write Memory.repository ⟨Uuid.minted 1, "alice", some (Uuid.minted 2), none, false, secondsClock 1, some (secondsClock 1)⟩)
          secondCreationFails = (.error e, m') → Injected e) ∧
        ∀ e m', Memory.exec (Copy.replicate Memory.repository
          ⟨Uuid.minted 1, "alice", some (Uuid.minted 2), none, false, secondsClock 1, some (secondsClock 1)⟩
          (Memory.sortedItems secondCreationFails.tables (·.documentId == Uuid.minted 1)) "bob")
          secondCreationFails = (.error e, m') → Injected e) := by
  have hm : Reachable Catalog.standard Limits.standard secondCreationFails := .step _ (.empty 2 secondsClock)
  have hd : (⟨Uuid.minted 1, "alice", some (Uuid.minted 2), none, false, secondsClock 1, some (secondsClock 1)⟩ : Document) ∈
      secondCreationFails.tables.documents := by
    rw [show secondCreationFails.tables.documents =
      [⟨Uuid.minted 1, "alice", some (Uuid.minted 2), none, false, secondsClock 1, some (secondsClock 1)⟩] from rfl]
    exact List.mem_singleton_self _
  have hmade : (Plan.make Catalog.standard Limits.standard
      ⟨Uuid.minted 1, "alice", some (Uuid.minted 2), none, false, secondsClock 1, some (secondsClock 1)⟩ oneChildSnapshot).isOk = true := by
    decide +kernel
  cases hp : Plan.make Catalog.standard Limits.standard
      ⟨Uuid.minted 1, "alice", some (Uuid.minted 2), none, false, secondsClock 1, some (secondsClock 1)⟩ oneChildSnapshot with
  | error f =>
    rw [hp] at hmade
    cases hmade
  | ok p =>
    refine ⟨p, rfl, ?_, writes_fail_only_by_injection hm hd hp "bob"⟩
    have hfails : (Memory.exec ((Plan.make Catalog.standard Limits.standard
        ⟨Uuid.minted 1, "alice", some (Uuid.minted 2), none, false, secondsClock 1, some (secondsClock 1)⟩ oneChildSnapshot).toOption.elim
          (pure default) fun p => p.write Memory.repository
            ⟨Uuid.minted 1, "alice", some (Uuid.minted 2), none, false, secondsClock 1, some (secondsClock 1)⟩) secondCreationFails).1.isOk = false := by
      decide +kernel
    rw [hp] at hfails
    exact hfails

end Outliner
