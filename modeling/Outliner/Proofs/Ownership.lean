import Mathlib
import Outliner.Proofs.Holdings
import Outliner.Proofs.Integrity
import Outliner.Proofs.Rebuild

/-!
# A call changes only what its user owns

A call for the user `u` from the store `m₀` may write the documents of `Mine u m₀`: those `u`
owned at `m₀` and those created since. `Writes` is what such writes leave: every other
document holds its row, items and styles as they were, no category of another user is created,
and a category of another user goes only with a document of `Mine u m₀` that goes with it.
Each operation of the store, run on a consistent store, writes within the document it was
aimed at (`spared_*`); each service aims its operations at documents the editing user owns or
has just created; so each call keeps `Spared`.

The exception is real: deleting a document deletes every category on it, whoever put it
there.
-/

set_option autoImplicit false

namespace Outliner.Memory

variable {α : Type} {catalog : Catalog} {u : String} {m₀ : Memory}

/-- The documents that a run for `u` from `m₀` may write: those `u` owned at `m₀`, and those
created since, whose ids were not minted yet. -/
def Mine (u : String) (m₀ : Memory) (x : String) : Prop :=
  (∃ d ∈ m₀.tables.documents, d.id = x ∧ d.userId = u) ∨ ¬ MintedBy m₀.minted x

/-- Every item that had the id `y` at `m₀` belongs to a document that the run may write. -/
def MineId (u : String) (m₀ : Memory) (y : String) : Prop :=
  ∀ i ∈ m₀.tables.rows, i.id = y → Mine u m₀ i.documentId

/-- From `t` to `t'`, writes for `u` within the documents `W`, with ids minted up to `n`: every
other document holds what it held, no category of another user came, one went only with a
document of `W` that went, and every document was there or has an id `n` had not minted. -/
structure Writes (u : String) (W : String → Prop) (n : Nat) (t t' : Tables) : Prop where
  holdings : ∀ x, ¬ W x → t'.holdings x = t.holdings x
  added : ∀ c ∈ t'.categories, c.userId ≠ u → c ∈ t.categories
  removed : ∀ c ∈ t.categories, c.userId ≠ u → c ∉ t'.categories →
    W c.documentId ∧ ∀ d ∈ t'.documents, d.id ≠ c.documentId
  documents : ∀ d ∈ t'.documents, (∃ e ∈ t.documents, e.id = d.id) ∨ ¬ MintedBy n d.id

namespace Writes

variable {W : String → Prop} {n : Nat} {t t' : Tables}

theorem refl (t : Tables) : Writes u W n t t where
  holdings _ _ := rfl
  added _ h _ := h
  removed _ h _ h' := absurd h h'
  documents d hd := .inl ⟨d, hd, rfl⟩

theorem of_holdings (hh : ∀ x, ¬ W x → t'.holdings x = t.holdings x)
    (hc : t'.categories = t.categories) (hd : ∀ d ∈ t'.documents, ∃ e ∈ t.documents, e.id = d.id) :
    Writes u W n t t' where
  holdings := hh
  added _ h _ := hc ▸ h
  removed _ h _ h' := absurd (hc ▸ h) h'
  documents d h := .inl (hd d h)

theorem trans {t₃ : Tables} {n' : Nat} (h₁ : Writes u W n t t') (h₂ : Writes u W n' t' t₃)
    (hn : n ≤ n') (hplaced : ∀ c ∈ t.categories, MintedBy n c.documentId) : Writes u W n t t₃ where
  holdings x hx := (h₂.holdings x hx).trans (h₁.holdings x hx)
  added c hc hu := h₁.added c (h₂.added c hc hu) hu
  removed c hc hu hgone := by
    by_cases hc' : c ∈ t'.categories
    · exact h₂.removed c hc' hu hgone
    · obtain ⟨hw, hgone'⟩ := h₁.removed c hc hu hc'
      refine ⟨hw, fun d hd hid => ?_⟩
      rcases h₂.documents d hd with ⟨e, he, heid⟩ | hnew
      · exact hgone' e he (heid.trans hid)
      · exact hnew (hid ▸ (hplaced c hc).mono hn)
  documents d hd := by
    rcases h₂.documents d hd with ⟨e, he, heid⟩ | hnew
    · rcases h₁.documents e he with ⟨e', he', hid⟩ | hnew
      · exact .inl ⟨e', he', hid.trans heid⟩
      · exact .inr (heid ▸ hnew)
    · exact .inr fun hm => hnew (hm.mono hn)

end Writes

/-- A run for `u` from the consistent store `m₀` that spared what others own: ids only moved
forward, no category id is shared, and the writes stayed within `Mine u m₀`. -/
structure Spared (catalog : Catalog) (u : String) (m₀ m : Memory) : Prop where
  start : Consistent catalog m₀
  minted : m₀.minted ≤ m.minted
  categoryIds : CategoryIds m.minted m.tables
  writes : Writes u (Mine u m₀) m₀.minted m₀.tables m.tables

/-- A consistent store that a run for `u` from `m₀` reached, sparing what others own. -/
def Sparing (catalog : Catalog) (u : String) (m₀ m : Memory) : Prop :=
  Consistent catalog m ∧ Spared catalog u m₀ m

namespace Spared

variable {m m' : Memory}

theorem refl (hc : Consistent catalog m) (hids : CategoryIds m.minted m.tables) :
    Spared catalog u m m :=
  ⟨hc, Nat.le_refl _, hids, Writes.refl _⟩

theorem step (h : Spared catalog u m₀ m) (hn : m.minted ≤ m'.minted)
    (hids : CategoryIds m'.minted m'.tables) (hw : Writes u (Mine u m₀) m.minted m.tables m'.tables) :
    Spared catalog u m₀ m' where
  start := h.start
  minted := Nat.le_trans h.minted hn
  categoryIds := hids
  writes := h.writes.trans hw h.minted fun c hc => by
    obtain ⟨d, hd, hid⟩ := h.start.invariant.categories_placed c hc
    exact hid ▸ h.start.fresh.documents_minted d hd

theorem inTransaction (h : Spared catalog u m₀ m) (b : Bool) :
    Spared catalog u m₀ { m with inTransaction := b } :=
  ⟨h.start, h.minted, h.categoryIds, h.writes⟩

theorem tick (h : Spared catalog u m₀ m) : Spared catalog u m₀ { m with readings := m.readings + 1 } :=
  ⟨h.start, h.minted, h.categoryIds, h.writes⟩

theorem mine_of_owned (h : Spared catalog u m₀ m) {d : Document} (hd : d ∈ m.tables.documents)
    (hu : d.userId = u) : Mine u m₀ d.id := by
  by_contra hn
  exact hn (.inl ⟨d, Tables.mem_documents_of_holdings (h.writes.holdings d.id hn) hd rfl, rfl, hu⟩)

theorem mine_of_next (h : Spared catalog u m₀ m) : Mine u m₀ (Uuid.minted (m.minted + 1)) :=
  .inr fun hm => not_mintedBy_next m.minted (hm.mono h.minted)

theorem mineId (h : Spared catalog u m₀ m) (hc : Consistent catalog m) {i : Item}
    (hi : i ∈ m.tables.rows) (hmine : Mine u m₀ i.documentId) : MineId u m₀ i.id := by
  intro j hj hjid
  by_contra hn
  obtain ⟨e, he, rfl⟩ := List.mem_map.mp hj
  have he' := Tables.mem_items_of_holdings (h.writes.holdings _ hn).symm he rfl
  exact hn (hc.fresh.item_eq (List.mem_map_of_mem he') hi hjid ▸ hmine)

theorem id_ne (h : Spared catalog u m₀ m) {y x : String} (hy : MineId u m₀ y) (hx : ¬ Mine u m₀ x)
    {e : Item × Nat} (he : e ∈ m.tables.items) (hex : e.1.documentId = x) : e.1.id ≠ y := by
  intro hid
  have he' := Tables.mem_items_of_holdings (h.writes.holdings x hx) he hex
  exact hx (hex ▸ hy e.1 (List.mem_map_of_mem he') hid)

end Spared

theorem Sparing.inTransaction {m : Memory} (h : Sparing catalog u m₀ m) (b : Bool) :
    Sparing catalog u m₀ { m with inTransaction := b } :=
  ⟨h.1.of_frame rfl rfl, h.2.inTransaction b⟩

theorem sparing_now : Triple (Sparing catalog u m₀) now (fun _ => Sparing catalog u m₀) :=
  triple_now fun _ h => ⟨h.1.of_frame rfl rfl, h.2.tick⟩

theorem Triple.sparing {x : MemoryM α}
    (hk : ∀ m₁, Triple (Kept catalog m₁) x (fun _ => Kept catalog m₁))
    (hs : Triple (Sparing catalog u m₀) x (fun _ => Spared catalog u m₀)) :
    Triple (Sparing catalog u m₀) x (fun _ => Sparing catalog u m₀) :=
  fun m a m' h hx => ⟨(hk m m a m' (Kept.refl h.1) hx).now, hs m a m' h hx⟩

/-! ## Each operation writes within the document it is aimed at -/

section Operations

theorem spared_updateText {doc : String} (hdoc : Mine u m₀ doc) (id text : String) :
    Triple (Sparing catalog u m₀) (updateText doc id text) (fun _ => Spared catalog u m₀) := by
  rintro m a m' ⟨hc, h⟩ hx
  rcases updateText_cases doc id text m with ⟨e, he⟩ | ⟨i, hi, hid, he⟩ <;> rw [he] at hx
  · cases hx
  obtain ⟨-, rfl⟩ := Prod.mk.inj hx
  refine h.step (Nat.le_refl _) (h.categoryIds.of_categories (Nat.le_refl _) rfl)
    (Writes.of_holdings (fun x hx => ?_) rfl fun d hd => ⟨d, hd, rfl⟩)
  refine Tables.holdings_mapItems _ (fun e _ => by split <;> rfl) fun e he hex => ?_
  have hne : e.1.id ≠ id := by
    intro heid
    obtain ⟨hi', hiid⟩ := item?_eq_some hi
    have hei : e.1 = i := hc.fresh.item_eq (List.mem_map_of_mem he) hi' (heid.trans hiid.symm)
    apply hx
    rw [← hex, hei, hid]
    exact hdoc
  simp [hne]

theorem spared_updateDocument {id : String} (hid : Mine u m₀ id) (f : Document → Except Failure Document)
    (hf : ∀ d d', f d = .ok d' → d'.id = d.id) :
    Triple (Spared catalog u m₀) (updateDocument id f) (fun _ => Spared catalog u m₀) := by
  intro m a m' h hx
  rcases updateDocument_cases id f m with ⟨e, he⟩ | ⟨d, d', hd, hfd, he⟩ <;> rw [he] at hx
  · cases hx
  obtain ⟨-, rfl⟩ := Prod.mk.inj hx
  have hd'id : d'.id = id := (hf d d' hfd).trans (document?_eq_some hd).2
  have hg : ∀ e : Document, (if e.id == id then d' else e).id = e.id := fun e => by
    by_cases he : e.id = id
    · simp [he, hd'id]
    · simp [he]
  refine h.step (Nat.le_refl _) (h.categoryIds.of_categories (Nat.le_refl _) rfl)
    (Writes.of_holdings (fun x hx => ?_) rfl fun e he => ?_)
  · refine Tables.holdings_mapDocuments _ (fun e _ => hg e) fun e _ hex => ?_
    have hne : e.id ≠ id := fun h' => hx (by rw [← hex, h']; exact hid)
    simp [hne]
  · obtain ⟨e₀, he₀, rfl⟩ := List.mem_map.mp he
    exact ⟨e₀, he₀, (hg e₀).symm⟩

theorem spared_touchDocument {id : String} (hid : Mine u m₀ id) (time : Time.Instant) :
    Triple (Spared catalog u m₀) (touchDocument id time) (fun _ => Spared catalog u m₀) :=
  spared_updateDocument hid _ fun d d' h => by cases h; rfl

theorem spared_setPubliclyViewable {id : String} (hid : Mine u m₀ id) (v : Bool) :
    Triple (Spared catalog u m₀) (setPubliclyViewable id v) (fun _ => Spared catalog u m₀) :=
  spared_updateDocument hid _ fun d d' h => by cases h; rfl

theorem spared_setTocItem {id : String} (hid : Mine u m₀ id) (toc : Option String) :
    Triple (Spared catalog u m₀) (setTocItem id toc) (fun _ => Spared catalog u m₀) :=
  spared_updateDocument hid _ fun d d' h => by cases h; rfl

theorem spared_createItem (i : Item) (hi : Mine u m₀ i.documentId) :
    Triple (Spared catalog u m₀) (createItem i) (fun _ => Spared catalog u m₀) := by
  intro m i' m' h hx
  obtain ⟨rfl, rfl, -, -⟩ := createItem_ok hx
  refine h.step (Nat.le_succ _) (h.categoryIds.of_categories (Nat.le_succ _) rfl)
    (Writes.of_holdings (fun x hx => Tables.holdings_addItem _ fun he => hx ?_) rfl
      fun d hd => ⟨d, hd, rfl⟩)
  rw [← he]
  exact hi

theorem spared_deleteChildren {p : String} (hp : MineId u m₀ p) :
    Triple (Sparing catalog u m₀) (deleteChildren p) (fun _ => Spared catalog u m₀) := by
  rintro m a m' ⟨hc, h⟩ hx
  rw [exec_deleteChildren] at hx
  obtain ⟨-, rfl⟩ := Prod.mk.inj hx
  refine h.step (Nat.le_refl _) (h.categoryIds.of_categories (Nat.le_refl _) rfl)
    (Writes.of_holdings (fun x hx => ?_) rfl fun d hd => ?_)
  · -- the cascade reaches only the document of an item under `p`, which holds `p` itself
    have hrow : ∀ k ∈ m.tables.rows, k.documentId = x →
        k.id ∉ deletedIds ((m.tables.items.filter fun e => e.1.isChildOf p).map (·.1.id)) m.tables := by
      intro k hk hkx hg
      obtain ⟨j, hj, hjroot, hjdoc⟩ := Tables.doc_of_mem_deletedIds hc.invariant hc.fresh hg hk rfl
      obtain ⟨e, he, hej⟩ := List.mem_map.mp hjroot
      obtain ⟨he, hchild⟩ := List.mem_filter.mp he
      have hje : j = e.1 := hc.fresh.item_eq hj (List.mem_map_of_mem he) hej.symm
      have hpar : e.1.parentId = some p := by simpa [Item.isChildOf] using hchild
      obtain ⟨q, hq, hqid, hqdoc⟩ := hc.invariant.parent_linked e.1 (List.mem_map_of_mem he) p hpar
      obtain ⟨q', hq', rfl⟩ := List.mem_map.mp hq
      exact h.id_ne hp hx hq' (by rw [hqdoc, ← hje, hjdoc, hkx]) hqid
    exact Tables.holdings_deleteSubtrees (fun e he hex => hrow e.1 (List.mem_map_of_mem he) hex)
      fun d hd hdx i hi => by
        obtain ⟨k, hk, hki, hkd⟩ := hc.invariant.toc_valid d hd i hi
        exact hki ▸ hrow k hk (hkd.trans hdx)
  · rw [Tables.documents_deleteSubtrees] at hd
    obtain ⟨e, he, rfl⟩ := List.mem_map.mp hd
    exact ⟨e, he, (Document.clearToc_id _ _).symm⟩

theorem spared_insertStyle {st : Style} (hst : MineId u m₀ st.itemId) :
    Triple (Sparing catalog u m₀) (insertStyle st) (fun _ => Spared catalog u m₀) := by
  rintro m a m' ⟨-, h⟩ hx
  rcases insertStyle_cases st m with ⟨e, he⟩ | ⟨-, -, he⟩ <;> rw [he] at hx
  · cases hx
  obtain ⟨-, rfl⟩ := Prod.mk.inj hx
  exact h.step (Nat.le_refl _) (h.categoryIds.of_categories (Nat.le_refl _) rfl)
    (Writes.of_holdings (fun x hx => Tables.holdings_addStyle st fun e he hex => h.id_ne hst hx he hex)
      rfl fun d hd => ⟨d, hd, rfl⟩)

theorem spared_updateStyle {st : Style} (hst : MineId u m₀ st.itemId) :
    Triple (Sparing catalog u m₀) (updateStyle st) (fun _ => Spared catalog u m₀) := by
  rintro m a m' ⟨-, h⟩ hx
  rcases updateStyle_cases st m with ⟨e, he⟩ | ⟨-, he⟩ <;> rw [he] at hx
  · cases hx
  obtain ⟨-, rfl⟩ := Prod.mk.inj hx
  refine h.step (Nat.le_refl _) (h.categoryIds.of_categories (Nat.le_refl _) rfl)
    (Writes.of_holdings (fun x hx => Tables.holdings_mapStyles _ (fun s _ => ?_)
      fun s _ e he hex hid => ?_) rfl fun d hd => ⟨d, hd, rfl⟩)
  · split
    · rename_i hs
      simp only [Bool.and_eq_true, beq_iff_eq] at hs
      exact hs.1.symm
    · rfl
  · have hne : (s.itemId == st.itemId) = false := by
      simpa [← hid] using h.id_ne hst hx he hex
    simp [hne]

theorem spared_createCategory (doc name : String) :
    Triple (Spared catalog u m₀) (createCategory u doc name) (fun _ => Spared catalog u m₀) := by
  intro m c m' h hx
  rcases createCategory_cases u doc name m with ⟨e, he⟩ | ⟨-, he⟩ <;> rw [he] at hx
  · cases hx
  obtain ⟨-, rfl⟩ := Prod.mk.inj hx
  refine h.step (Nat.le_succ _) (h.categoryIds.add rfl rfl)
    ⟨fun _ _ => rfl, fun c hc hu => ?_, fun c hc _ hgone => absurd (List.mem_append_left _ hc) hgone,
      fun d hd => .inl ⟨d, hd, rfl⟩⟩
  rcases List.mem_append.mp hc with hc | hc
  · exact hc
  · rw [List.mem_singleton.mp hc] at hu
    exact absurd rfl hu

theorem spared_deleteCategory (doc name : String) :
    Triple (Spared catalog u m₀) (deleteCategory u doc name) (fun _ => Spared catalog u m₀) := by
  intro m a m' h hx
  rcases deleteCategory_cases u doc name m with ⟨e, he⟩ | ⟨c, hfind, he⟩ <;> rw [he] at hx
  · cases hx
  obtain ⟨-, rfl⟩ := Prod.mk.inj hx
  have hcu : c.userId = u := by
    have hp := List.find?_some hfind
    simp only [Bool.and_eq_true, beq_iff_eq] at hp
    exact hp.1.1
  refine h.step (Nat.le_refl _) (h.categoryIds.filter _ rfl)
    ⟨fun _ _ => rfl, fun c' hc' _ => (List.mem_filter.mp hc').1, fun c' hc' hu hgone => ?_,
      fun d hd => .inl ⟨d, hd, rfl⟩⟩
  have hid : c'.id = c.id := by
    by_contra hne
    exact hgone (List.mem_filter.mpr ⟨hc', by simpa using hne⟩)
  rw [h.categoryIds.eq_of_id hc' (List.mem_of_find?_eq_some hfind) hid] at hu
  exact absurd hcu hu

theorem spared_deleteDocument {id : String} (hid : Mine u m₀ id) :
    Triple (Sparing catalog u m₀) (deleteDocument id) (fun _ => Spared catalog u m₀) := by
  rintro m a m' ⟨hc, h⟩ hx
  rcases deleteDocument_cases id m with ⟨-, he⟩ | ⟨-, he⟩ <;> rw [he] at hx
  · cases hx
  obtain ⟨-, rfl⟩ := Prod.mk.inj hx
  dsimp only
  refine h.step (Nat.le_refl _) (h.categoryIds.filter _ rfl)
    ⟨fun x hx => ?_, fun c hc _ => (List.mem_filter.mp hc).1, fun c hc _ hgone => ?_, fun d hd => ?_⟩
  · have hxid : x ≠ id := fun h' => hx (h' ▸ hid)
    -- the cascade from the document's parentless items stays in the document
    have hrow : ∀ k ∈ m.tables.rows, k.documentId = x → k.id ∉ deletedIds
        ((m.tables.items.filter fun e => e.1.documentId == id && e.1.parentId.isNone).map (·.1.id))
          m.tables := by
      intro k hk hkx hg
      obtain ⟨j, hj, hjroot, hjdoc⟩ := Tables.doc_of_mem_deletedIds hc.invariant hc.fresh hg hk rfl
      obtain ⟨e, he, hej⟩ := List.mem_map.mp hjroot
      obtain ⟨he, hroot⟩ := List.mem_filter.mp he
      have hje : j = e.1 := hc.fresh.item_eq hj (List.mem_map_of_mem he) hej.symm
      simp only [Bool.and_eq_true, beq_iff_eq] at hroot
      exact hxid (by rw [← hkx, ← hjdoc, hje, hroot.1])
    refine (Tables.holdings_filterDocuments _ _ fun d _ hdx => ?_).trans
      (Tables.holdings_deleteSubtrees (fun e he hex => hrow e.1 (List.mem_map_of_mem he) hex)
        fun d hd hdx i hi => ?_)
    · simpa [hdx] using hxid
    · obtain ⟨k, hk, hki, hkd⟩ := hc.invariant.toc_valid d hd i hi
      exact hki ▸ hrow k hk (hkd.trans hdx)
  · have hcid : c.documentId = id := by
      by_contra hne
      exact hgone (List.mem_filter.mpr ⟨hc, by simpa using hne⟩)
    refine ⟨hcid ▸ hid, fun d hd hdc => ?_⟩
    have := (List.mem_filter.mp hd).2
    simp [hdc, hcid] at this
  · obtain ⟨hd, -⟩ := List.mem_filter.mp hd
    rw [Tables.documents_deleteSubtrees] at hd
    obtain ⟨e, he, rfl⟩ := List.mem_map.mp hd
    exact .inl ⟨e, he, (Document.clearToc_id _ _).symm⟩

theorem sparing_createWithRoot (user : String) :
    Triple (Sparing catalog u m₀) (Copy.createWithRoot repository user)
      (fun x m => Sparing catalog u m₀ m ∧ Mine u m₀ x.1.id) := by
  rintro m x m' ⟨hc, h⟩ hx
  have hk := kept_createWithRoot user m x m' (Kept.refl hc) hx
  obtain ⟨htables, hminted, -, rfl⟩ := createWithRoot_ok hc.fresh hx
  have hnew : Mine u m₀ (Uuid.minted (m.minted + 1)) := h.mine_of_next
  have hw : Writes u (Mine u m₀) m.minted m.tables
      (m.tables.withDocument m.minted (m.sequence + 1) user (m.clock (m.readings + 1))) := by
    refine ⟨fun y hy => Tables.holdings_withDocument fun he => hy (he ▸ hnew), fun c hc _ => hc,
      fun c hc _ h' => absurd hc h', fun d hd => ?_⟩
    rcases List.mem_append.mp hd with hd | hd
    · exact .inl ⟨d, hd, rfl⟩
    · rw [List.mem_singleton.mp hd]
      exact .inr (not_mintedBy_next _)
  refine ⟨⟨hk.now, h.step (by omega) (h.categoryIds.of_categories (by omega) (by rw [htables]; rfl))
    (by rw [htables]; exact hw)⟩, hnew⟩

end Operations

/-! ## Each service aims its writes at documents of its user -/

section Services

theorem Triple.ite_of {P : Memory → Prop} {Q : α → Memory → Prop} {c : Prop} [Decidable c]
    {x y : MemoryM α} (hx : c → Triple P x Q) (hy : ¬ c → Triple P y Q) :
    Triple P (if c then x else y) Q := by
  split
  · rename_i h
    exact hx h
  · rename_i h
    exact hy h

theorem atomically_spared {body : MemoryM α}
    (hb : Triple (Sparing catalog u m₀) body (fun _ => Spared catalog u m₀)) :
    Triple (Sparing catalog u m₀) (repository.atomically body) (fun _ => Spared catalog u m₀) :=
  Triple.atomically hb (fun _ h => h.inTransaction true) fun _ _ h => h.inTransaction false

theorem isOwner_userId {user : String} {d : Document} (h : Access.isOwner user d = true) :
    d.userId = user := by
  unfold Access.isOwner at h
  simp only [Bool.and_eq_true, beq_iff_eq] at h
  exact h.2

theorem triple_canEdit_owner (P : Memory → Prop) (user docId : String) :
    Triple P (Access.canEdit repository user docId)
      (fun d m => P m ∧ d ∈ m.tables.documents ∧ d.userId = user) := by
  unfold Access.canEdit Access.load
  refine Triple.ite (Triple.raise _ _ _) (Triple.bind (((readsOnly_getDocument docId).triple_with
    fun m d h => getDocument_ok h).during _) fun d => ?_)
  exact Triple.ite_of (fun hown => Triple.pure_of d fun _ h => ⟨h.1, h.2, isOwner_userId hown⟩)
    fun _ => Triple.raise _ _ _

theorem sparing_applyStyles {itemId : String} (hid : MineId u m₀ itemId) :
    ∀ (edits : List StyleEdit) (present : List String), (∀ e ∈ edits, catalog.validate e = .ok ()) →
      Triple (Sparing catalog u m₀) (StyleWrite.apply repository itemId edits present)
        (fun _ => Sparing catalog u m₀) := fun _ present hv =>
  Triple.applyStyles_of
    (fun _ he => Triple.sparing (fun _ => kept_updateStyle (StyleEdit.validate_toStyle hv he itemId))
      (spared_updateStyle hid))
    (fun _ he => Triple.sparing (fun _ => kept_insertStyle (StyleEdit.validate_toStyle hv he itemId))
      (spared_insertStyle hid))
    present

theorem sparing_upsertStyles {itemId : String} (hid : MineId u m₀ itemId) {edits : List StyleEdit}
    (hv : ∀ e ∈ edits, catalog.validate e = .ok ()) :
    Triple (Sparing catalog u m₀) (StyleWrite.upsert repository itemId edits)
      (fun _ => Sparing catalog u m₀) :=
  Triple.upsertStyles_of
    (fun _ he => Triple.sparing (fun _ => kept_updateStyle (StyleEdit.validate_toStyle hv he itemId))
      (spared_updateStyle hid))
    (fun _ he => Triple.sparing (fun _ => kept_insertStyle (StyleEdit.validate_toStyle hv he itemId))
      (spared_insertStyle hid))

theorem sparing_createNodes {docId : String} (hdoc : Mine u m₀ docId) (p : Plan)
    (nodes : List PlannedNode) :
    ∀ acc : List String, (∀ n ∈ nodes, Plan.Writable catalog n.text n.styles) →
      Triple (Sparing catalog u m₀) (Plan.createNodes repository docId p nodes acc)
        (fun _ => Sparing catalog u m₀) := by
  intro acc hw
  refine Triple.createNodes_of (I := fun _ => Sparing catalog u m₀) (fun n hn _ _ => ?_)
    (fun n hn _ _ hid => sparing_applyStyles hid n.styles [] (hw n hn).2) acc
  rintro m item m' ⟨hc, h⟩ hx
  obtain ⟨hk, hmem, hdocId⟩ := kept_createItem _ rfl (hw n hn).1 m item m' (Kept.refl hc) hx
  have h' := spared_createItem _ hdoc m item m' h hx
  exact ⟨⟨hk.now, h'⟩, h'.mineId hk.now hmem (hdocId ▸ hdoc)⟩

theorem spared_write {limits : Limits} {d : Document} {s : Snapshot} {p : Plan}
    (hp : Plan.make catalog limits d s = .ok p) (hdoc : Mine u m₀ d.id)
    (hR : MineId u m₀ p.rootItemId) :
    Triple (Sparing catalog u m₀) (p.write repository d) (fun _ => Spared catalog u m₀) := by
  obtain ⟨-, hrootText, hrootStyles, hnodes⟩ := Plan.make_writable hp
  exact Triple.write_of (fun _ h => h.inTransaction true) (fun _ _ h => h.inTransaction false)
    (Triple.sparing (fun _ => kept_deleteChildren _) (spared_deleteChildren hR))
    (fun t ht => Triple.sparing (fun _ => kept_updateText (hrootText t ht) _ _)
      (spared_updateText hdoc _ _))
    (fun _ => sparing_upsertStyles hR hrootStyles) (fun _ _ h => h)
    (sparing_createNodes hdoc p p.nodes [] hnodes)
    (fun _ => (spared_setTocItem hdoc _).mono (fun _ h => h.2) fun _ _ h => h)
    (fun _ _ h => h.tick) (fun _ _ => spared_touchDocument hdoc _) fun _ _ _ h => h

theorem sparing_replicate (source : Document) (items : List Item)
    (htexts : ∀ i ∈ items, i.itemText.length ≤ maxItemTextLength) :
    Triple (Sparing catalog u m₀) (Copy.replicate repository source items u)
      (fun _ => Sparing catalog u m₀) :=
  Triple.replicate_of (J := Mine u m₀) (fun _ h => h.inTransaction true)
    (fun _ h => h.inTransaction false) (sparing_createWithRoot u)
    (fun src hsrc _ _ hd => Triple.sparing
      (fun _ => kept_updateText (effectiveTitle_length_le (htexts src hsrc)) _ _)
      (spared_updateText hd _ _))
    fun docId hd src hsrc destId => Triple.sparing
      (fun _ => (kept_createItem ⟨"", docId, some destId, src.itemText, src.childOrder, false⟩ rfl
        (htexts src hsrc)).mono (fun _ h => h) fun _ _ h => h.1)
      ((spared_createItem _ hd).mono (fun _ h => h.2) fun _ _ h => h)

theorem spared_create (user : String) :
    Triple (Sparing catalog user m₀) (Documents.create repository user)
      (fun _ => Spared catalog user m₀) :=
  Triple.ite (Triple.raise _ _ _)
    (atomically_spared ((sparing_createWithRoot user).bind fun _ => Triple.pure_of _ fun _ h => h.1.2))

theorem spared_rename (user docId name : String) :
    Triple (Sparing catalog user m₀) (Documents.rename repository user docId name)
      (fun _ => Spared catalog user m₀) := by
  unfold Documents.rename
  refine (triple_check _ _).bind fun _ => Triple.of_pre (fun _ h => checkName_ok h.2) fun hname => ?_
  refine (triple_canEdit_owner _ user docId).bind fun d =>
    Triple.of_pre (fun _ h => h.1.1.2.mine_of_owned h.2.1 h.2.2) fun hdoc => ?_
  exact (atomically_spared ((Triple.sparing (fun _ => kept_updateText hname _ _)
    (spared_updateText hdoc _ _)).bind fun _ => sparing_now.bind fun _ =>
      (spared_touchDocument hdoc _).mono (fun _ h => h.2) fun _ _ h => h)).mono (fun _ h => h.1.1) fun _ _ h => h

theorem spared_editTexts (user docId : String) (texts : List (String × String)) :
    Triple (Sparing catalog user m₀) (Documents.editTexts repository user docId texts)
      (fun _ => Spared catalog user m₀) := by
  unfold Documents.editTexts
  refine (triple_check _ _).bind fun _ => Triple.of_pre (fun _ h => checkTexts_ok h.2) fun htexts => ?_
  refine (triple_canEdit_owner _ user docId).bind fun d =>
    Triple.of_pre (fun _ h => h.1.1.2.mine_of_owned h.2.1 h.2.2) fun hdoc => ?_
  refine (atomically_spared (((readsOnly_listItems _).triple _).bind fun items =>
    (Triple.forIn (fun i _ => ?_) _ _).bind fun _ => sparing_now.bind fun _ =>
      (spared_touchDocument hdoc _).mono (fun _ h => h.2) fun _ _ h => h)).mono
    (fun _ h => h.1.1) fun _ _ h => h
  split
  · rename_i k t hfind
    exact (Triple.sparing (fun _ => kept_updateText (htexts _ (List.mem_of_find?_eq_some hfind)) _ _)
      (spared_updateText hdoc _ _)).bind fun _ => Triple.pure_of _ fun _ h => h
  · exact Triple.pure_of _ fun _ h => h

theorem spared_setPublic (user docId : String) (visible : Bool) :
    Triple (Sparing catalog user m₀) (Documents.setPublic repository user docId visible)
      (fun _ => Spared catalog user m₀) :=
  (triple_canEdit_owner _ user docId).bind fun _ => Triple.of_pre
    (fun _ h => h.1.2.mine_of_owned h.2.1 h.2.2) fun hdoc =>
      (spared_setPubliclyViewable hdoc visible).mono (fun _ h => h.1.2) fun _ _ h => h

theorem spared_delete (user docId : String) :
    Triple (Sparing catalog user m₀) (Documents.delete repository user docId)
      (fun _ => Spared catalog user m₀) := by
  unfold Documents.delete
  refine Triple.ite (Triple.raise _ _ _) ((triple_canView _ user docId).bind fun d => ?_)
  refine ((readsOnly_isTrashed user d.id).triple _).bind fun _ =>
    Triple.ite ?_ (Triple.ite_of (fun _ => Triple.raise _ _ _) fun hown => ?_)
  · exact ((spared_createCategory d.id _).mono (fun _ h => h.1.2) fun _ _ h => h).bind fun _ =>
      Triple.pure_of _ fun _ h => h
  · have hu : d.userId = user := isOwner_userId (by simpa using hown)
    exact (Triple.of_pre (fun _ h => h.1.2.mine_of_owned h.2 hu) fun hdoc =>
      (spared_deleteDocument hdoc).mono (fun _ h => h.1) fun _ _ h => h).bind fun _ =>
        Triple.pure_of _ fun _ h => h

theorem spared_reconcile (limits : Limits) (user docId : String) (snap : Option Snapshot) :
    Triple (Sparing catalog user m₀) (Documents.reconcile repository catalog limits user docId snap)
      (fun _ => Spared catalog user m₀) := by
  unfold Documents.reconcile
  cases snap with
  | none => exact Triple.raise _ _ _
  | some s =>
    refine (triple_canEdit_owner _ user docId).bind fun d => ?_
    cases hp : Plan.make catalog limits d s with
    | error f => exact Triple.raise _ _ _
    | ok p =>
      have hmine : ∀ m, (Sparing catalog user m₀ m ∧ d ∈ m.tables.documents ∧ d.userId = user) →
          Mine user m₀ d.id ∧ MineId user m₀ p.rootItemId := by
        rintro m ⟨⟨hc, hs⟩, hd, hu⟩
        have hdoc := hs.mine_of_owned hd hu
        obtain ⟨r, hr, hroot⟩ := hc.invariant.rooted d hd
        obtain ⟨j, hj, hjr, hjd, -⟩ := root_row hroot
        have hpR : p.rootItemId = j.id := (Plan.make_rootItemId hp hr).trans hjr.symm
        exact ⟨hdoc, hpR ▸ hs.mineId hc hj (hjd ▸ hdoc)⟩
      exact Triple.of_pre hmine fun h => (spared_write hp h.1 h.2).mono (fun _ h => h.1) fun _ _ h => h

theorem spared_copy (user docId : String) :
    Triple (Sparing catalog user m₀) (Documents.copy repository user docId)
      (fun _ => Spared catalog user m₀) := by
  unfold Documents.copy
  refine Triple.ite (Triple.raise _ _ _) ((triple_canView _ user docId).bind fun src => ?_)
  refine (triple_listItems _ src.id).bind fun items => Triple.of_pre
    (fun _ h i hi => h.1.1.1.invariant.texts_bounded i (h.2 i hi).1) fun htexts => ?_
  exact (sparing_replicate src items htexts).mono (fun _ h => h.1.1) fun _ _ h => h.2

theorem spared_addCategory (user docId name : String) :
    Triple (Sparing catalog user m₀) (Categories.add repository user docId name)
      (fun _ => Spared catalog user m₀) := by
  unfold Categories.add
  exact Triple.ite (Triple.raise _ _ _) (((readsOnly_lift _).triple _).bind fun _ =>
    (triple_viewable _ user docId).bind fun d =>
      (spared_createCategory d.id _).mono (fun _ h => h.1.2) fun _ _ h => h)

theorem spared_removeCategory (user docId name : String) :
    Triple (Sparing catalog user m₀) (Categories.remove repository user docId name)
      (fun _ => Spared catalog user m₀) := by
  unfold Categories.remove
  exact ((readsOnly_lift _).triple _).bind fun _ => (triple_viewable _ user docId).bind fun d =>
    (spared_deleteCategory d.id _).mono (fun _ h => h.1.2) fun _ _ h => h

end Services

/-! ## Refusals -/

section Refusals

variable {m : Memory}

/-- The program fails when run from `m`. -/
def Fails (x : MemoryM α) (m : Memory) : Prop :=
  ∃ e, (exec x m).1 = .error e

namespace Fails

variable {β : Type}

theorem raise (e : Failure) : Fails (Failure.raise e : MemoryM α) m :=
  ⟨e, rfl⟩

theorem bind {x : MemoryM α} (h : Fails x m) (f : α → MemoryM β) : Fails (x >>= f) m := by
  obtain ⟨e, he⟩ := h
  rcases hx : exec x m with ⟨r, m'⟩
  rw [hx] at he
  subst he
  exact ⟨e, by rw [exec_bind_error hx]⟩

theorem bind_ok {x : MemoryM α} {f : α → MemoryM β} {a : α} (hx : exec x m = (.ok a, m))
    (h : Fails (f a) m) : Fails (x >>= f) m := by
  rw [Fails, exec_bind_ok hx]
  exact h

theorem map {x : MemoryM α} (h : Fails x m) (g : α → β) : Fails (g <$> x) m := by
  obtain ⟨e, he⟩ := h
  exact ⟨e, by rw [exec_map, he]; rfl⟩

theorem ite {c : Prop} [Decidable c] {x y : MemoryM α} (hx : c → Fails x m) (hy : ¬ c → Fails y m) :
    Fails (if c then x else y) m := by
  split
  · rename_i h
    exact hx h
  · rename_i h
    exact hy h

theorem check {f : Unit → MemoryM β} (c : Except Failure Unit) (h : Fails (f ()) m) :
    Fails (Documents.check c >>= f) m := by
  rcases c with e | ⟨⟩
  · exact (raise e).bind f
  · exact bind_ok rfl h

theorem lift {f : α → MemoryM β} (c : Except Failure α) (h : ∀ a, Fails (f a) m) :
    Fails (Categories.lift c >>= f) m := by
  rcases c with e | a
  · exact (raise e).bind f
  · exact bind_ok rfl (h a)

end Fails

theorem document?_of_mem {n : Nat} {t : Tables} (hf : Fresh n t) {d : Document}
    (hd : d ∈ t.documents) : document? t d.id = some d := by
  cases h : document? t d.id with
  | none =>
    unfold document? at h
    exact absurd (List.find?_eq_none.mp h d hd) (by simp)
  | some e => rw [hf.eq_of_document? h hd rfl]

theorem isOwner_eq_false {user : String} {d : Document} (hu : user ≠ d.userId) :
    Access.isOwner user d = false :=
  Bool.eq_false_iff.mpr fun h => hu (isOwner_userId h).symm

theorem exec_load {x : String} {D : Document} (hD : document? m.tables x = some D) :
    exec (Access.load repository x) m = (.ok D, m) := by
  unfold Access.load
  dsimp only [repository]
  rw [exec_during, exec_getDocument, hD]
  rfl

variable {user : String} {D : Document}

theorem fails_canView (hD : document? m.tables D.id = some D) (hp : D.publiclyViewable = false)
    (hu : user ≠ D.userId) : Fails (Access.canView repository user D.id) m := by
  unfold Access.canView
  refine Fails.bind_ok (exec_load hD) ?_
  rw [if_neg (by rw [hp, isOwner_eq_false hu]; decide)]
  exact Fails.ite (fun _ => Fails.raise _) fun _ => Fails.raise _

theorem fails_canEdit (hD : document? m.tables D.id = some D) (hu : user ≠ D.userId) :
    Fails (Access.canEdit repository user D.id) m := by
  unfold Access.canEdit
  refine Fails.ite (fun _ => Fails.raise _) fun _ => Fails.bind_ok (exec_load hD) ?_
  rw [if_neg (by rw [isOwner_eq_false hu]; decide)]
  exact Fails.raise _

theorem fails_viewable (hD : document? m.tables D.id = some D) (hp : D.publiclyViewable = false)
    (hu : user ≠ D.userId) : Fails (Categories.viewable repository user D.id) m :=
  Fails.ite (fun _ => Fails.raise _) fun _ => fails_canView hD hp hu

end Refusals

end Outliner.Memory

namespace Outliner

open Memory

namespace Call

/-- The user a call is made for. -/
def user : Call → String
  | create u | view u _ | list u | rename u _ _ | editTexts u _ _ | setPublic u _ _ | delete u _
  | reconcile u _ _ | copy u _ | addCategory u _ _ | removeCategory u _ _ | listCategories u _
  | isTrashed u _ => u

/-- The document a call names, if it names one. -/
def doc? : Call → Option String
  | create _ | list _ => none
  | view _ d | rename _ d _ | editTexts _ d _ | setPublic _ d _ | delete _ d | reconcile _ d _
  | copy _ d | addCategory _ d _ | removeCategory _ d _ | listCategories _ d | isTrashed _ d =>
    some d

variable {catalog : Catalog} {limits : Limits}

theorem spared (c : Call) {m₀ : Memory} :
    Triple (Sparing catalog c.user m₀) (c.run catalog limits) (fun _ => Spared catalog c.user m₀) := by
  cases c with
  | create u => exact (spared_create u).map _
  | view u d => exact (((readsOnly_view u d).triple _).mono (fun _ h => h) fun _ _ h => h.2).map _
  | list u => exact (((readsOnly_list u).triple _).mono (fun _ h => h) fun _ _ h => h.2).map _
  | rename u d n => exact spared_rename u d n
  | editTexts u d ts => exact spared_editTexts u d ts
  | setPublic u d v => exact spared_setPublic u d v
  | delete u d => exact (spared_delete u d).map _
  | reconcile u d s => exact (spared_reconcile limits u d s).map _
  | copy u d => exact (spared_copy u d).map _
  | addCategory u d n => exact (spared_addCategory u d n).map _
  | removeCategory u d n => exact spared_removeCategory u d n
  | listCategories u d =>
    exact (((readsOnly_listCategories u d).triple _).mono (fun _ h => h) fun _ _ h => h.2).map _
  | isTrashed u d => exact (((readsOnly_trashed u d).triple _).mono (fun _ h => h) fun _ _ h => h.2).map _

theorem fails_of_private (c : Call) {m : Memory} {D : Document}
    (hD : document? m.tables D.id = some D) (hp : D.publiclyViewable = false)
    (hu : c.user ≠ D.userId) (hc : c.doc? = some D.id) : Fails (c.run catalog limits) m := by
  cases c with
  | create u => cases hc
  | list u => cases hc
  | view u d =>
    cases hc
    exact ((fails_canView hD hp hu).bind _).map _
  | rename u d n =>
    cases hc
    exact Fails.check _ ((fails_canEdit hD hu).bind _)
  | editTexts u d ts =>
    cases hc
    exact Fails.check _ ((fails_canEdit hD hu).bind _)
  | setPublic u d v =>
    cases hc
    exact (fails_canEdit hD hu).bind _
  | delete u d =>
    cases hc
    exact (Fails.ite (fun _ => Fails.raise _) fun _ => (fails_canView hD hp hu).bind _).map _
  | reconcile u d s =>
    cases hc
    cases s with
    | none => exact (Fails.raise _).map _
    | some s => exact ((fails_canEdit hD hu).bind _).map _
  | copy u d =>
    cases hc
    exact (Fails.ite (fun _ => Fails.raise _) fun _ => (fails_canView hD hp hu).bind _).map _
  | addCategory u d n =>
    cases hc
    exact (Fails.ite (fun _ => Fails.raise _) fun _ =>
      Fails.lift _ fun _ => (fails_viewable hD hp hu).bind _).map _
  | removeCategory u d n =>
    cases hc
    exact Fails.lift _ fun _ => (fails_viewable hD hp hu).bind _
  | listCategories u d =>
    cases hc
    exact ((fails_viewable hD hp hu).bind _).map _
  | isTrashed u d =>
    cases hc
    exact ((fails_viewable hD hp hu).bind _).map _

end Call

theorem Reachable.categoryIds {catalog : Catalog} {limits : Limits} {m : Memory}
    (h : Reachable catalog limits m) : CategoryIds m.minted m.tables := by
  induction h with
  | empty n clock => exact ⟨fun _ h => absurd h List.not_mem_nil, List.nodup_nil⟩
  | @step m c hm ih =>
    have hadv := Call.advances catalog limits c m
    rcases hx : exec (c.run catalog limits) m with ⟨r, m'⟩
    rw [hx] at hadv
    cases r with
    | ok a => exact (c.spared m a m' ⟨hm.consistent, Spared.refl hm.consistent ih⟩ hx).categoryIds
    | error e =>
      exact ih.of_categories hadv.1 (by rw [Call.atomic catalog limits c m e m' hm.outside hx])

theorem Reachable.foldl {catalog : Catalog} {limits : Limits} {m : Memory}
    (h : Reachable catalog limits m) (cs : List Call) :
    Reachable catalog limits (cs.foldl (fun m c => (exec (c.run catalog limits) m).2) m) := by
  induction cs generalizing m with
  | nil => exact h
  | cons c cs ih => exact ih (.step c h)

theorem Call.writes {catalog : Catalog} {limits : Limits} {m : Memory}
    (hm : Reachable catalog limits m) (c : Call) :
    Writes c.user (Mine c.user m) m.minted m.tables (exec (c.run catalog limits) m).2.tables := by
  rcases hx : exec (c.run catalog limits) m with ⟨r, m'⟩
  cases r with
  | ok a => exact (c.spared m a m' ⟨hm.consistent, Spared.refl hm.consistent hm.categoryIds⟩ hx).writes
  | error e =>
    dsimp only
    rw [Call.atomic catalog limits c m e m' hm.outside hx]
    exact Writes.refl _

/-- A call by a user leaves every document of another user as it was, with its items and their
styles. It puts no category of another user, and takes one away only with a document that the
caller owned and that is gone after the call. A call that names a document of another user that
is not public fails. -/
theorem call_spares_other_users {catalog : Catalog} {limits : Limits} {m : Memory}
    (hm : Reachable catalog limits m) (c : Call) {D : Document} (hD : D ∈ m.tables.documents)
    (hu : c.user ≠ D.userId) :
    (exec (c.run catalog limits) m).2.tables.holdings D.id = m.tables.holdings D.id ∧
    (∀ k ∈ (exec (c.run catalog limits) m).2.tables.categories, k.userId ≠ c.user →
      k ∈ m.tables.categories) ∧
    (∀ k ∈ m.tables.categories, k.userId ≠ c.user →
      k ∉ (exec (c.run catalog limits) m).2.tables.categories →
      (∃ d ∈ m.tables.documents, d.id = k.documentId ∧ d.userId = c.user) ∧
      ∀ d ∈ (exec (c.run catalog limits) m).2.tables.documents, d.id ≠ k.documentId) ∧
    (D.publiclyViewable = false → c.doc? = some D.id →
      ∃ e, (exec (c.run catalog limits) m).1 = .error e) := by
  have hc := hm.consistent
  have hw := Call.writes hm c
  -- the other user's document is not one the call may write
  have hD' : ¬ Mine c.user m D.id := by
    rintro (⟨d, hd, hid, hdu⟩ | hnew)
    · exact hu (by rw [← hdu, hc.fresh.document_eq hd hD hid])
    · exact hnew (hc.fresh.documents_minted D hD)
  refine ⟨hw.holdings D.id hD', hw.added, fun k hk hku hgone => ?_,
    fun hp hdoc => c.fails_of_private (document?_of_mem hc.fresh hD) hp hu hdoc⟩
  obtain ⟨hmine, hgone'⟩ := hw.removed k hk hku hgone
  refine ⟨?_, hgone'⟩
  rcases hmine with hown | hnew
  · exact hown
  · -- a category sits on a document of the store, whose id was minted
    obtain ⟨d, hd, hid⟩ := hc.invariant.categories_placed k hk
    exact absurd (hid ▸ hc.fresh.documents_minted d hd) hnew

/-- Another user may not view the first document, which is private. -/
theorem first_document_hidden_from_others :
    ∃ e, (exec ((Call.view "bob" (Uuid.minted 1)).run Catalog.standard Limits.standard)
      firstStore).1 = .error e := by
  have hm : Reachable Catalog.standard Limits.standard firstStore := .step _ (.empty 0 secondsClock)
  have hd : (⟨Uuid.minted 1, "alice", some (Uuid.minted 2), none, false, secondsClock 1, some (secondsClock 1)⟩ : Document) ∈
      firstStore.tables.documents := by
    rw [show firstStore.tables.documents = [⟨Uuid.minted 1, "alice", some (Uuid.minted 2), none, false, secondsClock 1, some (secondsClock 1)⟩]
      from rfl]
    exact List.mem_singleton_self _
  exact (call_spares_other_users hm (.view "bob" (Uuid.minted 1)) hd (by decide)).2.2.2 rfl rfl

end Outliner
