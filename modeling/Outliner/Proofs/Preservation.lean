import Outliner.Proofs.Calls
import Outliner.Proofs.Invariant
import Outliner.Proofs.Planning

/-!
# Each store operation keeps the invariant

A store is `Consistent` when its tables satisfy `StoreInvariant` and its ids are `Fresh` for
its counter. A run of operations is followed from a consistent start `m₀`: `Kept catalog m₀ m`
says that the store `m` is consistent and `Evolves` from `m₀` (ids only minted forward, and
each document either there before with the root item it had, or new).

Each operation of the store gets a `Triple` saying that it keeps a run kept, under what its
callers ensure (a text within the bound, a style the catalog accepts, a table-of-contents item
of the document, an existing document for a category). Only the creation of a document with its
root item passes through a store that is not consistent, so it is stated as one step
(`createWithRoot_ok`).
-/

set_option autoImplicit false

namespace Outliner.Memory

variable {α β : Type} {catalog : Catalog} {m₀ : Memory}

/-- The tables satisfy the invariant and their ids are fresh for the counter. -/
structure Consistent (catalog : Catalog) (m : Memory) : Prop where
  invariant : StoreInvariant catalog m.tables
  fresh : Fresh m.minted m.tables

/-- Consistency reads only the tables and the id counter. -/
theorem Consistent.of_frame {m m' : Memory} (h : Consistent catalog m) (ht : m'.tables = m.tables)
    (hn : m'.minted = m.minted) : Consistent catalog m' :=
  ⟨ht ▸ h.invariant, ht ▸ hn ▸ h.fresh⟩

/-- From `m` to `m'`, ids were only minted forward and the documents evolved. -/
def Evolves (m m' : Memory) : Prop :=
  m.minted ≤ m'.minted ∧ DocumentsEvolve m.minted m.tables m'.tables

theorem Evolves.refl (m : Memory) : Evolves m m := ⟨Nat.le_refl _, DocumentsEvolve.refl _ _⟩

theorem Evolves.trans {m₁ m₂ m₃ : Memory} (h₁ : Evolves m₁ m₂) (h₂ : Evolves m₂ m₃) : Evolves m₁ m₃ :=
  ⟨Nat.le_trans h₁.1 h₂.1, h₁.2.trans h₁.1 h₂.2⟩

theorem Evolves.of_documents {m m' : Memory} (hn : m.minted ≤ m'.minted)
    (hd : m'.tables.documents = m.tables.documents) : Evolves m m' :=
  ⟨hn, fun d hd' => .inl ⟨d, hd ▸ hd', rfl, fun _ h => h⟩⟩

/-- A run from the consistent store `m₀` has reached the consistent store `m`. -/
structure Kept (catalog : Catalog) (m₀ m : Memory) : Prop where
  start : Consistent catalog m₀
  now : Consistent catalog m
  evolves : Evolves m₀ m

namespace Kept

variable {m m' : Memory}

theorem refl (h : Consistent catalog m) : Kept catalog m m := ⟨h, h, Evolves.refl m⟩

theorem step (hk : Kept catalog m₀ m) (hc : Consistent catalog m') (he : Evolves m m') :
    Kept catalog m₀ m' :=
  ⟨hk.start, hc, hk.evolves.trans he⟩

theorem trans (h₁ : Kept catalog m₀ m) (h₂ : Kept catalog m m') : Kept catalog m₀ m' :=
  h₁.step h₂.now h₂.evolves

theorem rootsKept (hk : Kept catalog m₀ m) : RootsKept m₀.tables m.tables :=
  hk.start.fresh.rootsKept hk.evolves.2

theorem inTransaction (hk : Kept catalog m₀ m) (b : Bool) :
    Kept catalog m₀ { m with inTransaction := b } :=
  ⟨hk.start, hk.now.of_frame rfl rfl, hk.evolves⟩

theorem tick (hk : Kept catalog m₀ m) : Kept catalog m₀ { m with readings := m.readings + 1 } :=
  ⟨hk.start, hk.now.of_frame rfl rfl, hk.evolves⟩

theorem root_item (hk : Kept catalog m₀ m) {d : Document} (hd : d ∈ m₀.tables.documents)
    {r : String} (hr : d.rootItemId = some r) {e : Document} (he : e ∈ m.tables.documents)
    (hid : e.id = d.id) : ∃ i ∈ m.tables.rows, i.id = r ∧ i.documentId = e.id := by
  have her : e.rootItemId = some r := hk.rootsKept d hd r hr e he hid
  obtain ⟨r', hr', hroot⟩ := hk.now.invariant.rooted e he
  rw [her, Option.some.injEq] at hr'
  obtain ⟨j, hj, hjr, hjd, -⟩ := root_row hroot
  exact ⟨j, hj, hjr.trans hr'.symm, hjd⟩

end Kept

/-! ## Rules for triples -/

theorem Triple.pure_of {P : Memory → Prop} {Q : α → Memory → Prop} (a : α) (h : ∀ m, P m → Q a m) :
    Triple P (Pure.pure a : MemoryM α) Q :=
  (Triple.pure a).mono h fun _ _ h => h

theorem Triple.atomically {P : Memory → Prop} {Q : α → Memory → Prop} {body : MemoryM α}
    (hb : Triple P body Q) (hP : ∀ m, P m → P { m with inTransaction := true })
    (hQ : ∀ a m, Q a m → Q a { m with inTransaction := false }) : Triple P (atomically body) Q := by
  intro m a m' hm h
  cases hin : m.inTransaction with
  | true =>
    rw [exec_atomically_inside hin] at h
    exact hb m a m' hm h
  | false =>
    rw [exec_atomically hin] at h
    rcases hr : exec body { m with inTransaction := true } with ⟨r, m''⟩
    rw [hr] at h
    cases r with
    | ok b =>
      obtain ⟨hab, rfl⟩ := Prod.mk.inj h
      cases hab
      exact hQ _ m'' (hb _ _ m'' (hP m hm) hr)
    | error e => cases h

theorem Triple.of_pre {P : Memory → Prop} {Q : α → Memory → Prop} {x : MemoryM α} {Φ : Prop}
    (h : ∀ m, P m → Φ) (hx : Φ → Triple P x Q) : Triple P x Q :=
  fun m a m' hm => hx (h m hm) m a m' hm

theorem Triple.map {P : Memory → Prop} {I : Memory → Prop} {x : MemoryM α} (hx : Triple P x (fun _ => I))
    (g : α → β) : Triple P (g <$> x) (fun _ => I) := by
  intro m b m' hm h
  rw [exec_map] at h
  rcases hr : exec x m with ⟨r, m''⟩
  rw [hr] at h
  cases r with
  | ok a =>
    obtain ⟨-, rfl⟩ := Prod.mk.inj h
    exact hx m a _ hm hr
  | error e => cases h

theorem Triple.forIn {γ : Type} {I : Memory → Prop} {f : α → γ → MemoryM (ForInStep γ)}
    (hf : ∀ a b, Triple I (f a b) (fun _ => I)) (xs : List α) (b : γ) :
    Triple I (ForIn.forIn xs b f) (fun _ => I) := by
  induction xs generalizing b with
  | nil => exact Triple.pure_of b fun _ h => h
  | cons x xs ih =>
    rw [List.forIn_cons]
    refine (hf x b).bind fun s => ?_
    cases s with
    | done b' => exact Triple.pure_of b' fun _ h => h
    | yield b' => exact ih b'

theorem exec_bind_eq_ok {x : MemoryM α} {f : α → MemoryM β} {m m'' : Memory} {b : β} :
    exec (x >>= f) m = (.ok b, m'') ↔ ∃ a m', exec x m = (.ok a, m') ∧ exec (f a) m' = (.ok b, m'') := by
  rw [exec_bind]
  rcases hx : exec x m with ⟨r, m'⟩
  cases r with
  | ok a =>
    constructor
    · intro h
      exact ⟨a, m', rfl, h⟩
    · rintro ⟨a', m₁, h₁, h₂⟩
      cases h₁
      exact h₂
  | error e =>
    constructor
    · intro h
      cases h
    · rintro ⟨a', m₁, h₁, -⟩
      cases h₁

theorem exec_during_eq_ok {s : String} {x : MemoryM α} {m m' : Memory} {a : α} :
    exec (Failure.during s x) m = (.ok a, m') ↔ exec x m = (.ok a, m') := by
  rw [exec_during]
  rcases exec x m with ⟨r, m''⟩
  cases r with
  | ok b => exact Iff.rfl
  | error e =>
    constructor
    · intro h
      cases h
    · intro h
      cases h

theorem ReadsOnly.triple_with {x : MemoryM α} (hx : ReadsOnly x) {P : Memory → Prop}
    {Q : α → Memory → Prop} (hq : ∀ m a, exec x m = (.ok a, m) → Q a m) :
    Triple P x (fun a m => P m ∧ Q a m) := by
  intro m a m' hm h
  have hm' : m' = m := by simpa [h] using hx m
  subst hm'
  exact ⟨hm, hq m' a h⟩

theorem kept_atomically {body : MemoryM α}
    (hb : Triple (Kept catalog m₀) body (fun _ => Kept catalog m₀)) :
    Triple (Kept catalog m₀) (atomically body) (fun _ => Kept catalog m₀) :=
  Triple.atomically hb (fun _ h => h.inTransaction true) fun _ _ h => h.inTransaction false

theorem Triple.rebase {R : Memory → Prop} {x : MemoryM α}
    (h : ∀ m₁, R m₁ → Triple (Kept catalog m₁) x (fun _ => Kept catalog m₁)) :
    Triple (fun m => Kept catalog m₀ m ∧ R m) x (fun _ => Kept catalog m₀) :=
  fun m a m' ⟨hk, hr⟩ hx => hk.trans (h m hr m a m' (Kept.refl hk.now) hx)

/-! ## Reads and what they find -/

theorem getDocument_ok {id : String} {m : Memory} {d : Document}
    (h : exec (getDocument id) m = (.ok d, m)) : d ∈ m.tables.documents := by
  rw [exec_getDocument] at h
  cases hd : document? m.tables id with
  | none => simp [hd] at h
  | some d' =>
    simp only [hd, Prod.mk.injEq, Except.ok.injEq, and_true] at h
    exact h ▸ (document?_eq_some hd).1

theorem triple_canView (P : Memory → Prop) (user docId : String) :
    Triple P (Access.canView repository user docId) (fun d m => P m ∧ d ∈ m.tables.documents) := by
  unfold Access.canView Access.load
  refine Triple.bind (((readsOnly_getDocument docId).triple_with
    fun m d h => getDocument_ok h).during _) fun d => ?_
  exact Triple.ite (Triple.pure_of d fun _ h => h) (Triple.ite (Triple.raise _ _ _) (Triple.raise _ _ _))

theorem triple_canEdit (P : Memory → Prop) (user docId : String) :
    Triple P (Access.canEdit repository user docId) (fun d m => P m ∧ d ∈ m.tables.documents) := by
  unfold Access.canEdit Access.load
  refine Triple.ite (Triple.raise _ _ _) (Triple.bind (((readsOnly_getDocument docId).triple_with
    fun m d h => getDocument_ok h).during _) fun d => ?_)
  exact Triple.ite (Triple.pure_of d fun _ h => h) (Triple.raise _ _ _)

theorem triple_viewable (P : Memory → Prop) (user docId : String) :
    Triple P (Categories.viewable repository user docId) (fun d m => P m ∧ d ∈ m.tables.documents) :=
  Triple.ite (Triple.raise _ _ _) (triple_canView P user docId)

theorem triple_listItems (P : Memory → Prop) (doc : String) :
    Triple P (listItems doc) (fun items m => P m ∧ ∀ i ∈ items, i ∈ m.tables.rows ∧ i.documentId = doc) := by
  have hq : ∀ m items, exec (listItems doc) m = (.ok items, m) →
      ∀ i ∈ items, i ∈ m.tables.rows ∧ i.documentId = doc := by
    intro m items h i hi
    rw [exec_listItems, Prod.mk.injEq, Except.ok.injEq] at h
    rw [← h.1] at hi
    obtain ⟨e, he, rfl⟩ := List.mem_map.mp hi
    obtain ⟨he, hdoc⟩ := List.mem_filter.mp (List.mem_mergeSort.mp he)
    exact ⟨List.mem_map_of_mem he, by simpa using hdoc⟩
  exact (readsOnly_listItems doc).triple_with hq

theorem triple_check (P : Memory → Prop) (c : Except Failure Unit) :
    Triple P (Documents.check c : MemoryM Unit) (fun _ m => P m ∧ c = .ok ()) := by
  cases c with
  | ok u => exact Triple.pure_of u fun _ h => ⟨h, rfl⟩
  | error e => exact Triple.raise _ _ e

/-! ## Single writes -/

theorem kept_updateText {text : String} (htext : text.length ≤ maxItemTextLength) (doc id : String) :
    Triple (Kept catalog m₀) (updateText doc id text) (fun _ => Kept catalog m₀) := by
  intro m a m' hk h
  rcases updateText_cases doc id text m with ⟨e, he⟩ | ⟨i, -, -, he⟩ <;> rw [he] at h
  · cases h
  · obtain ⟨-, rfl⟩ := Prod.mk.inj h
    exact hk.step ⟨hk.now.invariant.setText hk.now.fresh htext, hk.now.fresh.setText⟩
      (Evolves.of_documents (Nat.le_refl _) rfl)

theorem kept_updateDocument {P : Memory → Prop} (id : String) (f : Document → Except Failure Document)
    (hf : ∀ m d d', Kept catalog m₀ m → P m → Memory.document? m.tables id = some d → f d = .ok d' →
      d'.id = d.id ∧ d'.rootItemId = d.rootItemId ∧
        ∀ x, d'.tocItemId = some x → ∃ i ∈ m.tables.rows, i.id = x ∧ i.documentId = d.id) :
    Triple (fun m => Kept catalog m₀ m ∧ P m) (updateDocument id f) (fun _ => Kept catalog m₀) := by
  rintro m a m' ⟨hk, hp⟩ h
  rcases updateDocument_cases id f m with ⟨e, he⟩ | ⟨d, d', hd, hfd, he⟩ <;> rw [he] at h
  · cases h
  · obtain ⟨-, rfl⟩ := Prod.mk.inj h
    obtain ⟨hid, hroot, htoc⟩ := hf m d d' hk hp hd hfd
    have hg := hk.now.fresh.replace_fields hd hid hroot
    refine hk.step ⟨hk.now.invariant.mapDocuments _ hg ?_,
      hk.now.fresh.mapDocuments _ fun e he => (hg e he).1⟩ ⟨Nat.le_refl _, DocumentsEvolve.map _ hg rfl⟩
    intro e he x hx
    by_cases heid : e.id = id
    · obtain rfl := hk.now.fresh.eq_of_document? hd he heid
      simp only [heid, beq_self_eq_true, ↓reduceIte] at hx
      exact htoc x hx
    · simp only [heid, beq_iff_eq, ↓reduceIte] at hx
      exact hk.now.invariant.toc_valid e he x hx

theorem kept_updateDocument_plain (id : String) (f : Document → Except Failure Document)
    (hf : ∀ d d', f d = .ok d' → d'.id = d.id ∧ d'.rootItemId = d.rootItemId ∧ d'.tocItemId = d.tocItemId) :
    Triple (Kept catalog m₀) (updateDocument id f) (fun _ => Kept catalog m₀) := by
  refine (kept_updateDocument (P := fun _ => True) id f fun m d d' hk _ hd hfd => ?_).mono
    (fun m hk => ⟨hk, trivial⟩) fun _ _ h => h
  obtain ⟨hid, hroot, htoc⟩ := hf d d' hfd
  exact ⟨hid, hroot, fun x hx => hk.now.invariant.toc_valid d (document?_eq_some hd).1 x (htoc ▸ hx)⟩

theorem kept_now : Triple (Kept catalog m₀) now (fun _ => Kept catalog m₀) :=
  triple_now fun _ h => h.tick

theorem kept_touchDocument (id : String) (time : Time.Instant) :
    Triple (Kept catalog m₀) (touchDocument id time) (fun _ => Kept catalog m₀) :=
  kept_updateDocument_plain id _ fun d d' h => by cases h; exact ⟨rfl, rfl, rfl⟩

theorem kept_setPubliclyViewable (id : String) (v : Bool) :
    Triple (Kept catalog m₀) (setPubliclyViewable id v) (fun _ => Kept catalog m₀) :=
  kept_updateDocument_plain id _ fun d d' h => by cases h; exact ⟨rfl, rfl, rfl⟩

theorem kept_setTocItem (id : String) (toc : Option String) :
    Triple (fun m => Kept catalog m₀ m ∧ ∀ e ∈ m.tables.documents, e.id = id →
        ∀ x, toc = some x → ∃ i ∈ m.tables.rows, i.id = x ∧ i.documentId = id)
      (setTocItem id toc) (fun _ => Kept catalog m₀) :=
  kept_updateDocument id _ fun m d d' _ hp hd h => by
    cases h
    obtain ⟨hd, hid⟩ := document?_eq_some hd
    exact ⟨rfl, rfl, fun x hx => hid ▸ hp d hd hid x hx⟩

theorem kept_deleteChildren (p : String) :
    Triple (Kept catalog m₀) (deleteChildren p) (fun _ => Kept catalog m₀) := by
  intro m a m' hk h
  rw [exec_deleteChildren] at h
  obtain ⟨-, rfl⟩ := Prod.mk.inj h
  exact hk.step ⟨hk.now.invariant.deleteChildren hk.now.fresh p, hk.now.fresh.deleteSubtrees⟩
    ⟨Nat.le_refl _, DocumentsEvolve.map _ (fun d _ => ⟨d.clearToc_id _, d.clearToc_rootItemId _⟩) rfl⟩

theorem kept_insertStyle {st : Style} (hv : catalog.validate st.edit = .ok ()) :
    Triple (Kept catalog m₀) (insertStyle st) (fun _ => Kept catalog m₀) := by
  intro m a m' hk h
  rcases insertStyle_cases st m with ⟨e, he⟩ | ⟨hitem, -, he⟩ <;> rw [he] at h
  · cases h
  · obtain ⟨-, rfl⟩ := Prod.mk.inj h
    exact hk.step ⟨hk.now.invariant.addStyle hitem hv, hk.now.fresh.congr rfl rfl⟩
      (Evolves.of_documents (Nat.le_refl _) rfl)

theorem kept_updateStyle {st : Style} (hv : catalog.validate st.edit = .ok ()) :
    Triple (Kept catalog m₀) (updateStyle st) (fun _ => Kept catalog m₀) := by
  intro m a m' hk h
  rcases updateStyle_cases st m with ⟨e, he⟩ | ⟨hany, he⟩ <;> rw [he] at h
  · cases h
  · obtain ⟨-, rfl⟩ := Prod.mk.inj h
    exact hk.step ⟨hk.now.invariant.replaceStyle hany hv, hk.now.fresh.congr rfl rfl⟩
      (Evolves.of_documents (Nat.le_refl _) rfl)

theorem kept_createCategory (user doc name : String) :
    Triple (fun m => Kept catalog m₀ m ∧ ∃ d ∈ m.tables.documents, d.id = doc)
      (createCategory user doc name) (fun _ => Kept catalog m₀) := by
  rintro m a m' ⟨hk, hdoc⟩ h
  rcases createCategory_cases user doc name m with ⟨e, he⟩ | ⟨hnew, he⟩ <;> rw [he] at h
  · cases h
  · obtain ⟨-, rfl⟩ := Prod.mk.inj h
    exact hk.step ⟨hk.now.invariant.addCategory hnew hdoc,
      (hk.now.fresh.mono (Nat.le_succ _)).congr rfl rfl⟩
      (Evolves.of_documents (Nat.le_succ _) rfl)

theorem kept_deleteCategory (user doc name : String) :
    Triple (Kept catalog m₀) (deleteCategory user doc name) (fun _ => Kept catalog m₀) := by
  intro m a m' hk h
  rcases deleteCategory_cases user doc name m with ⟨e, he⟩ | ⟨c, -, he⟩ <;> rw [he] at h
  · cases h
  · obtain ⟨-, rfl⟩ := Prod.mk.inj h
    exact hk.step ⟨hk.now.invariant.removeCategories _, hk.now.fresh.congr rfl rfl⟩
      (Evolves.of_documents (Nat.le_refl _) rfl)

theorem kept_deleteDocument (id : String) :
    Triple (Kept catalog m₀) (deleteDocument id) (fun _ => Kept catalog m₀) := by
  intro m a m' hk h
  rcases deleteDocument_cases id m with ⟨-, he⟩ | ⟨-, he⟩ <;> rw [he] at h
  · cases h
  · obtain ⟨-, rfl⟩ := Prod.mk.inj h
    exact hk.step ⟨hk.now.invariant.deleteDocument hk.now.fresh id, hk.now.fresh.prune (· != id)⟩
      ⟨Nat.le_refl _, @DocumentsEvolve.prune m.minted m.tables _ (· != id)⟩

theorem kept_createItem (i : Item) (hp : i.parentId.isSome)
    (htext : i.itemText.length ≤ maxItemTextLength) :
    Triple (Kept catalog m₀) (createItem i)
      (fun i' m => Kept catalog m₀ m ∧ i' ∈ m.tables.rows ∧ i'.documentId = i.documentId) := by
  intro m i' m' hk h
  obtain ⟨rfl, rfl, -, hparent⟩ := createItem_ok h
  obtain ⟨p, hp⟩ := Option.isSome_iff_exists.mp hp
  obtain ⟨q, hq, hqd⟩ := hparent p hp
  have hrow : ∃ q ∈ m.tables.rows, q.id = p ∧ q.documentId = i.documentId :=
    ⟨q, (item?_eq_some hq).1, (item?_eq_some hq).2, hqd⟩
  refine ⟨hk.step ⟨hk.now.invariant.addItem hk.now.fresh rfl hp hrow htext,
    hk.now.fresh.addItem rfl⟩ (Evolves.of_documents (Nat.le_succ _) rfl), ?_, rfl⟩
  exact (rows_addItem ▸ List.mem_append_right _ (List.mem_singleton_self _))

/-! ## A new document with its root item -/

theorem createWithRoot_ok {user : String} {m m' : Memory} {x : Document × Item}
    (hf : Fresh m.minted m.tables) (h : exec (Copy.createWithRoot repository user) m = (.ok x, m')) :
    m'.tables = m.tables.withDocument m.minted (m.sequence + 1) user (m.clock (m.readings + 1)) ∧
    m'.minted = m.minted + 2 ∧ m'.readings = m.readings + 1 ∧
    x = (⟨Uuid.minted (m.minted + 1), user, some (Uuid.minted (m.minted + 2)), none, false,
        m.clock (m.readings + 1), some (m.clock (m.readings + 1))⟩,
      ⟨Uuid.minted (m.minted + 2), Uuid.minted (m.minted + 1), none, "", 0, false⟩) := by
  unfold Copy.createWithRoot at h
  dsimp only [repository] at h
  obtain ⟨time, m₀, htime, h⟩ := exec_bind_eq_ok.mp h
  rw [exec_now, Prod.mk.injEq, Except.ok.injEq] at htime
  obtain ⟨rfl, rfl⟩ := htime
  obtain ⟨d, m₁, hd, h⟩ := exec_bind_eq_ok.mp h
  rw [exec_createDocument, Prod.mk.injEq, Except.ok.injEq] at hd
  obtain ⟨rfl, rfl⟩ := hd
  obtain ⟨root, m₂, hroot, h⟩ := exec_bind_eq_ok.mp h
  obtain ⟨rfl, rfl, -, -⟩ := createItem_ok (exec_during_eq_ok.mp hroot)
  obtain ⟨_, m₃, hset, h⟩ := exec_bind_eq_ok.mp h
  rw [exec_pure, Prod.mk.injEq] at h
  obtain ⟨hx, rfl⟩ := h
  unfold setRootItem at hset
  rcases updateDocument_cases _ _ _ with ⟨e, he⟩ | ⟨d, d', hd, hfd, he⟩ <;>
    rw [exec_during_eq_ok, he] at hset
  · cases hset
  obtain ⟨-, rfl⟩ := Prod.mk.inj hset
  dsimp only at hd hfd ⊢
  -- the document found is the new one: no older document has its id
  obtain ⟨hmem, hid⟩ := document?_eq_some hd
  rcases List.mem_append.mp hmem with hold | hnew
  · exact absurd hid (hf.document_ne_next hold)
  obtain rfl := List.mem_singleton.mp hnew
  simp only [Option.isSome_none, Bool.false_eq_true, ↓reduceIte, Except.ok.injEq] at hfd
  subst hfd
  have hkeep : m.tables.documents.map (fun e => if (e.id == Uuid.minted (m.minted + 1)) = true then
      { id := Uuid.minted (m.minted + 1), userId := user, rootItemId := some (Uuid.minted (m.minted + 1 + 1)),
        tocItemId := none, publiclyViewable := false, createdAt := m.clock (m.readings + 1),
        modifiedAt := some (m.clock (m.readings + 1)) } else e) = m.tables.documents := by
    conv_rhs => rw [← List.map_id m.tables.documents]
    exact List.map_congr_left fun e he => by simp [hf.document_ne_next he]
  refine ⟨?_, rfl, rfl, (Except.ok.inj hx).symm⟩
  simp only [List.map_append, hkeep, List.map_singleton, beq_self_eq_true, ↓reduceIte]
  rfl

theorem kept_createWithRoot (user : String) :
    Triple (Kept catalog m₀) (Copy.createWithRoot repository user) (fun _ => Kept catalog m₀) := by
  intro m x m' hk h
  obtain ⟨htables, hminted, -, -⟩ := createWithRoot_ok hk.now.fresh h
  have hc : Consistent catalog m' := by
    constructor
    · rw [htables]
      exact hk.now.invariant.withDocument hk.now.fresh
    · rw [htables, hminted]
      exact hk.now.fresh.withDocument
  exact hk.step hc ⟨by omega, htables ▸ DocumentsEvolve.withDocument⟩

/-! ## Styles -/

theorem Triple.and {P₁ P₂ : Memory → Prop} {Q₁ Q₂ : α → Memory → Prop} {x : MemoryM α}
    (h₁ : Triple P₁ x Q₁) (h₂ : Triple P₂ x Q₂) :
    Triple (fun m => P₁ m ∧ P₂ m) x (fun a m => Q₁ a m ∧ Q₂ a m) :=
  fun m a m' hm h => ⟨h₁ m a m' hm.1 h, h₂ m a m' hm.2 h⟩

/-- A property that only looks at the items. -/
def OnRows (F : Memory → Prop) : Prop := ∀ m m', m'.tables.rows = m.tables.rows → F m → F m'

theorem frame_insertStyle {F : Memory → Prop} (hF : OnRows F) (st : Style) :
    Triple F (insertStyle st) (fun _ => F) := by
  intro m a m' hm h
  rcases insertStyle_cases st m with ⟨e, he⟩ | ⟨-, -, he⟩ <;> rw [he] at h
  · cases h
  · obtain ⟨-, rfl⟩ := Prod.mk.inj h
    exact hF m _ rfl hm

theorem frame_updateStyle {F : Memory → Prop} (hF : OnRows F) (st : Style) :
    Triple F (updateStyle st) (fun _ => F) := by
  intro m a m' hm h
  rcases updateStyle_cases st m with ⟨e, he⟩ | ⟨-, he⟩ <;> rw [he] at h
  · cases h
  · obtain ⟨-, rfl⟩ := Prod.mk.inj h
    exact hF m _ rfl hm

/-! ### Compound writes, from their single writes

A compound write (the edits of one item, the planned nodes, the children of a copied item, the
copier's walk, a copy, a plan) runs single writes in a fixed shape. Each `Triple.*_of` rule
says once what it keeps, given what each of its single writes keeps, so that a property of the
store is proved of the single writes only. -/

section Compound

variable {I : Memory → Prop}

theorem Triple.applyStyles_of {itemId : String} {edits : List StyleEdit}
    (hupdate : ∀ e ∈ edits, Triple I (updateStyle (e.toStyle itemId)) (fun _ => I))
    (hinsert : ∀ e ∈ edits, Triple I (insertStyle (e.toStyle itemId)) (fun _ => I))
    (present : List String) :
    Triple I (StyleWrite.apply repository itemId edits present) (fun _ => I) := by
  induction edits generalizing present with
  | nil => exact Triple.pure_of _ fun _ h => h
  | cons e es ih =>
    have hrest := ih (fun e' h => hupdate e' (List.mem_cons_of_mem e h))
      fun e' h => hinsert e' (List.mem_cons_of_mem e h)
    unfold StyleWrite.apply
    dsimp only
    exact Triple.ite
      (((hupdate e List.mem_cons_self).during _).bind fun _ =>
        (hrest present).bind fun _ => Triple.pure_of _ fun _ h => h)
      (((hinsert e List.mem_cons_self).during _).bind fun _ =>
        (hrest _).bind fun _ => Triple.pure_of _ fun _ h => h)

theorem Triple.upsertStyles_of {itemId : String} {edits : List StyleEdit}
    (hupdate : ∀ e ∈ edits, Triple I (updateStyle (e.toStyle itemId)) (fun _ => I))
    (hinsert : ∀ e ∈ edits, Triple I (insertStyle (e.toStyle itemId)) (fun _ => I)) :
    Triple I (StyleWrite.upsert repository itemId edits) (fun _ => I) :=
  Triple.ite (Triple.pure_of _ fun _ h => h)
    ((((readsOnly_listItemStyles itemId).triple _).during _).bind fun _ =>
      Triple.applyStyles_of hupdate hinsert _)

end Compound

theorem StyleEdit.validate_toStyle {edits : List StyleEdit}
    (hv : ∀ e ∈ edits, catalog.validate e = .ok ()) {e : StyleEdit} (he : e ∈ edits)
    (itemId : String) : catalog.validate (e.toStyle itemId).edit = .ok () := by
  rw [StyleEdit.toStyle_edit]
  exact hv e he

theorem kept_applyStyles {F : Memory → Prop} (hF : OnRows F) (itemId : String) :
    ∀ (edits : List StyleEdit) (present : List String), (∀ e ∈ edits, catalog.validate e = .ok ()) →
      Triple (fun m => Kept catalog m₀ m ∧ F m) (StyleWrite.apply repository itemId edits present)
        (fun _ m => Kept catalog m₀ m ∧ F m) := fun _ present hv =>
  Triple.applyStyles_of (I := fun m => Kept catalog m₀ m ∧ F m)
    (fun _ he => (kept_updateStyle (StyleEdit.validate_toStyle hv he itemId)).and (frame_updateStyle hF _))
    (fun _ he => (kept_insertStyle (StyleEdit.validate_toStyle hv he itemId)).and (frame_insertStyle hF _))
    present

theorem kept_upsertStyles {F : Memory → Prop} (hF : OnRows F) (itemId : String)
    {edits : List StyleEdit} (hv : ∀ e ∈ edits, catalog.validate e = .ok ()) :
    Triple (fun m => Kept catalog m₀ m ∧ F m) (StyleWrite.upsert repository itemId edits)
      (fun _ m => Kept catalog m₀ m ∧ F m) :=
  Triple.upsertStyles_of (I := fun m => Kept catalog m₀ m ∧ F m)
    (fun _ he => (kept_updateStyle (StyleEdit.validate_toStyle hv he itemId)).and (frame_updateStyle hF _))
    (fun _ he => (kept_insertStyle (StyleEdit.validate_toStyle hv he itemId)).and (frame_insertStyle hF _))

/-! ## Writing a plan -/

theorem Triple.createNodes_of {I : List String → Memory → Prop} {J : String → Prop}
    {docId : String} {p : Plan} {nodes : List PlannedNode}
    (hcreate : ∀ n ∈ nodes, ∀ acc parentId, Triple (I acc)
      (createItem ⟨"", docId, some parentId, n.text, n.order, false⟩)
      (fun item m => I (acc ++ [item.id]) m ∧ J item.id))
    (hstyles : ∀ n ∈ nodes, ∀ acc itemId, J itemId →
      Triple (I acc) (StyleWrite.apply repository itemId n.styles []) (fun _ => I acc))
    (acc : List String) :
    Triple (I acc) (Plan.createNodes repository docId p nodes acc) I := by
  induction nodes generalizing acc with
  | nil => exact Triple.pure_of acc fun _ h => h
  | cons n ns ih =>
    have hrest := ih (fun n' h => hcreate n' (List.mem_cons_of_mem n h))
      fun n' h => hstyles n' (List.mem_cons_of_mem n h)
    unfold Plan.createNodes
    dsimp only
    refine ((hcreate n List.mem_cons_self acc _).during _).bind fun item =>
      Triple.of_pre (fun _ h => h.2) fun hid => ?_
    exact Triple.ite
      ((((hstyles n List.mem_cons_self _ item.id hid).mono (fun _ h => h.1) fun _ _ h => h).during _).bind
        fun _ => hrest _)
      ((hrest _).mono (fun _ h => h.1) fun _ _ h => h)

theorem Triple.write_of {d : Document} {p : Plan} {P B C : Memory → Prop}
    {N E F : List String → Memory → Prop} {Q : ReconcileResult → Memory → Prop}
    (hin : ∀ m, P m → P { m with inTransaction := true })
    (hout : ∀ ids m, F ids m → F ids { m with inTransaction := false })
    (hclear : Triple P (deleteChildren p.rootItemId) (fun _ => B))
    (htext : ∀ t, p.rootText = some t → Triple B (updateText d.id p.rootItemId t) (fun _ => B))
    (hstyles : (!p.rootStyles.isEmpty) = true →
      Triple B (StyleWrite.upsert repository p.rootItemId p.rootStyles) (fun _ => C))
    (hnostyles : (!p.rootStyles.isEmpty) = false → ∀ m, B m → C m)
    (hnodes : Triple C (Plan.createNodes repository d.id p p.nodes []) N)
    (htoc : ∀ ids, Triple (N ids) (setTocItem d.id (p.tocItemId ids)) (fun _ => E ids))
    (hnow : ∀ ids m, E ids m → E ids { m with readings := m.readings + 1 })
    (htouch : ∀ ids time, Triple (E ids) (touchDocument d.id time) (fun _ => F ids))
    (hpost : ∀ removed ids m, F ids m → Q (p.result removed ids) m) :
    Triple P (p.write repository d) Q := by
  unfold Plan.write
  dsimp only
  refine Triple.bind (Triple.atomically ?_ hin fun x m h => hout x.2 m h) fun x =>
    Triple.pure_of _ fun m h => hpost x.1 x.2 m h
  refine (((readsOnly_lockDocument _).triple _).during _).bind fun _ =>
    (hclear.during _).bind fun removed => ?_
  -- the steps after the root's text and styles, which every branch below ends with
  have tail : Triple C (do
      let persisted ← Plan.createNodes repository d.id p p.nodes []
      Failure.during "set toc item" (repository.setTocItem d.id (p.tocItemId persisted))
      let time ← repository.now
      Failure.during "touch document" (repository.touchDocument d.id time)
      Pure.pure (removed, persisted)) (fun x m => F x.2 m) :=
    hnodes.bind fun ids => ((htoc ids).during _).bind fun _ => (triple_now (hnow ids)).bind fun time =>
      ((htouch ids time).during _).bind fun _ => Triple.pure_of _ fun _ h => h
  have styles : Triple B (if (!p.rootStyles.isEmpty) = true then do
      let _ ← Failure.during "root styles" (StyleWrite.upsert repository p.rootItemId p.rootStyles)
      let persisted ← Plan.createNodes repository d.id p p.nodes []
      Failure.during "set toc item" (repository.setTocItem d.id (p.tocItemId persisted))
      let time ← repository.now
      Failure.during "touch document" (repository.touchDocument d.id time)
      Pure.pure (removed, persisted)
    else do
      let persisted ← Plan.createNodes repository d.id p p.nodes []
      Failure.during "set toc item" (repository.setTocItem d.id (p.tocItemId persisted))
      let time ← repository.now
      Failure.during "touch document" (repository.touchDocument d.id time)
      Pure.pure (removed, persisted)) (fun x m => F x.2 m) := by
    split
    · rename_i hs
      exact ((hstyles hs).during _).bind fun _ => tail
    · rename_i hs
      exact tail.mono (hnostyles (Bool.eq_false_iff.mpr hs)) fun _ _ h => h
  split
  · rename_i t ht
    exact ((htext t ht).during _).bind fun _ => styles
  · exact styles

/-- Every id of `ys` names an item of the document `doc`. -/
def Present (doc : String) (ys : List String) (m : Memory) : Prop :=
  ∀ y ∈ ys, ∃ i ∈ m.tables.rows, i.id = y ∧ i.documentId = doc

theorem present_onRows (doc : String) (ys : List String) : OnRows (Present doc ys) :=
  fun _ _ hr h y hy => hr ▸ h y hy

theorem kept_createNodes (docId : String) (p : Plan) (nodes : List PlannedNode) :
    ∀ acc : List String, (∀ n ∈ nodes, Plan.Writable catalog n.text n.styles) →
      Triple (fun m => Kept catalog m₀ m ∧ Present docId acc m) (Plan.createNodes repository docId p nodes acc)
        (fun ids m => Kept catalog m₀ m ∧ Present docId ids m) := by
  intro acc hw
  refine Triple.createNodes_of (I := fun ids m => Kept catalog m₀ m ∧ Present docId ids m)
    (J := fun _ => True) (fun n hn acc _ => ?_)
    (fun n hn acc itemId _ => kept_applyStyles (present_onRows docId acc) itemId n.styles [] (hw n hn).2)
    acc
  rintro m item m' ⟨hk, hacc⟩ h
  obtain ⟨hk', hmem, hdoc⟩ := kept_createItem _ rfl (hw n hn).1 m item m' hk h
  obtain ⟨-, rfl, -, -⟩ := createItem_ok h
  refine ⟨⟨hk', fun y hy => ?_⟩, trivial⟩
  rcases List.mem_append.mp hy with hy | hy
  · obtain ⟨i, hi, hiy, hid⟩ := hacc y hy
    exact ⟨i, rows_addItem ▸ List.mem_append_left _ hi, hiy, hid⟩
  · exact ⟨_, hmem, (List.mem_singleton.mp hy).symm, hdoc⟩

theorem kept_upsertStyles' (itemId : String) {edits : List StyleEdit}
    (hv : ∀ e ∈ edits, catalog.validate e = .ok ()) :
    Triple (Kept catalog m₀) (StyleWrite.upsert repository itemId edits) (fun _ => Kept catalog m₀) :=
  (kept_upsertStyles (F := fun _ => True) (fun _ _ _ h => h) itemId hv).mono
    (fun _ h => ⟨h, trivial⟩) fun _ _ h => h.1

theorem kept_write {limits : Limits} {d : Document} {s : Snapshot} {p : Plan}
    (hp : Plan.make catalog limits d s = .ok p) (hd : d ∈ m₀.tables.documents) :
    Triple (Kept catalog m₀) (p.write repository d) (fun _ => Kept catalog m₀) := by
  obtain ⟨-, hrootText, hrootStyles, hnodes⟩ := Plan.make_writable hp
  have htoc : ∀ persisted m, Kept catalog m₀ m ∧ Present d.id persisted m →
      ∀ e ∈ m.tables.documents, e.id = d.id → ∀ x, p.tocItemId persisted = some x →
        ∃ i ∈ m.tables.rows, i.id = x ∧ i.documentId = d.id := by
    rintro persisted m ⟨hk, hpres⟩ e he hid x hx
    rcases Plan.tocItemId_mem hx with rfl | hx
    · obtain ⟨r, hr, -⟩ := hk.start.invariant.rooted d hd
      obtain ⟨i, hi, hir, hid'⟩ := hk.root_item hd hr he hid
      exact ⟨i, hi, hir.trans (Plan.make_rootItemId hp hr).symm, hid'.trans hid⟩
    · exact hpres x hx
  exact Triple.write_of (fun _ h => h.inTransaction true) (fun _ _ h => h.inTransaction false)
    (kept_deleteChildren _) (fun t ht => kept_updateText (hrootText t ht) _ _)
    (fun _ => kept_upsertStyles' _ hrootStyles) (fun _ _ h => h)
    ((kept_createNodes d.id p p.nodes [] hnodes).mono (fun m hk => ⟨hk, fun _ h => nomatch h⟩)
      fun _ _ h => h)
    (fun ids => (kept_setTocItem d.id _).mono (fun m h => ⟨h.1, htoc ids m h⟩) fun _ _ h => h)
    (fun _ _ h => h.tick) (fun _ => kept_touchDocument _) fun _ _ _ h => h

/-! ## Copying a document -/

theorem mem_childrenOf {items : List Item} {p : String} {i : Item}
    (h : i ∈ ItemNode.childrenOf items p) : i ∈ items :=
  (List.mem_filter.mp (List.mem_mergeSort.mp h)).1

theorem effectiveTitle_length_le {t : String} (h : t.length ≤ maxItemTextLength) :
    (effectiveTitle t).length ≤ maxItemTextLength := by
  unfold effectiveTitle
  split
  · decide
  · exact h

theorem Triple.copyChildren_of {I : List (String × String) → Memory → Prop} {docId destId : String}
    {srcs : List Item}
    (hcreate : ∀ src ∈ srcs, ∀ acc, Triple (I acc)
      (createItem ⟨"", docId, some destId, src.itemText, src.childOrder, false⟩)
      (fun dest => I (acc ++ [(src.id, dest.id)])))
    (visited : List String) (acc : List (String × String)) :
    Triple (I acc) (Copy.copyChildren repository docId destId srcs visited acc) (fun out => I out.1) := by
  induction srcs generalizing visited acc with
  | nil => exact Triple.pure_of _ fun _ h => h
  | cons src rest ih =>
    have hrest := ih fun i h => hcreate i (List.mem_cons_of_mem src h)
    unfold Copy.copyChildren
    exact Triple.ite (hrest visited acc) (((hcreate src List.mem_cons_self acc).during _).bind fun _ =>
      hrest _ _)

theorem Triple.copyWalk_of {I : Memory → Prop} {docId : String} {items : List Item}
    (hcreate : ∀ src ∈ items, ∀ destId, Triple I
      (createItem ⟨"", docId, some destId, src.itemText, src.childOrder, false⟩) (fun _ => I))
    (fuel : Nat) (stack : List (String × String)) (visited : List String) :
    Triple I (Copy.walk repository docId items fuel stack visited) (fun _ => I) := by
  induction fuel generalizing stack visited with
  | zero => exact Triple.pure_of _ fun _ h => h
  | succ fuel ih =>
    cases stack with
    | nil => exact Triple.pure_of _ fun _ h => h
    | cons frame stack =>
      exact (Triple.copyChildren_of (I := fun _ => I) (fun i h _ => hcreate i (mem_childrenOf h) _)
        _ _).bind fun _ => ih _ _

theorem Triple.replicate_of {I : Memory → Prop} {J : String → Prop} {source : Document} {items : List Item}
    {user : String}
    (hin : ∀ m, I m → I { m with inTransaction := true })
    (hout : ∀ m, I m → I { m with inTransaction := false })
    (hroot : Triple I (Copy.createWithRoot repository user) (fun x m => I m ∧ J x.1.id))
    (htitle : ∀ src ∈ items, ∀ docId rootId, J docId →
      Triple I (updateText docId rootId (effectiveTitle src.itemText)) (fun _ => I))
    (hcreate : ∀ docId, J docId → ∀ src ∈ items, ∀ destId, Triple I
      (createItem ⟨"", docId, some destId, src.itemText, src.childOrder, false⟩) (fun _ => I)) :
    Triple I (Copy.replicate repository source items user) (fun _ => I) := by
  unfold Copy.replicate
  split
  · exact Triple.raise _ _ _
  · rename_i srcRoot hfound
    have hsrc : srcRoot ∈ items := List.mem_of_find?_eq_some hfound
    refine Triple.atomically ((hroot.during _).bind fun x => ?_) hin fun _ => hout
    rcases x with ⟨d, root⟩
    refine Triple.of_pre (fun _ h => h.2) fun hd => ?_
    exact (((htitle srcRoot hsrc _ _ hd).mono (fun _ h => h.1) fun _ _ h => h).during _).bind
      fun _ => (Triple.copyWalk_of (hcreate _ hd) _ _ _).bind fun _ => Triple.pure_of _ fun _ h => h

theorem kept_replicate (source : Document) (items : List Item) (user : String)
    (htexts : ∀ i ∈ items, i.itemText.length ≤ maxItemTextLength) :
    Triple (Kept catalog m₀) (Copy.replicate repository source items user) (fun _ => Kept catalog m₀) :=
  Triple.replicate_of (J := fun _ => True) (fun _ h => h.inTransaction true)
    (fun _ h => h.inTransaction false)
    ((kept_createWithRoot user).mono (fun _ h => h) fun _ _ h => ⟨h, trivial⟩)
    (fun src hsrc _ _ _ => kept_updateText (effectiveTitle_length_le (htexts src hsrc)) _ _)
    fun docId _ src hsrc destId => (kept_createItem ⟨"", docId, some destId, src.itemText,
      src.childOrder, false⟩ rfl (htexts src hsrc)).mono (fun _ h => h) fun _ _ h => h.1

end Outliner.Memory
