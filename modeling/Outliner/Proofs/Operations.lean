import Outliner.Proofs.Steps
import Outliner.Proofs.Worklist

/-!
# What each store operation does

One lemma per operation of the in-memory store says what a run of it does: the reads leave the
store as it was, and each write either fails and leaves the tables as they were, or succeeds,
having passed its checks, with the tables changed in one stated way. Later proofs cite these
and never unfold an operation.
-/

set_option autoImplicit false

namespace Outliner.Memory

section Equations

variable {α : Type}

theorem exec_ite (c : Prop) [Decidable c] (x y : MemoryM α) (m : Memory) :
    exec (if c then x else y) m = if c then exec x m else exec y m := by
  split <;> rfl

@[simp] theorem exec_mint (m : Memory) :
    exec mint m = (.ok (Uuid.minted (m.minted + 1)), { m with minted := m.minted + 1 }) := rfl

theorem exec_now (m : Memory) :
    exec now m = (.ok (m.clock (m.readings + 1)), { m with readings := m.readings + 1 }) := rfl

theorem exec_liftExcept (r : Except Failure α) (m : Memory) :
    exec (updateDocument.liftExcept r) m = (r, m) := by
  cases r <;> rfl

end Equations

/-! ## The clock -/

theorem triple_now {P : Memory → Prop} (hP : ∀ m, P m → P { m with readings := m.readings + 1 }) :
    Triple P now (fun _ => P) := by
  intro m t m' hm h
  rw [exec_now, Prod.mk.injEq] at h
  obtain ⟨-, rfl⟩ := h
  exact hP m hm

/-! ## Reads -/

theorem exec_getDocument (id : String) (m : Memory) :
    exec (getDocument id) m =
      ((match document? m.tables id with
        | some d => .ok d
        | none => .error (noDocument id)), m) := by
  simp only [getDocument, exec_bind_ok (exec_tablesNow m)]
  cases document? m.tables id <;> rfl

theorem readsOnly_getDocument (id : String) : ReadsOnly (getDocument id) := fun m => by
  rw [exec_getDocument]

theorem readsOnly_lockDocument (id : String) : ReadsOnly (lockDocument id) :=
  (readsOnly_getDocument id).bind fun _ => ReadsOnly.pure _

theorem readsOnly_listDocuments (user : String) : ReadsOnly (listDocuments user) := fun _ => rfl

theorem exec_getItem (id : String) (m : Memory) :
    exec (getItem id) m =
      ((match item? m.tables id with
        | some i => .ok i
        | none => .error (Failure.notFound ("item " ++ id))), m) := by
  simp only [getItem, exec_bind_ok (exec_tablesNow m)]
  cases item? m.tables id <;> rfl

theorem readsOnly_getItem (id : String) : ReadsOnly (getItem id) := fun m => by
  rw [exec_getItem]

@[simp] theorem exec_listItems (doc : String) (m : Memory) :
    exec (listItems doc) m = (.ok (sortedItems m.tables (·.documentId == doc)), m) := rfl

theorem readsOnly_listItems (doc : String) : ReadsOnly (listItems doc) := fun _ => rfl

theorem readsOnly_listChildren (p : String) : ReadsOnly (listChildren p) := fun _ => rfl

@[simp] theorem exec_listItemStyles (i : String) (m : Memory) :
    exec (listItemStyles i) m =
      (.ok ((m.tables.styles.filter (·.itemId == i)).mergeSort (fun a b => a.property ≤ b.property)),
        m) := rfl

theorem readsOnly_listItemStyles (i : String) : ReadsOnly (listItemStyles i) := fun _ => rfl

theorem readsOnly_listDocumentStyles (doc : String) : ReadsOnly (listDocumentStyles doc) :=
  fun _ => rfl

theorem exec_getCategory (user doc name : String) (m : Memory) :
    exec (getCategory user doc name) m =
      ((match category? m.tables user doc name with
        | some c => .ok c
        | none => .error (Failure.notFound ("category " ++ name))), m) := by
  simp only [getCategory, exec_bind_ok (exec_tablesNow m)]
  cases category? m.tables user doc name <;> rfl

theorem readsOnly_getCategory (user doc name : String) : ReadsOnly (getCategory user doc name) :=
  fun m => by rw [exec_getCategory]

theorem readsOnly_categoriesWhere (keep : Category → Bool) : ReadsOnly (categoriesWhere keep) :=
  fun _ => rfl

/-! ## Documents -/

theorem updateDocument_cases (id : String) (f : Document → Except Failure Document) (m : Memory) :
    (∃ e, exec (updateDocument id f) m = (.error e, m)) ∨
    ∃ d d', document? m.tables id = some d ∧ f d = .ok d' ∧
      exec (updateDocument id f) m = (.ok (), { m with tables := { m.tables with
        documents := m.tables.documents.map fun e => if e.id == id then d' else e } }) := by
  simp only [updateDocument, exec_bind_ok (exec_tablesNow m)]
  cases hd : document? m.tables id with
  | none => exact .inl ⟨_, rfl⟩
  | some d =>
    simp only
    rw [exec_bind, exec_liftExcept]
    cases hf : f d with
    | error e => exact .inl ⟨e, rfl⟩
    | ok d' => exact .inr ⟨d, d', rfl, hf, rfl⟩

theorem exec_createDocument (user : String) (visible : Bool) (time : Time.Instant) (m : Memory) :
    exec (createDocument user visible time) m =
      (.ok ⟨Uuid.minted (m.minted + 1), user, none, none, visible, time, some time⟩,
        { m with minted := m.minted + 1, tables := { m.tables with
          documents := m.tables.documents ++
            [⟨Uuid.minted (m.minted + 1), user, none, none, visible, time, some time⟩] } }) :=
  rfl

theorem deleteDocument_cases (id : String) (m : Memory) :
    (document? m.tables id = none ∧ exec (deleteDocument id) m = (.error (noDocument id), m)) ∨
    ((document? m.tables id).isSome ∧
      exec (deleteDocument id) m = (.ok (), { m with tables :=
        let t := deleteSubtrees ((m.tables.items.filter fun e =>
          e.1.documentId == id && e.1.parentId.isNone).map (·.1.id)) m.tables
        { t with categories := t.categories.filter (·.documentId != id),
                 documents := t.documents.filter (·.id != id) } })) := by
  simp only [deleteDocument, exec_bind_ok (exec_tablesNow m), cascadeEach_eq_deleteSubtrees]
  cases hd : document? m.tables id with
  | none => exact .inl ⟨rfl, rfl⟩
  | some d => exact .inr ⟨rfl, rfl⟩

/-! ## Items -/

theorem createItem_error {i : Item} {m m' : Memory} {e : Failure}
    (h : exec (createItem i) m = (.error e, m')) : m' = { m with itemCreates := m.itemCreates + 1 } := by
  simp only [createItem, exec_bind, exec_get, exec_set, exec_ite, exec_throw] at h
  split at h
  · exact (Prod.mk.inj h).2.symm
  split at h
  · exact (Prod.mk.inj h).2.symm
  cases hp : i.parentId with
  | none => simp [hp, exec_bind, exec_map, Except.map] at h
  | some p =>
    cases hq : item? m.tables p with
    | none =>
      simp only [hp, hq] at h
      exact (Prod.mk.inj h).2.symm
    | some q =>
      simp only [hp, hq] at h
      split at h
      · simp only [exec_bind, exec_throw] at h
        exact (Prod.mk.inj h).2.symm
      · simp [exec_bind, exec_map, Except.map] at h

theorem createItem_ok {i i' : Item} {m m' : Memory} (h : exec (createItem i) m = (.ok i', m')) :
    i' = { i with id := Uuid.minted (m.minted + 1) } ∧
    m' = { m with minted := m.minted + 1, sequence := m.sequence + 1,
                  itemCreates := m.itemCreates + 1,
                  tables := { m.tables with items := m.tables.items ++ [(i', m.sequence + 1)] } } ∧
    (document? m.tables i.documentId).isSome ∧
    ∀ p, i.parentId = some p → ∃ q, item? m.tables p = some q ∧ q.documentId = i.documentId := by
  simp only [createItem, exec_bind, exec_get, exec_set, exec_ite, exec_throw] at h
  split at h
  · cases h
  split at h
  · cases h
  rename_i hdoc
  have hdoc' : (document? m.tables i.documentId).isSome := by
    cases hd : document? m.tables i.documentId <;> simp_all
  cases hp : i.parentId with
  | none =>
    simp [hp, exec_bind, exec_map, Except.map] at h
    obtain ⟨rfl, rfl⟩ := h
    exact ⟨by simp, by simp, hdoc', by simp⟩
  | some p =>
    simp only [hp] at h
    cases hq : item? m.tables p with
    | none => simp [hq] at h
    | some q =>
      simp only [hq] at h
      split at h
      · simp at h
      · rename_i hq'
        simp [exec_bind, exec_map, Except.map] at h
        obtain ⟨rfl, rfl⟩ := h
        refine ⟨by simp, by simp, hdoc', ?_⟩
        intro p' hp'
        cases hp'
        exact ⟨q, hq, by simpa using hq'⟩

theorem exec_deleteChildren (p : String) (m : Memory) :
    exec (deleteChildren p) m =
      (.ok (m.tables.items.filter fun e => e.1.isChildOf p).length,
        { m with tables := deleteSubtrees ((m.tables.items.filter fun e => e.1.isChildOf p).map
          (·.1.id)) m.tables }) := by
  simp [deleteChildren, childIds, cascadeEach_eq_deleteSubtrees, exec_bind, exec_map, Except.map]

theorem updateText_cases (doc id text : String) (m : Memory) :
    (∃ e, exec (updateText doc id text) m = (.error e, m)) ∨
    ∃ i, item? m.tables id = some i ∧ i.documentId = doc ∧
      exec (updateText doc id text) m = (.ok (), { m with tables := { m.tables with
        items := m.tables.items.map fun e =>
          if e.1.id == id then ({ e.1 with itemText := text }, e.2) else e } }) := by
  simp only [updateText, exec_bind_ok (exec_tablesNow m)]
  cases hi : item? m.tables id with
  | none => exact .inl ⟨_, rfl⟩
  | some i =>
    simp only [exec_bind, exec_ite, exec_throw, exec_modifyTables]
    by_cases hd : i.documentId = doc
    · exact .inr ⟨i, rfl, hd, by simp [hd]⟩
    · exact .inl ⟨Failure.notFound ("item " ++ id), by simp [hd]⟩

/-! ## Styles -/

theorem insertStyle_cases (st : Style) (m : Memory) :
    (∃ e, exec (insertStyle st) m = (.error e, m)) ∨
    ((item? m.tables st.itemId).isSome ∧
      (m.tables.styles.any fun s => s.itemId == st.itemId && s.property == st.property) = false ∧
      exec (insertStyle st) m =
        (.ok (), { m with tables := { m.tables with styles := m.tables.styles ++ [st] } })) := by
  simp only [insertStyle, exec_bind_ok (exec_tablesNow m), exec_bind, exec_ite, exec_throw,
    exec_modifyTables]
  by_cases hi : (item? m.tables st.itemId).isNone = true
  · exact .inl ⟨⟨.validation, "insert style: validation failed"⟩, by simp [hi]⟩
  · by_cases hs : (m.tables.styles.any fun s => s.itemId == st.itemId && s.property == st.property) = true
    · exact .inl ⟨⟨.conflict "style exists" "style" "", "style exists"⟩, by simp [hi, hs]⟩
    · refine .inr ⟨by cases h : item? m.tables st.itemId <;> simp_all, by simpa using hs, ?_⟩
      simp [hi, hs]

theorem updateStyle_cases (st : Style) (m : Memory) :
    (∃ e, exec (updateStyle st) m = (.error e, m)) ∨
    ((m.tables.styles.any fun s => s.itemId == st.itemId && s.property == st.property) = true ∧
      exec (updateStyle st) m = (.ok (), { m with tables := { m.tables with
        styles := m.tables.styles.map fun s =>
          if s.itemId == st.itemId && s.property == st.property then st else s } })) := by
  simp only [updateStyle, exec_bind_ok (exec_tablesNow m), exec_bind, exec_ite, exec_throw,
    exec_modifyTables]
  by_cases hs : (m.tables.styles.any fun s => s.itemId == st.itemId && s.property == st.property) = true
  · exact .inr ⟨hs, by simp [hs]⟩
  · exact .inl ⟨Failure.notFound ("style " ++ st.property), by simp [hs]⟩

/-! ## Categories -/

theorem createCategory_cases (user doc name : String) (m : Memory) :
    (∃ e, exec (createCategory user doc name) m = (.error e, m)) ∨
    (category? m.tables user doc name = none ∧
      exec (createCategory user doc name) m =
        (.ok ⟨Uuid.minted (m.minted + 1), user, doc, name⟩,
          { m with
            minted := m.minted + 1
            tables := { m.tables with
              categories := m.tables.categories ++ [⟨Uuid.minted (m.minted + 1), user, doc, name⟩] } })) := by
  simp only [createCategory, exec_bind_ok (exec_tablesNow m)]
  cases hc : category? m.tables user doc name with
  | some c => exact .inl ⟨_, rfl⟩
  | none => exact .inr ⟨rfl, rfl⟩

theorem deleteCategory_cases (user doc name : String) (m : Memory) :
    (∃ e, exec (deleteCategory user doc name) m = (.error e, m)) ∨
    ∃ c, category? m.tables user doc name = some c ∧
      exec (deleteCategory user doc name) m = (.ok (), { m with tables := { m.tables with
        categories := m.tables.categories.filter (·.id != c.id) } }) := by
  simp only [deleteCategory, exec_bind_ok (exec_tablesNow m)]
  cases hc : category? m.tables user doc name with
  | none => exact .inl ⟨_, rfl⟩
  | some c => exact .inr ⟨c, rfl, rfl⟩

/-! ## Ids are only minted -/

section Advancing

theorem advanced_of_minted {m m' : Memory} (hn : m.minted ≤ m'.minted)
    (ht : m'.inTransaction = m.inTransaction) : Advanced m m' :=
  ⟨hn, fun h => ht.trans h⟩

theorem advances_updateDocument (id : String) (f : Document → Except Failure Document) :
    Advances (updateDocument id f) := by
  intro m
  rcases updateDocument_cases id f m with ⟨e, h⟩ | ⟨d, d', -, -, h⟩ <;> rw [h]
  · exact Advanced.refl m
  · exact advanced_of_minted (Nat.le_refl _) rfl

theorem advances_now : Advances now := fun _ => advanced_of_minted (Nat.le_refl _) rfl

theorem advances_createDocument (user : String) (visible : Bool) (time : Time.Instant) :
    Advances (createDocument user visible time) := fun _ => by
  rw [exec_createDocument]
  exact advanced_of_minted (Nat.le_succ _) rfl

theorem advances_createItem (i : Item) : Advances (createItem i) := by
  intro m
  rcases h : exec (createItem i) m with ⟨r, m'⟩
  cases r with
  | error e =>
    rw [createItem_error h]
    exact advanced_of_minted (Nat.le_refl _) rfl
  | ok i' =>
    obtain ⟨-, rfl, -⟩ := createItem_ok h
    exact advanced_of_minted (Nat.le_succ _) rfl

theorem advances_deleteChildren (p : String) : Advances (deleteChildren p) := fun m => by
  rw [exec_deleteChildren]
  exact advanced_of_minted (Nat.le_refl _) rfl

theorem advances_updateText (doc id text : String) : Advances (updateText doc id text) := by
  intro m
  rcases updateText_cases doc id text m with ⟨e, h⟩ | ⟨i, -, -, h⟩ <;> rw [h]
  · exact Advanced.refl m
  · exact advanced_of_minted (Nat.le_refl _) rfl

theorem advances_insertStyle (st : Style) : Advances (insertStyle st) := by
  intro m
  rcases insertStyle_cases st m with ⟨e, h⟩ | ⟨-, -, h⟩ <;> rw [h]
  · exact Advanced.refl m
  · exact advanced_of_minted (Nat.le_refl _) rfl

theorem advances_updateStyle (st : Style) : Advances (updateStyle st) := by
  intro m
  rcases updateStyle_cases st m with ⟨e, h⟩ | ⟨-, h⟩ <;> rw [h]
  · exact Advanced.refl m
  · exact advanced_of_minted (Nat.le_refl _) rfl

theorem advances_createCategory (user doc name : String) :
    Advances (createCategory user doc name) := by
  intro m
  rcases createCategory_cases user doc name m with ⟨e, h⟩ | ⟨-, h⟩ <;> rw [h]
  · exact Advanced.refl m
  · exact advanced_of_minted (Nat.le_succ _) rfl

theorem advances_deleteCategory (user doc name : String) :
    Advances (deleteCategory user doc name) := by
  intro m
  rcases deleteCategory_cases user doc name m with ⟨e, h⟩ | ⟨c, -, h⟩ <;> rw [h]
  · exact Advanced.refl m
  · exact advanced_of_minted (Nat.le_refl _) rfl

theorem advances_deleteDocument (id : String) : Advances (deleteDocument id) := by
  intro m
  rcases deleteDocument_cases id m with ⟨-, h⟩ | ⟨-, h⟩ <;> rw [h]
  · exact Advanced.refl m
  · exact advanced_of_minted (Nat.le_refl _) rfl

end Advancing

end Outliner.Memory
