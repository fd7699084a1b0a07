import Mathlib
import Outliner.Proofs.Holdings
import Outliner.Proofs.Keeping

/-!
# One style row per item and property

The store inserts a style only where its item has none for the property, and an update puts
a row of the same item and property in place of each row of that key; every other write
keeps the styles or drops some. So no two style rows of a reachable store share their item and
property (`Reachable.styleKeysUnique`): `Tables.stylesAt t i q` is the row of item `i` for
property `q`, or nothing.

Writing edits to an item (`StyleWrite.apply`) with one edit per property, from such a store,
makes each edit the item's one row for its property and leaves every other row as it was
(`apply_written`), whichever of the edits it took for updates. The planner lets a node through
only with one edit per property (`Plan.make_styles`).
-/

set_option autoImplicit false

namespace Outliner

/-- The key of a style row: its item and its property. -/
def Style.key (s : Style) : String × String := (s.itemId, s.property)

namespace Tables

/-- The style rows of item `i`, in table order. -/
def stylesOf (t : Tables) (i : String) : List Style := t.styles.filter (·.itemId == i)

/-- The style rows of item `i` for property `q`. -/
def stylesAt (t : Tables) (i q : String) : List Style :=
  t.styles.filter fun s => s.itemId == i && s.property == q

theorem stylesAt_eq_filter (t : Tables) (i q : String) :
    t.stylesAt i q = (t.stylesOf i).filter (·.property == q) := by
  unfold stylesAt stylesOf
  rw [List.filter_filter]
  exact List.filter_congr fun s _ => Bool.and_comm _ _

theorem stylesAt_of_stylesOf_nil {t : Tables} {i : String} (h : t.stylesOf i = []) (q : String) :
    t.stylesAt i q = [] := by
  rw [stylesAt_eq_filter, h, List.filter_nil]

section Write

variable (t : Tables) (st : Style)

theorem stylesAt_append (i q : String) :
    { t with styles := t.styles ++ [st] }.stylesAt i q =
      t.stylesAt i q ++ if st.itemId = i ∧ st.property = q then [st] else [] := by
  unfold stylesAt
  rw [List.filter_append]
  by_cases hi : st.itemId = i <;> by_cases hq : st.property = q <;> simp [hi, hq]

theorem stylesOf_append {y : String} (hy : st.itemId ≠ y) :
    { t with styles := t.styles ++ [st] }.stylesOf y = t.stylesOf y := by
  unfold stylesOf
  simp [List.filter_append, hy]

/-- The rows an update puts in place: `st` for each row of its key. -/
def replaced (st : Style) (s : Style) : Style :=
  if s.itemId == st.itemId && s.property == st.property then st else s

theorem key_replaced (s : Style) : (replaced st s).key = s.key := by
  unfold replaced
  by_cases hs : (s.itemId == st.itemId && s.property == st.property) = true
  · simp only [Bool.and_eq_true, beq_iff_eq] at hs
    simp [Style.key, hs.1, hs.2]
  · rw [if_neg hs]

theorem stylesAt_replaced (i q : String) :
    { t with styles := t.styles.map (replaced st) }.stylesAt i q =
      if st.itemId = i ∧ st.property = q then (t.stylesAt i q).map fun _ => st
      else t.stylesAt i q := by
  unfold stylesAt
  -- whether a row is kept depends on its key only, which the update keeps
  have hkey : ∀ s, (replaced st s).itemId = s.itemId ∧ (replaced st s).property = s.property :=
    fun s => Prod.mk.inj (key_replaced st s)
  rw [List.filter_map]
  have hp : (fun s => (s.itemId == i && s.property == q)) ∘ replaced st =
      fun s => s.itemId == i && s.property == q := by
    funext s
    simp only [Function.comp_apply, (hkey s).1, (hkey s).2]
  rw [hp]
  split
  · rename_i h
    refine List.map_congr_left fun s hs => ?_
    have hs' := (List.mem_filter.mp hs).2
    simp only [Bool.and_eq_true, beq_iff_eq] at hs'
    simp [replaced, hs'.1, hs'.2, h.1, h.2]
  · rename_i h
    refine (List.map_congr_left fun s hs => ?_).trans (List.map_id _)
    have hs' := (List.mem_filter.mp hs).2
    simp only [Bool.and_eq_true, beq_iff_eq] at hs'
    have hne : ¬ (i = st.itemId ∧ q = st.property) := fun h' => h ⟨h'.1.symm, h'.2.symm⟩
    simp only [replaced, hs'.1, hs'.2, id_eq]
    simp [hne]

theorem stylesOf_replaced {y : String} (hy : st.itemId ≠ y) :
    { t with styles := t.styles.map (replaced st) }.stylesOf y = t.stylesOf y := by
  unfold stylesOf
  refine filter_map_fixed _ _ _ (fun s _ => by rw [(Prod.mk.inj (key_replaced st s)).1])
    fun s _ hs => ?_
  have hs' : s.itemId = y := by simpa using hs
  unfold replaced
  rw [if_neg (by simp [hs', Ne.symm hy])]

end Write

/-- Item `i` has each edit of `es` as its one row for the edit's property, and for every other
property `q` the rows `old q`. -/
structure EditsOver (t : Tables) (i : String) (es : List StyleEdit) (old : String → List Style) :
    Prop where
  edited : ∀ e ∈ es, t.stylesAt i e.property = [e.toStyle i]
  kept : ∀ q, (∀ e ∈ es, e.property ≠ q) → t.stylesAt i q = old q

namespace EditsOver

variable {t t' : Tables} {i : String} {es : List StyleEdit} {old : String → List Style}

theorem of_stylesAt (h : ∀ q, t.stylesAt i q = old q) : t.EditsOver i [] old :=
  ⟨fun _ he => absurd he List.not_mem_nil, fun q _ => h q⟩

theorem append {es₁ es₂ : List StyleEdit} (h₁ : t.EditsOver i es₁ old)
    (h₂ : t'.EditsOver i es₂ (t.stylesAt i))
    (hdisj : ∀ e ∈ es₁, ∀ e' ∈ es₂, e'.property ≠ e.property) : t'.EditsOver i (es₁ ++ es₂) old where
  edited e he := by
    rcases List.mem_append.mp he with he | he
    · rw [h₂.kept _ (hdisj e he)]
      exact h₁.edited e he
    · exact h₂.edited e he
  kept q hq := by
    rw [h₂.kept q fun e he => hq e (List.mem_append_right _ he)]
    exact h₁.kept q fun e he => hq e (List.mem_append_left _ he)

theorem of_stylesOf (h : t.EditsOver i es old) (h' : t'.stylesOf i = t.stylesOf i) :
    t'.EditsOver i es old := by
  have hat : ∀ q, t'.stylesAt i q = t.stylesAt i q := fun q => by
    rw [stylesAt_eq_filter, stylesAt_eq_filter, h']
  exact ⟨fun e he => (hat _).trans (h.edited e he), fun q hq => (hat q).trans (h.kept q hq)⟩

end EditsOver

end Tables

namespace Memory

/-- No two style rows share their item and property. -/
def StyleKeysUnique (m : Memory) : Prop := (m.tables.styles.map Style.key).Nodup

variable {m m' : Memory}

theorem StyleKeysUnique.of_sublist (h : m'.tables.styles.Sublist m.tables.styles)
    (hu : StyleKeysUnique m) : StyleKeysUnique m' :=
  (h.map Style.key).nodup hu

theorem StyleKeysUnique.length_stylesAt_le (hu : StyleKeysUnique m) (i q : String) :
    (m.tables.stylesAt i q).length ≤ 1 := by
  have hnodup : ((m.tables.stylesAt i q).map Style.key).Nodup := (List.filter_sublist.map _).nodup hu
  have hall : ∀ k ∈ (m.tables.stylesAt i q).map Style.key, k = (i, q) := by
    intro k hk
    obtain ⟨s, hs, rfl⟩ := List.mem_map.mp hk
    have hkey := (List.mem_filter.mp hs).2
    simp only [Bool.and_eq_true, beq_iff_eq] at hkey
    rw [Style.key, hkey.1, hkey.2]
  rw [List.eq_replicate_iff.mpr ⟨rfl, hall⟩, List.nodup_replicate] at hnodup
  simpa using hnodup

/-! ## Every operation keeps the keys apart -/

theorem styleKeys_createDocument (user : String) (visible : Bool) (time : Time.Instant) :
    Triple StyleKeysUnique (createDocument user visible time) (fun _ => StyleKeysUnique) := by
  intro m a m' h hx
  rw [exec_createDocument, Prod.mk.injEq] at hx
  rw [← hx.2]
  exact h

theorem styleKeys_updateDocument (id : String) (f : Document → Except Failure Document) :
    Triple StyleKeysUnique (updateDocument id f) (fun _ => StyleKeysUnique) := by
  intro m a m' h hx
  rcases updateDocument_cases id f m with ⟨e, he⟩ | ⟨_, _, -, -, he⟩ <;> rw [he] at hx
  · cases hx
  obtain ⟨-, rfl⟩ := Prod.mk.inj hx
  exact h

theorem styleKeys_deleteDocument (id : String) :
    Triple StyleKeysUnique (deleteDocument id) (fun _ => StyleKeysUnique) := by
  intro m a m' h hx
  rcases deleteDocument_cases id m with ⟨-, he⟩ | ⟨-, he⟩ <;> rw [he] at hx
  · cases hx
  obtain ⟨-, rfl⟩ := Prod.mk.inj hx
  exact StyleKeysUnique.of_sublist List.filter_sublist h

theorem styleKeys_createItem (i : Item) :
    Triple StyleKeysUnique (createItem i) (fun _ => StyleKeysUnique) := by
  intro m a m' h hx
  obtain ⟨-, rfl, -, -⟩ := createItem_ok hx
  exact h

theorem styleKeys_updateText (doc id text : String) :
    Triple StyleKeysUnique (updateText doc id text) (fun _ => StyleKeysUnique) := by
  intro m a m' h hx
  rcases updateText_cases doc id text m with ⟨e, he⟩ | ⟨_, -, -, he⟩ <;> rw [he] at hx
  · cases hx
  obtain ⟨-, rfl⟩ := Prod.mk.inj hx
  exact h

theorem styleKeys_deleteChildren (p : String) :
    Triple StyleKeysUnique (deleteChildren p) (fun _ => StyleKeysUnique) := by
  intro m a m' h hx
  rw [exec_deleteChildren, Prod.mk.injEq] at hx
  rw [← hx.2]
  exact StyleKeysUnique.of_sublist List.filter_sublist h

theorem styleKeys_insertStyle (st : Style) :
    Triple StyleKeysUnique (insertStyle st) (fun _ => StyleKeysUnique) := by
  intro m a m' h hx
  rcases insertStyle_cases st m with ⟨e, he⟩ | ⟨-, hnone, he⟩ <;> rw [he] at hx
  · cases hx
  obtain ⟨-, rfl⟩ := Prod.mk.inj hx
  show ((m.tables.styles ++ [st]).map Style.key).Nodup
  rw [List.map_append, List.nodup_append]
  refine ⟨h, List.nodup_singleton _, fun k hk k' hk' hkk' => ?_⟩
  obtain ⟨s, hs, rfl⟩ := List.mem_map.mp hk
  rw [List.map_singleton, List.mem_singleton] at hk'
  obtain ⟨hid, hprop⟩ := Prod.mk.inj (hkk'.trans hk')
  have := List.any_eq_false.mp hnone s hs
  simp [hid, hprop] at this

theorem styleKeys_updateStyle (st : Style) :
    Triple StyleKeysUnique (updateStyle st) (fun _ => StyleKeysUnique) := by
  intro m a m' h hx
  rcases updateStyle_cases st m with ⟨e, he⟩ | ⟨-, he⟩ <;> rw [he] at hx
  · cases hx
  obtain ⟨-, rfl⟩ := Prod.mk.inj hx
  show ((m.tables.styles.map fun s =>
    if s.itemId == st.itemId && s.property == st.property then st else s).map Style.key).Nodup
  rw [List.map_map]
  refine (List.map_congr_left fun s _ => ?_).symm ▸ h
  by_cases hs : (s.itemId == st.itemId && s.property == st.property) = true
  · simp only [Bool.and_eq_true, beq_iff_eq] at hs
    simp [Style.key, hs.1, hs.2]
  · simp only [Bool.and_eq_true, beq_iff_eq] at hs
    simp [hs]

theorem styleKeys_createCategory (user doc name : String) :
    Triple StyleKeysUnique (createCategory user doc name) (fun _ => StyleKeysUnique) := by
  intro m a m' h hx
  rcases createCategory_cases user doc name m with ⟨e, he⟩ | ⟨-, he⟩ <;> rw [he] at hx
  · cases hx
  obtain ⟨-, rfl⟩ := Prod.mk.inj hx
  exact h

theorem styleKeys_deleteCategory (user doc name : String) :
    Triple StyleKeysUnique (deleteCategory user doc name) (fun _ => StyleKeysUnique) := by
  intro m a m' h hx
  rcases deleteCategory_cases user doc name m with ⟨e, he⟩ | ⟨c, -, he⟩ <;> rw [he] at hx
  · cases hx
  obtain ⟨-, rfl⟩ := Prod.mk.inj hx
  exact h

theorem styleKeys_keptByOps : KeptByOps StyleKeysUnique where
  tables m m' ht h := by
    unfold StyleKeysUnique
    rw [ht]
    exact h
  empty _ _ := List.nodup_nil
  createDocument := styleKeys_createDocument
  updateDocument := styleKeys_updateDocument
  deleteDocument := styleKeys_deleteDocument
  createItem i _ _ := styleKeys_createItem i
  updateText := styleKeys_updateText
  deleteChildren := styleKeys_deleteChildren
  insertStyle := styleKeys_insertStyle
  updateStyle := styleKeys_updateStyle
  createCategory := styleKeys_createCategory
  deleteCategory := styleKeys_deleteCategory

/-! ## Writing edits to an item -/

/-- From `m` to `m'` only the styles changed: the keys are still apart, each edit of `es` is
item `i`'s one row for its property over the rows it had, and every row of another item is as
it was. -/
structure StylesWritten (i : String) (es : List StyleEdit) (m m' : Memory) : Prop where
  only_styles : ∃ S, m' = { m with tables := { m.tables with styles := S } }
  keys : StyleKeysUnique m'
  rows : m'.tables.EditsOver i es (m.tables.stylesAt i)
  others : ∀ y, y ≠ i → m'.tables.stylesOf y = m.tables.stylesOf y

namespace StylesWritten

variable {i : String} {m₁ : Memory}

theorem nil (hu : StyleKeysUnique m) : StylesWritten i [] m m :=
  ⟨⟨m.tables.styles, rfl⟩, hu, .of_stylesAt fun _ => rfl, fun _ _ => rfl⟩

theorem cons {e : StyleEdit} {es : List StyleEdit} (h₁ : StylesWritten i [e] m m₁)
    (h₂ : StylesWritten i es m₁ m') (hne : ∀ e' ∈ es, e'.property ≠ e.property) :
    StylesWritten i (e :: es) m m' where
  only_styles := by
    obtain ⟨S₁, rfl⟩ := h₁.only_styles
    obtain ⟨S₂, rfl⟩ := h₂.only_styles
    exact ⟨S₂, rfl⟩
  keys := h₂.keys
  rows := h₁.rows.append h₂.rows fun _ he => List.mem_singleton.mp he ▸ hne
  others y hy := (h₂.others y hy).trans (h₁.others y hy)

theorem of_insertStyle {e : StyleEdit} (hu : StyleKeysUnique m)
    (hx : exec (insertStyle (e.toStyle i)) m = (.ok (), m')) : StylesWritten i [e] m m' := by
  have hkeys := styleKeys_insertStyle (e.toStyle i) m () m' hu hx
  rcases insertStyle_cases (e.toStyle i) m with ⟨x, he⟩ | ⟨-, hnone, he⟩ <;> rw [he] at hx
  · cases hx
  obtain ⟨-, rfl⟩ := Prod.mk.inj hx
  have hold : m.tables.stylesAt i e.property = [] :=
    List.filter_eq_nil_iff.mpr fun s hs => by
      simpa [StyleEdit.toStyle] using List.any_eq_false.mp hnone s hs
  refine ⟨⟨_, rfl⟩, hkeys, ⟨fun e' he' => ?_, fun q hq => ?_⟩, fun y hy => ?_⟩
  · rw [List.mem_singleton.mp he', Tables.stylesAt_append, hold]
    simp [StyleEdit.toStyle]
  · have hq' : e.property ≠ q := hq e List.mem_cons_self
    rw [Tables.stylesAt_append]
    simp [StyleEdit.toStyle, hq']
  · exact Tables.stylesOf_append _ _ (Ne.symm hy)

theorem of_updateStyle {e : StyleEdit} (hu : StyleKeysUnique m)
    (hx : exec (updateStyle (e.toStyle i)) m = (.ok (), m')) : StylesWritten i [e] m m' := by
  have hkeys := styleKeys_updateStyle (e.toStyle i) m () m' hu hx
  rcases updateStyle_cases (e.toStyle i) m with ⟨x, he⟩ | ⟨hsome, he⟩ <;> rw [he] at hx
  · cases hx
  obtain ⟨-, rfl⟩ := Prod.mk.inj hx
  have hone : (m.tables.stylesAt i e.property).length = 1 := by
    refine Nat.le_antisymm (hu.length_stylesAt_le i e.property) (List.length_pos_iff.mpr fun hnil => ?_)
    obtain ⟨s, hs, hkey⟩ := List.any_eq_true.mp hsome
    have : s ∈ m.tables.stylesAt i e.property := List.mem_filter.mpr ⟨hs, by simpa [StyleEdit.toStyle] using hkey⟩
    rw [hnil] at this
    exact List.not_mem_nil this
  obtain ⟨s₀, hs₀⟩ := List.length_eq_one_iff.mp hone
  refine ⟨⟨_, rfl⟩, hkeys, ⟨fun e' he' => ?_, fun q hq => ?_⟩, fun y hy => ?_⟩
  · rw [List.mem_singleton.mp he']
    show { m.tables with styles := m.tables.styles.map (Tables.replaced (e.toStyle i)) }.stylesAt
      i e.property = _
    rw [Tables.stylesAt_replaced, if_pos ⟨rfl, rfl⟩, hs₀, List.map_singleton]
  · have hq' : e.property ≠ q := hq e List.mem_cons_self
    show { m.tables with styles := m.tables.styles.map (Tables.replaced (e.toStyle i)) }.stylesAt
      i q = _
    rw [Tables.stylesAt_replaced, if_neg fun h => hq' h.2]
  · exact Tables.stylesOf_replaced _ _ (Ne.symm hy)

end StylesWritten

theorem apply_written (i : String) :
    ∀ (es : List StyleEdit) (present : List String) {m m' : Memory} {r : List Style},
      (es.map (·.property)).Nodup → StyleKeysUnique m →
      exec (StyleWrite.apply repository i es present) m = (.ok r, m') → StylesWritten i es m m'
  | [], _, m, m', r, _, hu, hx => by
    unfold StyleWrite.apply at hx
    rw [exec_pure, Prod.mk.injEq] at hx
    rw [← hx.2]
    exact StylesWritten.nil hu
  | e :: es, present, m, m', r, hnodup, hu, hx => by
    unfold StyleWrite.apply at hx
    dsimp only [repository] at hx
    obtain ⟨hnotin, hnodup'⟩ := List.nodup_cons.mp hnodup
    have hne : ∀ e' ∈ es, e'.property ≠ e.property := fun e' he' h =>
      hnotin (List.mem_map.mpr ⟨e', he', h⟩)
    by_cases hp : present.contains e.property = true
    · rw [if_pos hp] at hx
      obtain ⟨_, m₁, h₁, hx⟩ := exec_bind_eq_ok.mp hx
      obtain ⟨rest, m₂, h₂, hx⟩ := exec_bind_eq_ok.mp hx
      rw [exec_pure, Prod.mk.injEq] at hx
      obtain ⟨-, rfl⟩ := hx
      have hw₁ := StylesWritten.of_updateStyle hu (exec_during_eq_ok.mp h₁)
      exact hw₁.cons (apply_written i es present hnodup' hw₁.keys h₂) hne
    · rw [if_neg hp] at hx
      obtain ⟨_, m₁, h₁, hx⟩ := exec_bind_eq_ok.mp hx
      obtain ⟨rest, m₂, h₂, hx⟩ := exec_bind_eq_ok.mp hx
      rw [exec_pure, Prod.mk.injEq] at hx
      obtain ⟨-, rfl⟩ := hx
      have hw₁ := StylesWritten.of_insertStyle hu (exec_during_eq_ok.mp h₁)
      exact hw₁.cons (apply_written i es _ hnodup' hw₁.keys h₂) hne

end Memory

theorem Reachable.styleKeysUnique {catalog : Catalog} {limits : Limits} {m : Memory}
    (h : Reachable catalog limits m) : Memory.StyleKeysUnique m :=
  Memory.styleKeys_keptByOps.reachable h

namespace Plan

theorem make_styles {catalog : Catalog} {limits : Limits} {d : Document} {s : Snapshot} {p : Plan}
    (h : Plan.make catalog limits d s = .ok p) :
    (∃ root, s.node? s.rootItem = some root ∧ p.rootStyles = root.styles ∧
      (root.styles.map (·.property)).Nodup) ∧
    ∀ n ∈ p.nodes, ∃ node, s.node? n.clientId = some node ∧ n.styles = node.styles ∧
      (node.styles.map (·.property)).Nodup := by
  simp only [Plan.make] at h
  obtain ⟨_, -, h⟩ := except_bind_eq_ok.mp h
  obtain ⟨root, hroot, h⟩ := except_bind_eq_ok.mp h
  obtain ⟨_, hcheck, h⟩ := except_bind_eq_ok.mp h
  obtain ⟨w, hw, h⟩ := except_bind_eq_ok.mp h
  cases h
  exact ⟨⟨root, (resolveRoot_ok hroot).1, rfl, checkNode_nodup hcheck⟩,
    walk_nodes limits s _ (fun f n hn hcheck => ⟨n, hn, rfl, checkNode_nodup hcheck⟩) _ _ _ w hw
      (fun _ h => absurd h List.not_mem_nil)⟩

end Plan

end Outliner
