import Mathlib
import Outliner.Proofs.Holdings
import Outliner.Proofs.Preservation

/-!
# Writes confined to one document

`Tables.Confined D t t'` says that from `t` to `t'` only the document `D` changed: every other
document holds its row, items and styles as they were, the categories on other documents are
as they were, and `D` kept its row if it had one. Each write of the store that succeeds, run on
a consistent store, is confined to the document it names, or, for a write on an item, to the
document that item belongs to (`OnlyIn`); deleting a document is the one write that does not
keep the document's row.

The checks that make this so are the store's own: a text is set only on an item of the
document named, an item is created only in the document named, a category is put only on the
document named. Where the store does not check, ids do the work: no two items share one, and
no two categories.
-/

set_option autoImplicit false

namespace Outliner

namespace Tables

variable {D y : String} {t t' t'' : Tables}

/-- From `t` to `t'`, only the document `D` changed: every other document holds what it held,
the categories on other documents stayed, and `D` kept its row if it had one. -/
structure Confined (D : String) (t t' : Tables) : Prop where
  holdings : ∀ x, x ≠ D → t'.holdings x = t.holdings x
  categories : t'.categories.filter (·.documentId != D) = t.categories.filter (·.documentId != D)
  stays : (∃ d ∈ t.documents, d.id = D) → ∃ d ∈ t'.documents, d.id = D

namespace Confined

theorem refl (D : String) (t : Tables) : Confined D t t := ⟨fun _ _ => rfl, rfl, id⟩

theorem trans (h₁ : Confined D t t') (h₂ : Confined D t' t'') : Confined D t t'' where
  holdings x hx := (h₂.holdings x hx).trans (h₁.holdings x hx)
  categories := h₂.categories.trans h₁.categories
  stays h := h₂.stays (h₁.stays h)

theorem of_holdings (hh : ∀ x, x ≠ D → t'.holdings x = t.holdings x) (hc : t'.categories = t.categories)
    (hd : ∀ d ∈ t.documents, ∃ d' ∈ t'.documents, d'.id = d.id) : Confined D t t' where
  holdings := hh
  categories := by rw [hc]
  stays := by
    rintro ⟨d, hd', rfl⟩
    exact hd d hd'

end Confined

/-- Every item with the id `y` is an item of the document `D`. -/
def OnlyIn (D : String) (t : Tables) (y : String) : Prop :=
  ∀ i ∈ t.rows, i.id = y → i.documentId = D

theorem Confined.onlyIn (h : Confined D t t') (hy : t.OnlyIn D y) : t'.OnlyIn D y := by
  intro i hi hiy
  by_contra hx
  obtain ⟨e, he, rfl⟩ := List.mem_map.mp hi
  exact hx (hy e.1 (List.mem_map_of_mem (mem_items_of_holdings (h.holdings _ hx) he rfl)) hiy)

theorem Confined.onlyIn_back (h : Confined D t t') (hy : t'.OnlyIn D y) : t.OnlyIn D y := by
  intro j hj hjy
  by_contra hx
  obtain ⟨e, he, rfl⟩ := List.mem_map.mp hj
  exact hx (hy e.1 (List.mem_map_of_mem (mem_items_of_holdings (h.holdings _ hx).symm he rfl)) hjy)

theorem OnlyIn.of_mem (hnodup : (t.rows.map (·.id)).Nodup) {i : Item} (hi : i ∈ t.rows)
    (hD : i.documentId = D) : t.OnlyIn D i.id :=
  fun j hj hji => by rw [List.inj_on_of_nodup_map hnodup hj hi hji, hD]

end Tables

namespace Memory

open Tables

variable {catalog : Catalog} {m m' : Memory} {a : Unit} {D : String}

/-! ## Each write is confined to the document it names -/

theorem confined_updateText (hc : Consistent catalog m) {id text : String}
    (hx : exec (updateText D id text) m = (.ok a, m')) : m.tables.Confined D m'.tables := by
  rcases updateText_cases D id text m with ⟨e, he⟩ | ⟨i, hi, hid, he⟩ <;> rw [he] at hx
  · cases hx
  obtain ⟨-, rfl⟩ := Prod.mk.inj hx
  refine Confined.of_holdings (fun x hx => ?_) rfl fun d hd => ⟨d, hd, rfl⟩
  refine holdings_mapItems _ (fun e _ => by split <;> rfl) fun e he hex => ?_
  have hne : e.1.id ≠ id := by
    intro heid
    obtain ⟨hi', hiid⟩ := item?_eq_some hi
    have hei : e.1 = i := hc.fresh.item_eq (List.mem_map_of_mem he) hi' (heid.trans hiid.symm)
    exact hx (by rw [← hex, hei, hid])
  simp [hne]

theorem confined_updateDocument {f : Document → Except Failure Document}
    (hf : ∀ d d', f d = .ok d' → d'.id = d.id) (hx : exec (updateDocument D f) m = (.ok a, m')) :
    m.tables.Confined D m'.tables := by
  rcases updateDocument_cases D f m with ⟨e, he⟩ | ⟨d, d', hd, hfd, he⟩ <;> rw [he] at hx
  · cases hx
  obtain ⟨-, rfl⟩ := Prod.mk.inj hx
  have hd'id : d'.id = D := (hf d d' hfd).trans (document?_eq_some hd).2
  have hg : ∀ e : Document, (if e.id == D then d' else e).id = e.id := fun e => by
    by_cases he : e.id = D
    · simp [he, hd'id]
    · simp [he]
  refine Confined.of_holdings (fun x hx => ?_) rfl fun e he => ⟨_, List.mem_map_of_mem he, hg e⟩
  refine holdings_mapDocuments _ (fun e _ => hg e) fun e _ hex => ?_
  have hne : e.id ≠ D := fun h' => hx (hex ▸ h')
  simp [hne]

theorem confined_createItem {i i' : Item} (hx : exec (createItem i) m = (.ok i', m')) :
    m.tables.Confined i.documentId m'.tables := by
  obtain ⟨rfl, rfl, -, -⟩ := createItem_ok hx
  exact Confined.of_holdings (fun x hx => holdings_addItem _ fun he => hx he.symm) rfl
    fun d hd => ⟨d, hd, rfl⟩

theorem confined_deleteChildren (hc : Consistent catalog m) {p : String} (hp : m.tables.OnlyIn D p)
    {k : Nat} (hx : exec (deleteChildren p) m = (.ok k, m')) : m.tables.Confined D m'.tables := by
  rw [exec_deleteChildren] at hx
  obtain ⟨-, rfl⟩ := Prod.mk.inj hx
  refine Confined.of_holdings (fun x hx => ?_) rfl fun d hd => ?_
  · have hrow : ∀ k ∈ m.tables.rows, k.documentId = x →
        k.id ∉ deletedIds ((m.tables.items.filter fun e => e.1.isChildOf p).map (·.1.id)) m.tables := by
      intro k hk hkx hg
      obtain ⟨j, hj, hjroot, hjdoc⟩ := doc_of_mem_deletedIds hc.invariant hc.fresh hg hk rfl
      obtain ⟨e, he, hej⟩ := List.mem_map.mp hjroot
      obtain ⟨he, hchild⟩ := List.mem_filter.mp he
      have hje : j = e.1 := hc.fresh.item_eq hj (List.mem_map_of_mem he) hej.symm
      have hpar : e.1.parentId = some p := by simpa [Item.isChildOf] using hchild
      obtain ⟨q, hq, hqid, hqdoc⟩ := hc.invariant.parent_linked e.1 (List.mem_map_of_mem he) p hpar
      exact hx (by rw [← hkx, ← hjdoc, hje, ← hqdoc, hp q hq hqid])
    exact holdings_deleteSubtrees (fun e he hex => hrow e.1 (List.mem_map_of_mem he) hex)
      fun d hd hdx i hi => by
        obtain ⟨k, hk, hki, hkd⟩ := hc.invariant.toc_valid d hd i hi
        exact hki ▸ hrow k hk (hkd.trans hdx)
  · rw [documents_deleteSubtrees]
    exact ⟨_, List.mem_map_of_mem hd, Document.clearToc_id _ _⟩

theorem confined_insertStyle {st : Style} (hst : m.tables.OnlyIn D st.itemId)
    (hx : exec (insertStyle st) m = (.ok a, m')) : m.tables.Confined D m'.tables := by
  rcases insertStyle_cases st m with ⟨e, he⟩ | ⟨-, -, he⟩ <;> rw [he] at hx
  · cases hx
  obtain ⟨-, rfl⟩ := Prod.mk.inj hx
  exact Confined.of_holdings (fun x hx => holdings_addStyle st fun e he hex hid =>
    hx (hex ▸ hst e.1 (List.mem_map_of_mem he) hid)) rfl fun d hd => ⟨d, hd, rfl⟩

theorem confined_updateStyle {st : Style} (hst : m.tables.OnlyIn D st.itemId)
    (hx : exec (updateStyle st) m = (.ok a, m')) : m.tables.Confined D m'.tables := by
  rcases updateStyle_cases st m with ⟨e, he⟩ | ⟨-, he⟩ <;> rw [he] at hx
  · cases hx
  obtain ⟨-, rfl⟩ := Prod.mk.inj hx
  refine Confined.of_holdings (fun x hx => holdings_mapStyles _ (fun s _ => ?_)
    fun s _ e he hex hid => ?_) rfl fun d hd => ⟨d, hd, rfl⟩
  · split
    · rename_i hs
      simp only [Bool.and_eq_true, beq_iff_eq] at hs
      exact hs.1.symm
    · rfl
  · have hne : (s.itemId == st.itemId) = false := by
      refine beq_false_of_ne fun hs => hx ?_
      rw [← hex]
      exact hst e.1 (List.mem_map_of_mem he) (hid.trans hs)
    simp [hne]

theorem confined_createCategory {user name : String} {c : Category}
    (hx : exec (createCategory user D name) m = (.ok c, m')) : m.tables.Confined D m'.tables := by
  rcases createCategory_cases user D name m with ⟨e, he⟩ | ⟨-, he⟩ <;> rw [he] at hx
  · cases hx
  obtain ⟨-, rfl⟩ := Prod.mk.inj hx
  exact ⟨fun _ _ => rfl, by simp [List.filter_append], fun h => h⟩

theorem confined_deleteCategory {user name : String} (hids : (m.tables.categories.map (·.id)).Nodup)
    (hx : exec (deleteCategory user D name) m = (.ok a, m')) : m.tables.Confined D m'.tables := by
  rcases deleteCategory_cases user D name m with ⟨e, he⟩ | ⟨c, hfind, he⟩ <;> rw [he] at hx
  · cases hx
  obtain ⟨-, rfl⟩ := Prod.mk.inj hx
  have hcD : c.documentId = D := by
    have hp := List.find?_some hfind
    simp only [Bool.and_eq_true, beq_iff_eq] at hp
    exact hp.1.2
  refine ⟨fun _ _ => rfl, ?_, fun h => h⟩
  change (m.tables.categories.filter _).filter _ = _
  rw [List.filter_filter]
  refine List.filter_congr fun k hk => ?_
  by_cases hkD : k.documentId = D
  · simp [hkD]
  · -- a category on another document has another id than the one found
    have hne : k.id ≠ c.id := fun hid =>
      hkD (by rw [List.inj_on_of_nodup_map hids hk (List.mem_of_find?_eq_some hfind) hid, hcD])
    simp [hkD, hne]

end Memory

end Outliner
