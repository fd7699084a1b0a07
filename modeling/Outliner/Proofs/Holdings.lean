import Mathlib
import Outliner.Proofs.Invariant

/-!
# What a write leaves of the other documents

`Tables.holdings t x` is what the tables hold of the document `x`: its row, its items with
their sequence numbers, and the styles on those items. Each change that the store's writes make
to the tables is aimed at one document, and leaves what every other document holds as it was,
given what the write checked or the invariant says of the others: a new row or item of another
document, rows changed in place that fix this document's rows, a style on an item of another
document, a cascade of deletes that reaches none of its items.

Categories are not held by a document but by a user. Their ids come from the same counter as
document and item ids: `CategoryIds` says that each was minted and that none is shared.
-/

set_option autoImplicit false

namespace Outliner

theorem filter_map_fixed {α : Type} (p : α → Bool) (g : α → α) (l : List α)
    (hp : ∀ a ∈ l, p (g a) = p a) (hfix : ∀ a ∈ l, p a = true → g a = a) :
    (l.map g).filter p = l.filter p := by
  induction l with
  | nil => rfl
  | cons a l ih =>
    rw [List.map_cons, List.filter_cons, List.filter_cons, hp a List.mem_cons_self,
      ih (fun b hb => hp b (List.mem_cons_of_mem a hb)) fun b hb => hfix b (List.mem_cons_of_mem a hb)]
    by_cases ha : p a = true
    · rw [if_pos ha, if_pos ha, hfix a List.mem_cons_self ha]
    · rw [if_neg ha, if_neg ha]

namespace Tables

/-- What the tables hold of document `x`: its row, its items with their sequence numbers, and
the styles on its items. -/
def holdings (t : Tables) (x : String) : List Document × List (Item × Nat) × List Style :=
  (t.documents.filter (·.id == x), t.items.filter (·.1.documentId == x),
    t.styles.filter fun s => (t.items.filter (·.1.documentId == x)).any (·.1.id == s.itemId))

variable {t t' : Tables} {x : String}

theorem holdings_eq (hd : t'.documents.filter (·.id == x) = t.documents.filter (·.id == x))
    (hi : t'.items.filter (·.1.documentId == x) = t.items.filter (·.1.documentId == x))
    (hs : t'.styles.filter (fun s => (t.items.filter (·.1.documentId == x)).any (·.1.id == s.itemId)) =
      t.styles.filter fun s => (t.items.filter (·.1.documentId == x)).any (·.1.id == s.itemId)) :
    t'.holdings x = t.holdings x := by
  unfold holdings
  rw [hd, hi, hs]

theorem mem_items_of_holdings (h : t'.holdings x = t.holdings x) {e : Item × Nat} (he : e ∈ t'.items)
    (hx : e.1.documentId = x) : e ∈ t.items := by
  have hi : t'.items.filter (·.1.documentId == x) = t.items.filter (·.1.documentId == x) :=
    congrArg (fun h => h.2.1) h
  have hmem : e ∈ t'.items.filter (·.1.documentId == x) := List.mem_filter.mpr ⟨he, by simpa using hx⟩
  rw [hi] at hmem
  exact (List.mem_filter.mp hmem).1

theorem mem_documents_of_holdings (h : t'.holdings x = t.holdings x) {d : Document}
    (hd : d ∈ t'.documents) (hx : d.id = x) : d ∈ t.documents := by
  have hdocs : t'.documents.filter (·.id == x) = t.documents.filter (·.id == x) :=
    congrArg (fun h => h.1) h
  have hmem : d ∈ t'.documents.filter (·.id == x) := List.mem_filter.mpr ⟨hd, by simpa using hx⟩
  rw [hdocs] at hmem
  exact (List.mem_filter.mp hmem).1

/-! ## Changes aimed at another document -/

theorem holdings_mapDocuments (g : Document → Document) (hg : ∀ d ∈ t.documents, (g d).id = d.id)
    (hfix : ∀ d ∈ t.documents, d.id = x → g d = d) :
    { t with documents := t.documents.map g }.holdings x = t.holdings x :=
  holdings_eq (filter_map_fixed _ g _ (fun d hd => by rw [hg d hd])
    fun d hd h => hfix d hd (by simpa using h)) rfl rfl

theorem holdings_filterDocuments (cs : List Category) (p : Document → Bool)
    (hp : ∀ d ∈ t.documents, d.id = x → p d = true) :
    { t with categories := cs, documents := t.documents.filter p }.holdings x = t.holdings x := by
  refine holdings_eq ?_ rfl rfl
  rw [List.filter_filter]
  refine List.filter_congr fun d hd => ?_
  by_cases hdx : d.id = x
  · simp [hdx, hp d hd hdx]
  · simp [hdx]

theorem holdings_addItem (e : Item × Nat) (hx : e.1.documentId ≠ x) :
    { t with items := t.items ++ [e] }.holdings x = t.holdings x := by
  have hi : (t.items ++ [e]).filter (·.1.documentId == x) = t.items.filter (·.1.documentId == x) := by
    simp [List.filter_append, hx]
  exact holdings_eq rfl hi rfl

theorem holdings_mapItems (g : Item × Nat → Item × Nat)
    (hg : ∀ e ∈ t.items, (g e).1.documentId = e.1.documentId)
    (hfix : ∀ e ∈ t.items, e.1.documentId = x → g e = e) :
    { t with items := t.items.map g }.holdings x = t.holdings x :=
  holdings_eq rfl (filter_map_fixed _ g _ (fun e he => by rw [hg e he])
    fun e he h => hfix e he (by simpa using h)) rfl

theorem holdings_addStyle (s : Style) (hs : ∀ e ∈ t.items, e.1.documentId = x → e.1.id ≠ s.itemId) :
    { t with styles := t.styles ++ [s] }.holdings x = t.holdings x := by
  have hnone : ((t.items.filter (·.1.documentId == x)).any fun e => e.1.id == s.itemId) = false := by
    rw [List.any_eq_false]
    intro e he
    obtain ⟨he, hex⟩ := List.mem_filter.mp he
    simpa using hs e he (by simpa using hex)
  refine holdings_eq rfl rfl ?_
  simp only [List.filter_append, List.filter_cons, hnone, Bool.false_eq_true, ↓reduceIte,
    List.filter_nil, List.append_nil]

theorem holdings_mapStyles (g : Style → Style) (hg : ∀ s ∈ t.styles, (g s).itemId = s.itemId)
    (hfix : ∀ s ∈ t.styles, ∀ e ∈ t.items, e.1.documentId = x → e.1.id = s.itemId → g s = s) :
    { t with styles := t.styles.map g }.holdings x = t.holdings x := by
  refine holdings_eq rfl rfl (filter_map_fixed _ g _ (fun s hs => by rw [hg s hs]) fun s hs h => ?_)
  obtain ⟨e, he, hid⟩ := List.any_eq_true.mp h
  obtain ⟨he, hex⟩ := List.mem_filter.mp he
  exact hfix s hs e he (by simpa using hex) (by simpa using hid)

theorem documents_deleteSubtrees (roots : List String) (t : Tables) :
    (Memory.deleteSubtrees roots t).documents = t.documents.map (Document.clearToc (deletedIds roots t)) :=
  rfl

theorem holdings_deleteSubtrees {roots : List String}
    (hitems : ∀ e ∈ t.items, e.1.documentId = x → e.1.id ∉ deletedIds roots t)
    (htoc : ∀ d ∈ t.documents, d.id = x → ∀ i, d.tocItemId = some i → i ∉ deletedIds roots t) :
    (Memory.deleteSubtrees roots t).holdings x = t.holdings x := by
  have hi : (Memory.deleteSubtrees roots t).items.filter (·.1.documentId == x) =
      t.items.filter (·.1.documentId == x) := by
    change (t.items.filter fun e => !(deletedIds roots t).contains e.1.id).filter _ = _
    rw [List.filter_filter]
    refine List.filter_congr fun e he => ?_
    by_cases hex : e.1.documentId = x
    · simp [hex, hitems e he hex]
    · simp [hex]
  refine holdings_eq ?_ hi ?_
  · rw [documents_deleteSubtrees]
    refine filter_map_fixed _ _ _ (fun d _ => by rw [Document.clearToc_id]) fun d hd h => ?_
    have hdx : d.id = x := by simpa using h
    unfold Document.clearToc
    split
    · rename_i i hi
      simp [htoc d hd hdx i hi]
    · rfl
  · -- a style on an item of the document sits on an item the cascade did not reach
    change (t.styles.filter fun s => !(deletedIds roots t).contains s.itemId).filter _ = _
    rw [List.filter_filter]
    refine List.filter_congr fun s _ => ?_
    by_cases hs : ((t.items.filter (·.1.documentId == x)).any fun e => e.1.id == s.itemId) = true
    · obtain ⟨e, he, hid⟩ := List.any_eq_true.mp hs
      obtain ⟨he, hex⟩ := List.mem_filter.mp he
      have hgone := hitems e he (by simpa using hex)
      rw [show e.1.id = s.itemId by simpa using hid] at hgone
      simp [hs, hgone]
    · simp only [Bool.not_eq_true] at hs
      simp [hs]

theorem doc_of_mem_deletedIds {catalog : Catalog} {n : Nat} {roots : List String}
    (hinv : StoreInvariant catalog t) (hf : Fresh n t) {g : String} (hg : g ∈ deletedIds roots t)
    {i : Item} (hi : i ∈ t.rows) (hig : i.id = g) :
    ∃ j ∈ t.rows, j.id ∈ roots ∧ j.documentId = i.documentId := by
  obtain ⟨r, hr, hd⟩ := mem_deletedIds.mp hg
  rcases hd.eq_or_child with rfl | ⟨c, hc, hcp, hdc⟩
  · exact ⟨i, hi, hig ▸ hr, rfl⟩
  · -- the last step of the chain is a child of `r`, whose parent row has its document
    obtain ⟨q, hq, hqr, hqd⟩ := hinv.parent_linked c hc r hcp
    refine ⟨q, hq, hqr ▸ hr, ?_⟩
    rw [hqd]
    exact hdc.same_document hinv.parent_linked hf.items_nodup i hi hig c hc rfl

theorem holdings_withDocument {n k : Nat} {user : String} {time : Time.Instant}
    (hx : Uuid.minted (n + 1) ≠ x) : (t.withDocument n k user time).holdings x = t.holdings x := by
  have hi : (t.withDocument n k user time).items.filter (·.1.documentId == x) =
      t.items.filter (·.1.documentId == x) := by
    simp [Tables.withDocument, List.filter_append, hx]
  exact holdings_eq (by simp [Tables.withDocument, List.filter_append, hx]) hi rfl

end Tables

/-! ## Category ids -/

/-- Every category id was minted by counter value `n`, and no two categories share one. -/
structure CategoryIds (n : Nat) (t : Tables) : Prop where
  minted : ∀ c ∈ t.categories, MintedBy n c.id
  nodup : (t.categories.map (·.id)).Nodup

namespace CategoryIds

variable {n : Nat} {t t' : Tables}

theorem of_categories (h : CategoryIds n t) {n' : Nat} (hn : n ≤ n')
    (hc : t'.categories = t.categories) : CategoryIds n' t' :=
  ⟨fun c hc' => (h.minted c (hc ▸ hc')).mono hn, hc ▸ h.nodup⟩

theorem add (h : CategoryIds n t) {c : Category} (hid : c.id = Uuid.minted (n + 1))
    (hc : t'.categories = t.categories ++ [c]) : CategoryIds (n + 1) t' := by
  refine ⟨fun c' hc' => ?_, ?_⟩
  · rcases List.mem_append.mp (hc ▸ hc') with hc' | hc'
    · exact (h.minted c' hc').mono (Nat.le_succ n)
    · rw [List.mem_singleton.mp hc', hid]
      exact mintedBy_next n
  · rw [hc, List.map_append, List.map_singleton, List.nodup_append]
    refine ⟨h.nodup, List.nodup_singleton _, fun a ha b hb => ?_⟩
    obtain ⟨c', hc', rfl⟩ := List.mem_map.mp ha
    rw [List.mem_singleton.mp hb, hid]
    exact fun he => not_mintedBy_next n (he ▸ h.minted c' hc')

theorem filter (h : CategoryIds n t) (p : Category → Bool) (hc : t'.categories = t.categories.filter p) :
    CategoryIds n t' := by
  refine ⟨fun c hc' => h.minted c (List.mem_filter.mp (hc ▸ hc')).1, ?_⟩
  rw [hc]
  exact (List.filter_sublist.map _).nodup h.nodup

theorem eq_of_id (h : CategoryIds n t) {c c' : Category} (hc : c ∈ t.categories)
    (hc' : c' ∈ t.categories) (hid : c.id = c'.id) : c = c' :=
  List.inj_on_of_nodup_map h.nodup hc hc' hid

end CategoryIds

end Outliner
