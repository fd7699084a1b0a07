import Outliner.Proofs.Subtree
import Outliner.Reconcile.Plan
import Mathlib.Data.List.Nodup
import Mathlib.Logic.Relation

/-!
# The referential invariant of the store

`StoreInvariant catalog t` is what the tables of every reachable store satisfy: items hang
under items of their own document and their parents never form a cycle; every document has
exactly one item without a parent, its root item, and every item descends from its document's
root; styles sit on existing items and pass the catalog; table-of-contents pointers name items
of their document; categories sit on existing documents, one per user, document and name; and
texts are at most `maxItemTextLength` characters long.

Ids are minted from a counter and never reused. `Fresh n t` says that every document and item
id of `t` was minted by the time the counter reached `n` and that no two documents and no two
items share one; the next id differs from all of them (`Uuid.minted_inj`).

This module states both and proves, for each change of the tables that an operation of the
store makes, what it needs to keep them. Cycles are never tracked on their own: they are ruled
out by roots and descent (`StoreInvariant.of_grounded`).
-/

set_option autoImplicit false

namespace Outliner

/-! ## Minted ids are distinct -/

namespace Text

/-- The value of a lower-case hexadecimal digit. -/
def hexDigitValue (c : Char) : Nat :=
  if c.isDigit then c.toNat - '0'.toNat else c.toNat - 'a'.toNat + 10

/-- The number that lower-case hexadecimal digits write. -/
def hexValue (cs : List Char) : Nat := cs.foldl (fun n c => 16 * n + hexDigitValue c) 0

theorem hexDigitValue_digitChar : ∀ k < 16, hexDigitValue (Nat.digitChar k) = k := by decide

theorem hexValue_append_digit (cs : List Char) (c : Char) :
    hexValue (cs ++ [c]) = 16 * hexValue cs + hexDigitValue c := by
  simp [hexValue, List.foldl_append]

theorem hexValue_toDigits (n : Nat) : hexValue (Nat.toDigits 16 n) = n := by
  refine @Nat.base_induction (fun n => hexValue (Nat.toDigits 16 n) = n) n 16 (by decide)
    (fun k hk => ?_) (fun m k hk hm ih => ?_)
  · rw [Nat.toDigits_of_lt_base hk]
    simpa [hexValue] using hexDigitValue_digitChar k hk
  · rw [← Nat.toDigits_append_toDigits (by decide) hm hk, Nat.toDigits_of_lt_base hk,
      hexValue_append_digit, ih, hexDigitValue_digitChar k hk]

theorem hexValue_zeros (j : Nat) (cs : List Char) :
    hexValue (List.replicate j '0' ++ cs) = hexValue cs := by
  have hzero : hexValue (List.replicate j '0') = 0 := by
    induction j with
    | zero => rfl
    | succ j ih => rw [List.replicate_succ', hexValue_append_digit, ih]; rfl
  simp only [hexValue, List.foldl_append] at hzero ⊢
  rw [hzero]

theorem hexValue_hexPadded (width n : Nat) : hexValue (hexPadded width n).toList = n := by
  simp only [hexPadded, String.toList_ofList]
  rw [hexValue_zeros, hexValue_toDigits]

end Text

@[simp] theorem Uuid.minted_inj {a b : Nat} : Uuid.minted a = Uuid.minted b ↔ a = b := by
  constructor
  · intro h
    have hl : (Uuid.minted a).toList = (Uuid.minted b).toList := by rw [h]
    unfold Uuid.minted at hl
    rw [String.toList_append, String.toList_append] at hl
    have hdigits : (Text.hexPadded 12 a).toList = (Text.hexPadded 12 b).toList := by simpa using hl
    have := congrArg Text.hexValue hdigits
    rwa [Text.hexValue_hexPadded, Text.hexValue_hexPadded] at this
  · rintro rfl
    rfl

/-- The id was minted by the time the counter reached `n`. -/
def MintedBy (n : Nat) (x : String) : Prop := ∃ k, k ≤ n ∧ x = Uuid.minted k

theorem MintedBy.mono {n n' : Nat} {x : String} (h : MintedBy n x) (hn : n ≤ n') :
    MintedBy n' x := by
  obtain ⟨k, hk, rfl⟩ := h
  exact ⟨k, Nat.le_trans hk hn, rfl⟩

theorem mintedBy_next (n : Nat) : MintedBy (n + 1) (Uuid.minted (n + 1)) := ⟨n + 1, Nat.le_refl _, rfl⟩

theorem not_mintedBy_next (n : Nat) : ¬ MintedBy n (Uuid.minted (n + 1)) := by
  rintro ⟨k, hk, h⟩
  have := Uuid.minted_inj.mp h
  omega

/-! ## The invariant -/

/-- The edit that a stored style makes. -/
def Style.edit (s : Style) : StyleEdit := ⟨s.property, s.valueString, s.valueNumber, s.unit⟩

@[simp] theorem StyleEdit.toStyle_edit (e : StyleEdit) (itemId : String) :
    (e.toStyle itemId).edit = e := rfl

/-- `ParentLink items x p`: an item with id `x` names `p` as its parent. -/
def ParentLink (items : List Item) (x p : String) : Prop :=
  ∃ i ∈ items, i.id = x ∧ i.parentId = some p

/-- The referential invariant of the store's tables. -/
structure StoreInvariant (catalog : Catalog) (t : Tables) : Prop where
  /-- A parent is an item of the same document. -/
  parent_linked : ∀ i ∈ t.rows, ∀ p, i.parentId = some p →
    ∃ q ∈ t.rows, q.id = p ∧ q.documentId = i.documentId
  /-- Following parents never comes back. -/
  acyclic : ∀ x, ¬ Relation.TransGen (ParentLink t.rows) x x
  /-- The items of a document without a parent are exactly its root item. -/
  rooted : ∀ d ∈ t.documents, ∃ r, d.rootItemId = some r ∧
    (t.rows.filter fun i => i.documentId == d.id && i.parentId.isNone).map (·.id) = [r]
  /-- An item belongs to a document and descends from its root item. -/
  grounded : ∀ i ∈ t.rows, ∃ d ∈ t.documents, d.id = i.documentId ∧
    ∃ r, d.rootItemId = some r ∧ Descends t.rows i.id r
  /-- A style sits on an item and passes the catalog. -/
  styles_valid : ∀ s ∈ t.styles, (∃ i ∈ t.rows, i.id = s.itemId) ∧ catalog.validate s.edit = .ok ()
  /-- The table-of-contents item is an item of the document. -/
  toc_valid : ∀ d ∈ t.documents, ∀ x, d.tocItemId = some x →
    ∃ i ∈ t.rows, i.id = x ∧ i.documentId = d.id
  /-- A category sits on a document. -/
  categories_placed : ∀ c ∈ t.categories, ∃ d ∈ t.documents, d.id = c.documentId
  /-- No user has two categories of one name on one document. -/
  categories_unique : (t.categories.map fun c => (c.userId, c.documentId, c.name)).Nodup
  /-- Texts are at most `maxItemTextLength` characters long. -/
  texts_bounded : ∀ i ∈ t.rows, i.itemText.length ≤ maxItemTextLength

/-- From `t` to `t'`, no document that had a root item has another one. -/
def RootsKept (t t' : Tables) : Prop :=
  ∀ d ∈ t.documents, ∀ r, d.rootItemId = some r →
    ∀ d' ∈ t'.documents, d'.id = d.id → d'.rootItemId = some r

/-- Every document and item id was minted by counter value `n`, and none is shared. -/
structure Fresh (n : Nat) (t : Tables) : Prop where
  documents_minted : ∀ d ∈ t.documents, MintedBy n d.id
  items_minted : ∀ i ∈ t.rows, MintedBy n i.id
  documents_nodup : (t.documents.map (·.id)).Nodup
  items_nodup : (t.rows.map (·.id)).Nodup

/-- From `t` to `t'`, each document either was there under its id, with the root item it had
if it had one, or has an id that counter value `n` had not minted. -/
def DocumentsEvolve (n : Nat) (t t' : Tables) : Prop :=
  ∀ d' ∈ t'.documents, (∃ d ∈ t.documents, d.id = d'.id ∧
    ∀ r, d.rootItemId = some r → d'.rootItemId = some r) ∨ ¬ MintedBy n d'.id

/-! ## Ids -/

namespace Fresh

variable {n : Nat} {t : Tables}

theorem mono (h : Fresh n t) {n' : Nat} (hn : n ≤ n') : Fresh n' t :=
  ⟨fun d hd => (h.documents_minted d hd).mono hn, fun i hi => (h.items_minted i hi).mono hn,
    h.documents_nodup, h.items_nodup⟩

theorem congr (hf : Fresh n t) {t' : Tables} (hd : t'.documents = t.documents)
    (hr : t'.rows = t.rows) : Fresh n t' :=
  ⟨hd ▸ hf.documents_minted, hr ▸ hf.items_minted, hd ▸ hf.documents_nodup, hr ▸ hf.items_nodup⟩

theorem item_eq (h : Fresh n t) {i j : Item} (hi : i ∈ t.rows) (hj : j ∈ t.rows)
    (hid : i.id = j.id) : i = j :=
  List.inj_on_of_nodup_map h.items_nodup hi hj hid

theorem document_eq (h : Fresh n t) {d e : Document} (hd : d ∈ t.documents)
    (he : e ∈ t.documents) (hid : d.id = e.id) : d = e :=
  List.inj_on_of_nodup_map h.documents_nodup hd he hid

theorem document_ne_next (h : Fresh n t) {d : Document} (hd : d ∈ t.documents) :
    d.id ≠ Uuid.minted (n + 1) :=
  fun hid => not_mintedBy_next n (hid ▸ h.documents_minted d hd)

theorem item_ne_next (h : Fresh n t) {i : Item} (hi : i ∈ t.rows) : i.id ≠ Uuid.minted (n + 1) :=
  fun hid => not_mintedBy_next n (hid ▸ h.items_minted i hi)

theorem rootsKept {t' : Tables} (h : Fresh n t) (he : DocumentsEvolve n t t') : RootsKept t t' := by
  intro d hd r hr d' hd' hid
  rcases he d' hd' with ⟨e, he, heid, hroot⟩ | hnew
  · have : e = d := h.document_eq he hd (heid.trans hid)
    subst this
    exact hroot r hr
  · exact absurd (hid ▸ h.documents_minted d hd) hnew

end Fresh

theorem DocumentsEvolve.refl (n : Nat) (t : Tables) : DocumentsEvolve n t t :=
  fun d hd => .inl ⟨d, hd, rfl, fun _ h => h⟩

theorem DocumentsEvolve.trans {n n' : Nat} {t₁ t₂ t₃ : Tables} (hn : n ≤ n')
    (h₁ : DocumentsEvolve n t₁ t₂) (h₂ : DocumentsEvolve n' t₂ t₃) : DocumentsEvolve n t₁ t₃ := by
  intro d₃ hd₃
  rcases h₂ d₃ hd₃ with ⟨d₂, hd₂, hid₂, hroot₂⟩ | hnew
  · rcases h₁ d₂ hd₂ with ⟨d₁, hd₁, hid₁, hroot₁⟩ | hnew
    · exact .inl ⟨d₁, hd₁, hid₁.trans hid₂, fun r hr => hroot₂ r (hroot₁ r hr)⟩
    · exact .inr (hid₂ ▸ hnew)
  · exact .inr fun hm => hnew (hm.mono hn)

theorem DocumentsEvolve.map {n : Nat} {t t' : Tables} (g : Document → Document)
    (hg : ∀ d ∈ t.documents, (g d).id = d.id ∧ (g d).rootItemId = d.rootItemId)
    (hdocs : t'.documents = t.documents.map g) : DocumentsEvolve n t t' := by
  intro d' hd'
  rw [hdocs] at hd'
  obtain ⟨d, hd, rfl⟩ := List.mem_map.mp hd'
  exact .inl ⟨d, hd, (hg d hd).1.symm, fun r hr => (hg d hd).2.trans hr⟩

theorem DocumentsEvolve.sublist {n : Nat} {t t' : Tables} (hsub : t'.documents.Sublist t.documents) :
    DocumentsEvolve n t t' :=
  fun d hd => .inl ⟨d, hsub.subset hd, rfl, fun _ h => h⟩

/-! ## Roots and descent -/

section Descent

variable {items : List Item}

theorem Descends.eq_of_parentless {x r : String}
    (hx : ∀ i ∈ items, i.id = x → i.parentId = none) (h : Descends items x r) : x = r := by
  cases h with
  | refl => rfl
  | parent hi hp _ => simp [hx _ hi rfl] at hp

theorem Descends.same_document
    (hlink : ∀ i ∈ items, ∀ p, i.parentId = some p → ∃ q ∈ items, q.id = p ∧ q.documentId = i.documentId)
    (hnodup : (items.map (·.id)).Nodup) {x r : String} (h : Descends items x r) :
    ∀ i ∈ items, i.id = x → ∀ j ∈ items, j.id = r → j.documentId = i.documentId := by
  induction h with
  | refl x => exact fun i hi hix j hj hjx => by rw [List.inj_on_of_nodup_map hnodup hj hi (hjx.trans hix.symm)]
  | @parent i₀ p r hi₀ hp _ ih =>
    intro i hi hix j hj hjr
    obtain ⟨q, hq, hqp, hqdoc⟩ := hlink i₀ hi₀ p hp
    rw [ih q hq hqp j hj hjr, hqdoc, List.inj_on_of_nodup_map hnodup hi₀ hi hix.symm]

theorem Descends.no_cycle (hnodup : (items.map (·.id)).Nodup) {x r : String}
    (hr : ∀ i ∈ items, i.id = r → i.parentId = none) (h : Descends items x r) :
    ¬ Relation.TransGen (ParentLink items) x x := by
  induction h with
  | refl x =>
    intro hc
    obtain ⟨_, ⟨i, hi, hix, hip⟩, _⟩ := Relation.TransGen.head'_iff.mp hc
    simp [hr i hi hix] at hip
  | @parent i p r hi hp _ ih =>
    intro hc
    obtain ⟨b, ⟨j, hj, hjx, hjb⟩, hback⟩ := Relation.TransGen.head'_iff.mp hc
    have hji : j = i := List.inj_on_of_nodup_map hnodup hj hi hjx
    have hb : b = p := by rw [hji, hp] at hjb; exact (Option.some.inj hjb).symm
    subst hb
    exact ih hr (Relation.TransGen.tail' hback ⟨i, hi, rfl, hp⟩)

end Descent

theorem root_row {t : Tables} {d : Document} {r : String}
    (h : (t.rows.filter fun i => i.documentId == d.id && i.parentId.isNone).map (·.id) = [r]) :
    ∃ j ∈ t.rows, j.id = r ∧ j.documentId = d.id ∧ j.parentId = none := by
  have hr : r ∈ (t.rows.filter fun i => i.documentId == d.id && i.parentId.isNone).map (·.id) := by
    rw [h]; exact List.mem_singleton_self r
  obtain ⟨j, hj, rfl⟩ := List.mem_map.mp hr
  obtain ⟨hj, hjp⟩ := List.mem_filter.mp hj
  simp only [Bool.and_eq_true, beq_iff_eq, Option.isNone_iff_eq_none] at hjp
  exact ⟨j, hj, rfl, hjp.1, hjp.2⟩

theorem StoreInvariant.of_grounded {catalog : Catalog} {n : Nat} {t : Tables} (hf : Fresh n t)
    (parent_linked : ∀ i ∈ t.rows, ∀ p, i.parentId = some p →
      ∃ q ∈ t.rows, q.id = p ∧ q.documentId = i.documentId)
    (rooted : ∀ d ∈ t.documents, ∃ r, d.rootItemId = some r ∧
      (t.rows.filter fun i => i.documentId == d.id && i.parentId.isNone).map (·.id) = [r])
    (grounded : ∀ i ∈ t.rows, ∃ d ∈ t.documents, d.id = i.documentId ∧
      ∃ r, d.rootItemId = some r ∧ Descends t.rows i.id r)
    (styles_valid : ∀ s ∈ t.styles, (∃ i ∈ t.rows, i.id = s.itemId) ∧ catalog.validate s.edit = .ok ())
    (toc_valid : ∀ d ∈ t.documents, ∀ x, d.tocItemId = some x →
      ∃ i ∈ t.rows, i.id = x ∧ i.documentId = d.id)
    (categories_placed : ∀ c ∈ t.categories, ∃ d ∈ t.documents, d.id = c.documentId)
    (categories_unique : (t.categories.map fun c => (c.userId, c.documentId, c.name)).Nodup)
    (texts_bounded : ∀ i ∈ t.rows, i.itemText.length ≤ maxItemTextLength) :
    StoreInvariant catalog t where
  parent_linked := parent_linked
  acyclic := by
    intro x hc
    obtain ⟨_, ⟨i, hi, rfl, _⟩, _⟩ := Relation.TransGen.head'_iff.mp hc
    obtain ⟨d, hd, -, r, hr, hdesc⟩ := grounded i hi
    obtain ⟨r', hr', hroot⟩ := rooted d hd
    obtain ⟨j, hj, hjr, -, hjp⟩ := root_row hroot
    rw [hr, Option.some.injEq] at hr'
    subst hr'
    refine hdesc.no_cycle hf.items_nodup (fun k hk hkr => ?_) hc
    rw [hf.item_eq hk hj (hkr.trans hjr.symm), hjp]
  rooted := rooted
  grounded := grounded
  styles_valid := styles_valid
  toc_valid := toc_valid
  categories_placed := categories_placed
  categories_unique := categories_unique
  texts_bounded := texts_bounded

namespace StoreInvariant

variable {catalog : Catalog} {n : Nat} {t : Tables}

theorem root_parentless (h : StoreInvariant catalog t) (hf : Fresh n t) {d : Document}
    (hd : d ∈ t.documents) {r : String} (hr : d.rootItemId = some r) :
    ∀ i ∈ t.rows, i.id = r → i.parentId = none ∧ i.documentId = d.id := by
  obtain ⟨r', hr', hroot⟩ := h.rooted d hd
  rw [hr, Option.some.injEq] at hr'
  subst hr'
  obtain ⟨j, hj, hjr, hjd, hjp⟩ := root_row hroot
  intro i hi hir
  rw [hf.item_eq hi hj (hir.trans hjr.symm)]
  exact ⟨hjp, hjd⟩

end StoreInvariant

/-! ## Lookups -/

theorem item?_eq_some {t : Tables} {x : String} {q : Item} (h : Memory.item? t x = some q) :
    q ∈ t.rows ∧ q.id = x := by
  unfold Memory.item? at h
  obtain ⟨e, he, rfl⟩ := Option.map_eq_some_iff.mp h
  exact ⟨List.mem_map_of_mem (List.mem_of_find?_eq_some he), by simpa using List.find?_some he⟩

theorem document?_eq_some {t : Tables} {x : String} {d : Document}
    (h : Memory.document? t x = some d) : d ∈ t.documents ∧ d.id = x :=
  ⟨List.mem_of_find?_eq_some h, by simpa using List.find?_some h⟩

theorem category?_eq_none {t : Tables} {user doc name : String}
    (h : Memory.category? t user doc name = none) :
    (user, doc, name) ∉ t.categories.map fun c => (c.userId, c.documentId, c.name) := by
  intro hmem
  obtain ⟨c, hc, hkey⟩ := List.mem_map.mp hmem
  simp only [Prod.mk.injEq] at hkey
  have := List.find?_eq_none.mp h c hc
  simp [hkey] at this

/-! ## Adding an item under a parent -/

section AddItem

variable {catalog : Catalog} {n k : Nat} {t : Tables} {i : Item}

@[simp] theorem rows_addItem : ({ t with items := t.items ++ [(i, k)] } : Tables).rows = t.rows ++ [i] := by
  simp [Tables.rows]

theorem Fresh.addItem (hf : Fresh n t) (hid : i.id = Uuid.minted (n + 1)) :
    Fresh (n + 1) { t with items := t.items ++ [(i, k)] } where
  documents_minted d hd := (hf.documents_minted d hd).mono (Nat.le_succ n)
  items_minted j hj := by
    rcases List.mem_append.mp (rows_addItem ▸ hj) with hj | hj
    · exact (hf.items_minted j hj).mono (Nat.le_succ n)
    · rw [List.mem_singleton.mp hj, hid]
      exact mintedBy_next n
  documents_nodup := hf.documents_nodup
  items_nodup := by
    rw [rows_addItem, List.map_append, List.nodup_append]
    refine ⟨hf.items_nodup, List.nodup_singleton _, fun a ha b hb => ?_⟩
    obtain ⟨j, hj, rfl⟩ := List.mem_map.mp ha
    rw [List.map_singleton] at hb
    rw [List.mem_singleton.mp hb, hid]
    exact hf.item_ne_next hj

theorem StoreInvariant.addItem (h : StoreInvariant catalog t) (hf : Fresh n t)
    (hid : i.id = Uuid.minted (n + 1)) {p : String} (hp : i.parentId = some p)
    (hparent : ∃ q ∈ t.rows, q.id = p ∧ q.documentId = i.documentId)
    (htext : i.itemText.length ≤ maxItemTextLength) :
    StoreInvariant catalog { t with items := t.items ++ [(i, k)] } := by
  have hsub : ∀ j ∈ t.rows, j ∈ t.rows ++ [i] := fun j hj => List.mem_append_left _ hj
  refine .of_grounded (hf.addItem hid) ?_ ?_ ?_ ?_ ?_ h.categories_placed h.categories_unique ?_
  · intro j hj p' hp'
    rw [rows_addItem] at hj ⊢
    rcases List.mem_append.mp hj with hj | hj
    · obtain ⟨q, hq, hqp, hqd⟩ := h.parent_linked j hj p' hp'
      exact ⟨q, hsub q hq, hqp, hqd⟩
    · obtain rfl : j = i := List.mem_singleton.mp hj
      obtain rfl : p' = p := Option.some.inj (hp'.symm.trans hp)
      obtain ⟨q, hq, hqp, hqd⟩ := hparent
      exact ⟨q, hsub q hq, hqp, hqd⟩
  · intro d hd
    obtain ⟨r, hr, hroot⟩ := h.rooted d hd
    refine ⟨r, hr, ?_⟩
    simp [List.filter_append, hp, hroot]
  · intro j hj
    rw [rows_addItem] at hj ⊢
    rcases List.mem_append.mp hj with hj | hj
    · obtain ⟨d, hd, hdid, r, hr, hdesc⟩ := h.grounded j hj
      exact ⟨d, hd, hdid, r, hr, hdesc.mono hsub⟩
    · rw [List.mem_singleton.mp hj]
      obtain ⟨q, hq, rfl, hqd⟩ := hparent
      obtain ⟨d, hd, hdid, r, hr, hdesc⟩ := h.grounded q hq
      exact ⟨d, hd, hdid.trans hqd, r, hr,
        .parent (List.mem_append_right _ (List.mem_singleton_self i)) hp (hdesc.mono hsub)⟩
  · intro s hs
    obtain ⟨⟨j, hj, hjs⟩, hv⟩ := h.styles_valid s hs
    exact ⟨⟨j, rows_addItem ▸ hsub j hj, hjs⟩, hv⟩
  · intro d hd x hx
    obtain ⟨j, hj, hjx, hjd⟩ := h.toc_valid d hd x hx
    exact ⟨j, rows_addItem ▸ hsub j hj, hjx, hjd⟩
  · intro j hj
    rcases List.mem_append.mp (rows_addItem ▸ hj) with hj | hj
    · exact h.texts_bounded j hj
    · rw [List.mem_singleton.mp hj]
      exact htext

end AddItem

/-! ## Changing a text -/

/-- The item with its text set, if it has the id `x`. -/
def Item.withText (x text : String) (i : Item) : Item :=
  if i.id == x then { i with itemText := text } else i

namespace Item

variable (x text : String) (i : Item)

@[simp] theorem withText_id : (i.withText x text).id = i.id := by
  unfold withText; split <;> rfl

@[simp] theorem withText_documentId : (i.withText x text).documentId = i.documentId := by
  unfold withText; split <;> rfl

@[simp] theorem withText_parentId : (i.withText x text).parentId = i.parentId := by
  unfold withText; split <;> rfl

theorem withText_itemText : (i.withText x text).itemText = text ∨ (i.withText x text).itemText = i.itemText := by
  unfold withText; split
  · exact .inl rfl
  · exact .inr rfl

end Item

theorem Descends.map_iff {items : List Item} {f : Item → Item} (hid : ∀ i, (f i).id = i.id)
    (hp : ∀ i, (f i).parentId = i.parentId) {x r : String} :
    Descends (items.map f) x r ↔ Descends items x r := by
  constructor
  · intro h
    induction h with
    | refl => exact .refl _
    | parent hi hp' _ ih =>
      obtain ⟨j, hj, rfl⟩ := List.mem_map.mp hi
      rw [hid]
      exact .parent hj (hp j ▸ hp') ih
  · intro h
    induction h with
    | refl => exact .refl _
    | @parent i p r hi hp' _ ih =>
      rw [← hid i]
      exact .parent (List.mem_map_of_mem hi) (by rw [hp]; exact hp') ih

section SetText

variable {catalog : Catalog} {n : Nat} {t : Tables} {x text : String}

@[simp] theorem rows_setText :
    ({ t with items := t.items.map fun e =>
        if e.1.id == x then ({ e.1 with itemText := text }, e.2) else e } : Tables).rows =
      t.rows.map (Item.withText x text) := by
  simp only [Tables.rows, List.map_map]
  refine List.map_congr_left fun e _ => ?_
  simp only [Function.comp, Item.withText]
  split <;> rfl

theorem Fresh.setText (hf : Fresh n t) :
    Fresh n { t with items := t.items.map fun e =>
      if e.1.id == x then ({ e.1 with itemText := text }, e.2) else e } where
  documents_minted := hf.documents_minted
  items_minted j hj := by
    obtain ⟨i, hi, rfl⟩ := List.mem_map.mp (rows_setText ▸ hj)
    simpa using hf.items_minted i hi
  documents_nodup := hf.documents_nodup
  items_nodup := by
    rw [rows_setText, List.map_map]
    simpa [Function.comp_def] using hf.items_nodup

theorem StoreInvariant.setText (h : StoreInvariant catalog t) (hf : Fresh n t)
    (htext : text.length ≤ maxItemTextLength) :
    StoreInvariant catalog { t with items := t.items.map fun e =>
      if e.1.id == x then ({ e.1 with itemText := text }, e.2) else e } := by
  have hmem : ∀ i ∈ t.rows, i.withText x text ∈ t.rows.map (Item.withText x text) :=
    fun i hi => List.mem_map_of_mem hi
  have hdesc : ∀ {y r}, Descends (t.rows.map (Item.withText x text)) y r ↔ Descends t.rows y r :=
    Descends.map_iff (Item.withText_id x text) (Item.withText_parentId x text)
  refine .of_grounded hf.setText ?_ ?_ ?_ ?_ ?_ h.categories_placed h.categories_unique ?_
  · intro j hj p hp
    rw [rows_setText] at hj ⊢
    obtain ⟨i, hi, rfl⟩ := List.mem_map.mp hj
    obtain ⟨q, hq, hqp, hqd⟩ := h.parent_linked i hi p (by simpa using hp)
    exact ⟨_, hmem q hq, by simpa using hqp, by simpa using hqd⟩
  · intro d hd
    obtain ⟨r, hr, hroot⟩ := h.rooted d hd
    refine ⟨r, hr, ?_⟩
    rw [rows_setText, List.filter_map, List.map_map]
    simpa [Function.comp_def] using hroot
  · intro j hj
    rw [rows_setText] at hj ⊢
    obtain ⟨i, hi, rfl⟩ := List.mem_map.mp hj
    obtain ⟨d, hd, hdid, r, hr, hd'⟩ := h.grounded i hi
    exact ⟨d, hd, by simpa using hdid, r, hr, by simpa using hdesc.mpr hd'⟩
  · intro s hs
    obtain ⟨⟨i, hi, his⟩, hv⟩ := h.styles_valid s hs
    exact ⟨⟨_, rows_setText ▸ hmem i hi, by simpa using his⟩, hv⟩
  · intro d hd y hy
    obtain ⟨i, hi, hiy, hid⟩ := h.toc_valid d hd y hy
    exact ⟨_, rows_setText ▸ hmem i hi, by simpa using hiy, by simpa using hid⟩
  · intro j hj
    obtain ⟨i, hi, rfl⟩ := List.mem_map.mp (rows_setText ▸ hj)
    rcases i.withText_itemText x text with he | he <;> rw [he]
    · exact htext
    · exact h.texts_bounded i hi

end SetText

/-! ## Styles and categories -/

section Rows

variable {catalog : Catalog} {n : Nat} {t : Tables}

theorem StoreInvariant.addStyle (h : StoreInvariant catalog t) {st : Style}
    (hitem : (Memory.item? t st.itemId).isSome) (hv : catalog.validate st.edit = .ok ()) :
    StoreInvariant catalog { t with styles := t.styles ++ [st] } :=
  { h with
    styles_valid := fun s hs => by
      rcases List.mem_append.mp hs with hs | hs
      · exact h.styles_valid s hs
      · obtain rfl := List.mem_singleton.mp hs
        obtain ⟨q, hq⟩ := Option.isSome_iff_exists.mp hitem
        exact ⟨⟨q, item?_eq_some hq⟩, hv⟩ }

theorem StoreInvariant.replaceStyle (h : StoreInvariant catalog t) {st : Style}
    (hany : (t.styles.any fun s => s.itemId == st.itemId && s.property == st.property) = true)
    (hv : catalog.validate st.edit = .ok ()) :
    StoreInvariant catalog { t with styles := t.styles.map fun s =>
      if s.itemId == st.itemId && s.property == st.property then st else s } :=
  { h with
    styles_valid := fun s hs => by
      obtain ⟨s₀, hs₀, rfl⟩ := List.mem_map.mp hs
      split
      · -- the replaced style sat on the same item
        obtain ⟨s₁, hs₁, hmatch⟩ := List.any_eq_true.mp hany
        simp only [Bool.and_eq_true, beq_iff_eq] at hmatch
        obtain ⟨⟨i, hi, his⟩, -⟩ := h.styles_valid s₁ hs₁
        exact ⟨⟨i, hi, his.trans hmatch.1⟩, hv⟩
      · exact h.styles_valid s₀ hs₀ }

theorem StoreInvariant.addCategory (h : StoreInvariant catalog t) {c : Category}
    (hnew : Memory.category? t c.userId c.documentId c.name = none)
    (hdoc : ∃ d ∈ t.documents, d.id = c.documentId) :
    StoreInvariant catalog { t with categories := t.categories ++ [c] } :=
  { h with
    categories_placed := fun c' hc' => by
      rcases List.mem_append.mp hc' with hc' | hc'
      · exact h.categories_placed c' hc'
      · rw [List.mem_singleton.mp hc']
        exact hdoc
    categories_unique := by
      rw [List.map_append, List.nodup_append]
      refine ⟨h.categories_unique, List.nodup_singleton _, fun a ha b hb => ?_⟩
      rw [List.map_singleton, List.mem_singleton] at hb
      rw [hb]
      exact fun hab => category?_eq_none hnew (hab ▸ ha) }

theorem StoreInvariant.removeCategories (h : StoreInvariant catalog t) (keep : Category → Bool) :
    StoreInvariant catalog { t with categories := t.categories.filter keep } :=
  { h with
    categories_placed := fun c hc => h.categories_placed c (List.mem_filter.mp hc).1
    categories_unique := (List.filter_sublist.map _).nodup h.categories_unique }

end Rows

/-! ## Changing documents in place -/

section Documents

variable {catalog : Catalog} {n : Nat} {t : Tables}

theorem StoreInvariant.mapDocuments (h : StoreInvariant catalog t) (g : Document → Document)
    (hg : ∀ d ∈ t.documents, (g d).id = d.id ∧ (g d).rootItemId = d.rootItemId)
    (htoc : ∀ d ∈ t.documents, ∀ x, (g d).tocItemId = some x →
      ∃ i ∈ t.rows, i.id = x ∧ i.documentId = d.id) :
    StoreInvariant catalog { t with documents := t.documents.map g } :=
  { h with
    rooted := fun d' hd' => by
      obtain ⟨d, hd, rfl⟩ := List.mem_map.mp hd'
      rw [(hg d hd).1, (hg d hd).2]
      exact h.rooted d hd
    grounded := fun i hi => by
      obtain ⟨d, hd, hdid, r, hr, hdesc⟩ := h.grounded i hi
      exact ⟨g d, List.mem_map_of_mem hd, (hg d hd).1.trans hdid, r, (hg d hd).2.trans hr, hdesc⟩
    toc_valid := fun d' hd' x hx => by
      obtain ⟨d, hd, rfl⟩ := List.mem_map.mp hd'
      rw [(hg d hd).1]
      exact htoc d hd x hx
    categories_placed := fun c hc => by
      obtain ⟨d, hd, hdc⟩ := h.categories_placed c hc
      exact ⟨g d, List.mem_map_of_mem hd, (hg d hd).1.trans hdc⟩ }

theorem Fresh.mapDocuments (hf : Fresh n t) (g : Document → Document)
    (hg : ∀ d ∈ t.documents, (g d).id = d.id) : Fresh n { t with documents := t.documents.map g } where
  documents_minted d' hd' := by
    obtain ⟨d, hd, rfl⟩ := List.mem_map.mp hd'
    rw [hg d hd]
    exact hf.documents_minted d hd
  items_minted := hf.items_minted
  documents_nodup := by
    have hids : t.documents.map (fun d => (g d).id) = t.documents.map (·.id) :=
      List.map_congr_left fun d hd => hg d hd
    rw [List.map_map]
    exact (congrArg List.Nodup hids).mpr hf.documents_nodup
  items_nodup := hf.items_nodup

theorem Fresh.eq_of_document? (hf : Fresh n t) {id : String} {d e : Document}
    (hd : Memory.document? t id = some d) (he : e ∈ t.documents) (heid : e.id = id) : e = d :=
  hf.document_eq he (document?_eq_some hd).1 (heid.trans (document?_eq_some hd).2.symm)

theorem Fresh.replace_fields (hf : Fresh n t) {id : String} {d d' : Document}
    (hd : Memory.document? t id = some d) (hid : d'.id = d.id) (hroot : d'.rootItemId = d.rootItemId) :
    ∀ e ∈ t.documents, ((fun e => if e.id == id then d' else e) e).id = e.id ∧
      ((fun e => if e.id == id then d' else e) e).rootItemId = e.rootItemId := by
  intro e he
  by_cases heid : e.id = id
  · obtain rfl := hf.eq_of_document? hd he heid
    simp [heid, hid, hroot]
  · simp [heid]

end Documents

/-! ## Deleting subtrees -/

/-- The ids that deleting the subtrees at `roots` removes. -/
def deletedIds (roots : List String) (t : Tables) : List String :=
  Memory.subtreeIds t.rows (t.items.length + 1) roots

/-- A document with its table-of-contents pointer cleared if it names a deleted id. -/
def Document.clearToc (gone : List String) (d : Document) : Document :=
  match d.tocItemId with
  | some i => if gone.contains i then { d with tocItemId := none } else d
  | none => d

namespace Document

variable (gone : List String) (d : Document)

@[simp] theorem clearToc_id : (d.clearToc gone).id = d.id := by
  unfold clearToc; split
  · split <;> rfl
  · rfl

@[simp] theorem clearToc_rootItemId : (d.clearToc gone).rootItemId = d.rootItemId := by
  unfold clearToc; split
  · split <;> rfl
  · rfl

theorem clearToc_tocItemId {x : String} (h : (d.clearToc gone).tocItemId = some x) :
    d.tocItemId = some x ∧ x ∉ gone := by
  unfold clearToc at h
  cases hd : d.tocItemId with
  | none => simp [hd] at h
  | some i =>
    by_cases hg : i ∈ gone
    · simp [hd, hg] at h
    · simp only [hd, List.contains_iff_mem, hg, ↓reduceIte, Option.some.injEq] at h
      subst h
      exact ⟨rfl, hg⟩

end Document

section Deletion

variable {catalog : Catalog} {n : Nat} {t : Tables} {roots : List String}

theorem mem_deletedIds {x : String} :
    x ∈ deletedIds roots t ↔ ∃ r ∈ roots, Descends t.rows x r :=
  Memory.mem_deleted_iff t roots x

theorem deletedIds_closed {i : Item} (hi : i ∈ t.rows) {p : String} (hp : i.parentId = some p)
    (hgone : p ∈ deletedIds roots t) : i.id ∈ deletedIds roots t := by
  have hout := Memory.outsideOf_le t.rows roots
  have hlen : t.rows.length = t.items.length := List.length_map _
  exact Memory.subtreeIds_closed _ _ _ (by omega) i hi p hp hgone

@[simp] theorem rows_deleteSubtrees :
    (Memory.deleteSubtrees roots t).rows = t.rows.filter fun i => !(deletedIds roots t).contains i.id := by
  simp only [Memory.deleteSubtrees, Tables.rows, List.filter_map]
  rfl

theorem Descends.kept {x r : String} (h : Descends t.rows x r) :
    x ∉ deletedIds roots t → Descends (Memory.deleteSubtrees roots t).rows x r := by
  rw [rows_deleteSubtrees]
  induction h with
  | refl => exact fun _ => .refl _
  | @parent i p r hi hp _ ih =>
    intro hx
    have hp' : p ∉ deletedIds roots t := fun hg => hx (deletedIds_closed hi hp hg)
    exact .parent (List.mem_filter.mpr ⟨hi, by simpa using hx⟩) hp (ih hp')

theorem not_mem_deletedIds_of_parentless {x : String}
    (hx : ∀ i ∈ t.rows, i.id = x → i.parentId = none) (hroot : x ∉ roots) :
    x ∉ deletedIds roots t := by
  intro hg
  obtain ⟨r, hr, hd⟩ := mem_deletedIds.mp hg
  exact hroot (hd.eq_of_parentless hx ▸ hr)

theorem ids_filter_kept {L : List Item} {gone : List String} {r : String}
    (hL : L.map (·.id) = [r]) (hr : r ∉ gone) :
    (L.filter fun i => !gone.contains i.id).map (·.id) = [r] := by
  calc (L.filter fun i => !gone.contains i.id).map (·.id)
      = (L.map (·.id)).filter (fun y => !gone.contains y) :=
        (@List.filter_map Item String (·.id) (fun y => !gone.contains y) L).symm
    _ = [r] := by rw [hL]; simp [hr]

theorem Fresh.prune (hf : Fresh n t) (keep : String → Bool) :
    Fresh n { Memory.deleteSubtrees roots t with
      categories := t.categories.filter fun c => keep c.documentId
      documents := (t.documents.map (Document.clearToc (deletedIds roots t))).filter fun d => keep d.id } where
  documents_minted d' hd' := by
    obtain ⟨hd', -⟩ := List.mem_filter.mp hd'
    obtain ⟨d, hd, rfl⟩ := List.mem_map.mp hd'
    simpa using hf.documents_minted d hd
  items_minted j hj := by
    have hj : j ∈ (Memory.deleteSubtrees roots t).rows := hj
    rw [rows_deleteSubtrees] at hj
    exact hf.items_minted j (List.mem_filter.mp hj).1
  documents_nodup := by
    refine (List.filter_sublist.map _).nodup ?_
    simpa [List.map_map, Function.comp_def] using hf.documents_nodup
  items_nodup := by
    change ((Memory.deleteSubtrees roots t).rows.map (·.id)).Nodup
    rw [rows_deleteSubtrees]
    exact (List.filter_sublist.map _).nodup hf.items_nodup

theorem DocumentsEvolve.prune (keep : String → Bool) :
    DocumentsEvolve n t { Memory.deleteSubtrees roots t with
      categories := t.categories.filter fun c => keep c.documentId
      documents := (t.documents.map (Document.clearToc (deletedIds roots t))).filter fun d => keep d.id } := by
  intro d' hd'
  obtain ⟨hd', -⟩ := List.mem_filter.mp hd'
  obtain ⟨d, hd, rfl⟩ := List.mem_map.mp hd'
  exact .inl ⟨d, hd, by simp, fun r hr => by simpa using hr⟩

theorem StoreInvariant.prune (h : StoreInvariant catalog t) (hf : Fresh n t) (keep : String → Bool)
    (hroots : ∀ d ∈ t.documents, keep d.id = true → ∀ r, d.rootItemId = some r → r ∉ deletedIds roots t)
    (hkept : ∀ i ∈ t.rows, i.id ∉ deletedIds roots t → keep i.documentId = true) :
    StoreInvariant catalog { Memory.deleteSubtrees roots t with
      categories := t.categories.filter fun c => keep c.documentId
      documents := (t.documents.map (Document.clearToc (deletedIds roots t))).filter fun d => keep d.id } := by
  set gone := deletedIds roots t
  have hrow : ∀ {j}, j ∈ (Memory.deleteSubtrees roots t).rows ↔ j ∈ t.rows ∧ j.id ∉ gone := by
    intro j; simp [gone]
  have hdoc : ∀ d ∈ t.documents, keep d.id = true →
      d.clearToc gone ∈ (t.documents.map (Document.clearToc gone)).filter fun d => keep d.id :=
    fun d hd hk => List.mem_filter.mpr ⟨List.mem_map_of_mem hd, by simpa using hk⟩
  have hdoc' : ∀ {d'}, d' ∈ (t.documents.map (Document.clearToc gone)).filter (fun d => keep d.id) →
      ∃ d ∈ t.documents, d' = d.clearToc gone ∧ keep d.id = true := by
    intro d' hd'
    obtain ⟨hd', hk⟩ := List.mem_filter.mp hd'
    obtain ⟨d, hd, rfl⟩ := List.mem_map.mp hd'
    exact ⟨d, hd, rfl, by simpa using hk⟩
  refine .of_grounded (hf.prune keep) ?_ ?_ ?_ ?_ ?_ ?_ ?_ ?_
  · intro j hj p hp
    obtain ⟨hj, hjg⟩ := hrow.mp hj
    obtain ⟨q, hq, rfl, hqd⟩ := h.parent_linked j hj p hp
    exact ⟨q, hrow.mpr ⟨hq, fun hg => hjg (deletedIds_closed hj hp hg)⟩, rfl, hqd⟩
  · intro d' hd'
    obtain ⟨d, hd, rfl, hk⟩ := hdoc' hd'
    obtain ⟨r, hr, hroot⟩ := h.rooted d hd
    refine ⟨r, by simpa using hr, ?_⟩
    simp only [Document.clearToc_id]
    change ((Memory.deleteSubtrees roots t).rows.filter _).map _ = _
    rw [rows_deleteSubtrees, List.filter_filter, ← List.filter_congr (fun i _ => Bool.and_comm _ _), ← List.filter_filter]
    exact ids_filter_kept hroot (hroots d hd hk r hr)
  · intro j hj
    obtain ⟨hj, hjg⟩ := hrow.mp hj
    obtain ⟨d, hd, hdid, r, hr, hdesc⟩ := h.grounded j hj
    exact ⟨d.clearToc gone, hdoc d hd (hdid ▸ hkept j hj hjg), by simpa using hdid, r,
      by simpa using hr, hdesc.kept hjg⟩
  · intro s hs
    have hs : s ∈ t.styles.filter fun s => !gone.contains s.itemId := hs
    obtain ⟨hs, hsg⟩ := List.mem_filter.mp hs
    obtain ⟨⟨i, hi, his⟩, hv⟩ := h.styles_valid s hs
    exact ⟨⟨i, hrow.mpr ⟨hi, by simpa [his] using hsg⟩, his⟩, hv⟩
  · intro d' hd' x hx
    obtain ⟨d, hd, rfl, -⟩ := hdoc' hd'
    obtain ⟨hx, hxg⟩ := d.clearToc_tocItemId gone hx
    obtain ⟨i, hi, rfl, hid⟩ := h.toc_valid d hd _ hx
    exact ⟨i, hrow.mpr ⟨hi, hxg⟩, rfl, by simpa using hid⟩
  · intro c hc
    obtain ⟨hc, hk⟩ := List.mem_filter.mp hc
    obtain ⟨d, hd, hdc⟩ := h.categories_placed c hc
    exact ⟨d.clearToc gone, hdoc d hd (hdc ▸ hk), by simpa using hdc⟩
  · exact (List.filter_sublist.map _).nodup h.categories_unique
  · intro j hj
    exact h.texts_bounded j (hrow.mp hj).1

theorem prune_all : ({ Memory.deleteSubtrees roots t with
      categories := t.categories.filter fun _ => true
      documents := (t.documents.map (Document.clearToc (deletedIds roots t))).filter fun _ => true } :
        Tables) = Memory.deleteSubtrees roots t := by
  simp only [List.filter_true]
  rfl

theorem StoreInvariant.deleteSubtrees (h : StoreInvariant catalog t) (hf : Fresh n t)
    (hroots : ∀ d ∈ t.documents, ∀ r, d.rootItemId = some r → r ∉ deletedIds roots t) :
    StoreInvariant catalog (Memory.deleteSubtrees roots t) := by
  rw [← prune_all]
  exact h.prune hf (fun _ => true) (fun d hd _ => hroots d hd) (fun _ _ _ => rfl)

theorem Fresh.deleteSubtrees (hf : Fresh n t) : Fresh n (Memory.deleteSubtrees roots t) := by
  rw [← prune_all]
  exact hf.prune (fun _ => true)

theorem StoreInvariant.deleteChildren (h : StoreInvariant catalog t) (hf : Fresh n t) (p : String) :
    StoreInvariant catalog
      (Memory.deleteSubtrees ((t.items.filter fun e => e.1.isChildOf p).map (·.1.id)) t) := by
  refine h.deleteSubtrees hf fun d hd r hr => not_mem_deletedIds_of_parentless
    (fun i hi hir => (h.root_parentless hf hd hr i hi hir).1) fun hmem => ?_
  obtain ⟨e, he, rfl⟩ := List.mem_map.mp hmem
  obtain ⟨he, hchild⟩ := List.mem_filter.mp he
  have hnone := (h.root_parentless hf hd hr e.1 (List.mem_map_of_mem he) rfl).1
  simp [Item.isChildOf, hnone] at hchild

theorem StoreInvariant.deleteDocument (h : StoreInvariant catalog t) (hf : Fresh n t) (id : String) :
    StoreInvariant catalog
      (let t' := Memory.deleteSubtrees ((t.items.filter fun e =>
          e.1.documentId == id && e.1.parentId.isNone).map (·.1.id)) t;
        { t' with categories := t'.categories.filter (·.documentId != id),
                  documents := t'.documents.filter (·.id != id) }) := by
  set roots := (t.items.filter fun e => e.1.documentId == id && e.1.parentId.isNone).map (·.1.id)
  have hroot_mem : ∀ {d : Document}, d ∈ t.documents → ∀ {r}, d.rootItemId = some r →
      (r ∈ roots ↔ d.id = id) := by
    intro d hd r hr
    constructor
    · intro hmem
      obtain ⟨e, he, rfl⟩ := List.mem_map.mp hmem
      obtain ⟨he, hdoc⟩ := List.mem_filter.mp he
      have := (h.root_parentless hf hd hr e.1 (List.mem_map_of_mem he) rfl).2
      simp only [Bool.and_eq_true, beq_iff_eq] at hdoc
      exact this ▸ hdoc.1
    · intro hid
      obtain ⟨r', hr', hroot⟩ := h.rooted d hd
      obtain ⟨j, hj, hjr, hjd, hjp⟩ := root_row hroot
      rw [hr, Option.some.injEq] at hr'
      obtain ⟨e, he, rfl⟩ := List.mem_map.mp hj
      refine List.mem_map.mpr ⟨e, List.mem_filter.mpr ⟨he, ?_⟩, hr' ▸ hjr⟩
      simp [hjd, hid, hjp]
  exact h.prune hf (· != id)
    (fun d hd hk r hr => not_mem_deletedIds_of_parentless
      (fun i hi hir => (h.root_parentless hf hd hr i hi hir).1)
      fun hmem => by simp [(hroot_mem hd hr).mp hmem] at hk)
    (fun i hi hig => by
      -- an item of the document descends from its root, which is deleted
      obtain ⟨d, hd, hdid, r, hr, hdesc⟩ := h.grounded i hi
      refine bne_iff_ne.mpr fun hid => hig (mem_deletedIds.mpr ⟨r, ?_, hdesc⟩)
      exact (hroot_mem hd hr).mpr (hdid.trans hid))

end Deletion

/-! ## A new document with its root item -/

/-- The tables with a new document of `user`, id `Uuid.minted (n + 1)`, created at `time`, and
its empty root item, id `Uuid.minted (n + 2)`, created with sequence number `k`. -/
def Tables.withDocument (t : Tables) (n k : Nat) (user : String) (time : Time.Instant) : Tables :=
  { t with
    documents := t.documents ++
      [⟨Uuid.minted (n + 1), user, some (Uuid.minted (n + 2)), none, false, time, some time⟩]
    items := t.items ++ [(⟨Uuid.minted (n + 2), Uuid.minted (n + 1), none, "", 0, false⟩, k)] }

section NewDocument

variable {catalog : Catalog} {n k : Nat} {t : Tables} {user : String} {time : Time.Instant}

@[simp] theorem rows_withDocument :
    (t.withDocument n k user time).rows = t.rows ++ [⟨Uuid.minted (n + 2), Uuid.minted (n + 1), none, "", 0, false⟩] := by
  simp [Tables.withDocument, Tables.rows]

theorem Fresh.withDocument (hf : Fresh n t) : Fresh (n + 2) (t.withDocument n k user time) where
  documents_minted d hd := by
    rcases List.mem_append.mp hd with hd | hd
    · exact (hf.documents_minted d hd).mono (by omega)
    · rw [List.mem_singleton.mp hd]
      exact (mintedBy_next n).mono (by omega)
  items_minted i hi := by
    rcases List.mem_append.mp (rows_withDocument ▸ hi) with hi | hi
    · exact (hf.items_minted i hi).mono (by omega)
    · rw [List.mem_singleton.mp hi]
      exact mintedBy_next (n + 1)
  documents_nodup := by
    simp only [Tables.withDocument, List.map_append, List.map_singleton, List.nodup_append,
      List.mem_singleton]
    refine ⟨hf.documents_nodup, List.nodup_singleton _, fun a ha b hb => hb ▸ ?_⟩
    obtain ⟨d, hd, rfl⟩ := List.mem_map.mp ha
    exact hf.document_ne_next hd
  items_nodup := by
    rw [rows_withDocument, List.map_append, List.map_singleton, List.nodup_append]
    refine ⟨(hf.mono (Nat.le_succ n)).items_nodup, List.nodup_singleton _, fun a ha b hb => ?_⟩
    obtain ⟨i, hi, rfl⟩ := List.mem_map.mp ha
    rw [List.mem_singleton.mp hb]
    exact (hf.mono (Nat.le_succ n)).item_ne_next hi

theorem DocumentsEvolve.withDocument : DocumentsEvolve n t (t.withDocument n k user time) := by
  intro d hd
  rcases List.mem_append.mp hd with hd | hd
  · exact .inl ⟨d, hd, rfl, fun _ h => h⟩
  · rw [List.mem_singleton.mp hd]
    exact .inr (not_mintedBy_next n)

theorem StoreInvariant.withDocument (h : StoreInvariant catalog t) (hf : Fresh n t) :
    StoreInvariant catalog (t.withDocument n k user time) := by
  have hsub : ∀ j ∈ t.rows, j ∈ (t.withDocument n k user time).rows :=
    fun j hj => rows_withDocument ▸ List.mem_append_left _ hj
  have hdsub : ∀ d ∈ t.documents, d ∈ (t.withDocument n k user time).documents :=
    fun d hd => List.mem_append_left _ hd
  -- no item of the tables belongs to the new document
  have hold : ∀ j ∈ t.rows, j.documentId ≠ Uuid.minted (n + 1) := by
    intro j hj hjd
    obtain ⟨d, hd, hdid, -⟩ := h.grounded j hj
    exact hf.document_ne_next hd (hdid.trans hjd)
  refine .of_grounded hf.withDocument ?_ ?_ ?_ ?_ ?_ ?_ h.categories_unique ?_
  · intro j hj p hp
    rcases List.mem_append.mp (rows_withDocument ▸ hj) with hj | hj
    · obtain ⟨q, hq, hqp, hqd⟩ := h.parent_linked j hj p hp
      exact ⟨q, hsub q hq, hqp, hqd⟩
    · rw [List.mem_singleton.mp hj] at hp
      cases hp
  · intro d hd
    rw [rows_withDocument, List.filter_append, List.map_append]
    rcases List.mem_append.mp hd with hd | hd
    · obtain ⟨r, hr, hroot⟩ := h.rooted d hd
      refine ⟨r, hr, ?_⟩
      have hne : Uuid.minted (n + 1) ≠ d.id := fun he => hf.document_ne_next hd he.symm
      simp [hroot, hne]
    · rw [List.mem_singleton.mp hd]
      have hnone : (t.rows.filter fun i => i.documentId == Uuid.minted (n + 1) && i.parentId.isNone) = [] :=
        List.filter_eq_nil_iff.mpr fun j hj => by simp [hold j hj]
      exact ⟨_, rfl, by simp [hnone]⟩
  · intro j hj
    rcases List.mem_append.mp (rows_withDocument ▸ hj) with hj | hj
    · obtain ⟨d, hd, hdid, r, hr, hdesc⟩ := h.grounded j hj
      exact ⟨d, hdsub d hd, hdid, r, hr, hdesc.mono hsub⟩
    · rw [List.mem_singleton.mp hj]
      exact ⟨_, List.mem_append_right _ (List.mem_singleton_self _), rfl, _, rfl, .refl _⟩
  · intro s hs
    obtain ⟨⟨i, hi, his⟩, hv⟩ := h.styles_valid s hs
    exact ⟨⟨i, hsub i hi, his⟩, hv⟩
  · intro d hd x hx
    rcases List.mem_append.mp hd with hd | hd
    · obtain ⟨i, hi, hix, hid⟩ := h.toc_valid d hd x hx
      exact ⟨i, hsub i hi, hix, hid⟩
    · rw [List.mem_singleton.mp hd] at hx
      cases hx
  · intro c hc
    obtain ⟨d, hd, hdc⟩ := h.categories_placed c hc
    exact ⟨d, hdsub d hd, hdc⟩
  · intro j hj
    rcases List.mem_append.mp (rows_withDocument ▸ hj) with hj | hj
    · exact h.texts_bounded j hj
    · rw [List.mem_singleton.mp hj]
      exact Nat.zero_le _

end NewDocument

end Outliner
