import Mathlib
import Outliner.Proofs.Ownership
import Outliner.Proofs.CopyTree

/-!
# Putting a document away, then deleting it

A user who may view a document and asks to delete it first puts it away: the call adds the
user's Trash category on the document and changes nothing else. Asked again, it deletes the
document if the user owns it: the document goes with its items, the styles on them and every
category on it, whoever put it there (`Tables.withoutDocument`), and nothing of it is left
(`Tables.Purged`); a user who does not own it is refused, and nothing changes.

That a deletion leaves nothing of the document rests on the store's invariant. The store
deletes the subtrees under the document's items without a parent, and every item of a
document descends from its root item, the one such item (`mem_deletedIds_roots`).
-/

set_option autoImplicit false

namespace Outliner

namespace Tables

/-- The tables without the document `D`: its row, its items, the styles on those items, and
every category on it. -/
def withoutDocument (t : Tables) (D : String) : Tables :=
  { t with
    items := t.items.filter (·.1.documentId != D)
    styles := t.styles.filter fun s => !(t.items.filter (·.1.documentId == D)).any (·.1.id == s.itemId)
    categories := t.categories.filter (·.documentId != D)
    documents := t.documents.filter (·.id != D) }

variable {t : Tables} {D : String}

/-- Nothing of the document `D` of `t` is left in `t'`: no row, no item, no style on an item
that `D` had, no category on it. -/
structure Purged (D : String) (t t' : Tables) : Prop where
  documents : ∀ d ∈ t'.documents, d.id ≠ D
  items : ∀ e ∈ t'.items, e.1.documentId ≠ D
  styles : ∀ s ∈ t'.styles, ∀ e ∈ t.items, e.1.documentId = D → e.1.id ≠ s.itemId
  categories : ∀ c ∈ t'.categories, c.documentId ≠ D

theorem purged_withoutDocument : t.Purged D (t.withoutDocument D) where
  documents d hd := by simpa using (List.mem_filter.mp hd).2
  items e he := by simpa using (List.mem_filter.mp he).2
  styles s hs e he hD hid := by
    have hon : ((t.items.filter (·.1.documentId == D)).any (·.1.id == s.itemId)) = true :=
      List.any_eq_true.mpr ⟨e, List.mem_filter.mpr ⟨he, by simpa using hD⟩, by simpa using hid⟩
    have hkept := (List.mem_filter.mp hs).2
    rw [hon] at hkept
    cases hkept
  categories c hc := by simpa using (List.mem_filter.mp hc).2

theorem holdings_withoutDocument (hnodup : (t.rows.map (·.id)).Nodup) {x : String} (hx : x ≠ D) :
    (t.withoutDocument D).holdings x = t.holdings x := by
  have hitems : (t.withoutDocument D).items.filter (·.1.documentId == x) =
      t.items.filter (·.1.documentId == x) := by
    change (t.items.filter _).filter _ = _
    rw [List.filter_filter]
    refine List.filter_congr fun e _ => ?_
    by_cases hex : e.1.documentId = x
    · simp [hex, hx]
    · simp [hex]
  refine holdings_eq ?_ hitems ?_
  · change (t.documents.filter _).filter _ = _
    rw [List.filter_filter]
    refine List.filter_congr fun d _ => ?_
    by_cases hdx : d.id = x
    · simp [hdx, hx]
    · simp [hdx]
  · -- a style on an item of `x` is on no item of `D`: the item's id is its own
    change (t.styles.filter _).filter _ = _
    rw [List.filter_filter]
    refine List.filter_congr fun s _ => ?_
    by_cases hs : ((t.items.filter (·.1.documentId == x)).any fun e => e.1.id == s.itemId) = true
    · obtain ⟨e, he, heid⟩ := List.any_eq_true.mp hs
      obtain ⟨he, hex⟩ := List.mem_filter.mp he
      have hnone : ((t.items.filter (·.1.documentId == D)).any fun e => e.1.id == s.itemId) = false := by
        refine List.any_eq_false.mpr fun f hf hfid => ?_
        obtain ⟨hf, hfD⟩ := List.mem_filter.mp hf
        have hef : e.1 = f.1 := List.inj_on_of_nodup_map hnodup (List.mem_map_of_mem he)
          (List.mem_map_of_mem hf) (by simp_all)
        simp only [beq_iff_eq] at hex hfD
        exact hx (by rw [← hex, hef, hfD])
      simp [hs, hnone]
    · simp only [Bool.not_eq_true] at hs
      simp [hs]

end Tables

namespace Memory

variable {catalog : Catalog} {m : Memory} {D : String}

/-- The items without a parent of the document `D`, from which the store deletes it. -/
def rootsOf (t : Tables) (D : String) : List String :=
  (t.items.filter fun e => e.1.documentId == D && e.1.parentId.isNone).map (·.1.id)

theorem mem_deletedIds_roots {t : Tables} {n : Nat} (hinv : StoreInvariant catalog t) (hf : Fresh n t)
    {i : Item} (hi : i ∈ t.rows) : i.id ∈ deletedIds (rootsOf t D) t ↔ i.documentId = D := by
  constructor
  · intro hg
    obtain ⟨j, hj, hjroot, hjdoc⟩ := Tables.doc_of_mem_deletedIds hinv hf hg hi rfl
    obtain ⟨e, he, hej⟩ := List.mem_map.mp hjroot
    obtain ⟨he, hroot⟩ := List.mem_filter.mp he
    have hje : j = e.1 := hf.item_eq hj (List.mem_map_of_mem he) hej.symm
    simp only [Bool.and_eq_true, beq_iff_eq] at hroot
    rw [← hjdoc, hje, hroot.1]
  · intro hiD
    obtain ⟨d, hd, hdid, r, hr, hdesc⟩ := hinv.grounded i hi
    obtain ⟨r', hr', hroot⟩ := hinv.rooted d hd
    obtain ⟨j, hj, hjr, hjd, hjp⟩ := root_row hroot
    rw [hr, Option.some.injEq] at hr'
    obtain ⟨e, he, rfl⟩ := List.mem_map.mp hj
    refine mem_deletedIds.mpr ⟨r, List.mem_map.mpr ⟨e, List.mem_filter.mpr ⟨he, ?_⟩, hr' ▸ hjr⟩, hdesc⟩
    simp [hjd, hdid, hiD, hjp]

theorem deleted_tables {t : Tables} {n : Nat} (hinv : StoreInvariant catalog t) (hf : Fresh n t) :
    { deleteSubtrees (rootsOf t D) t with
      categories := t.categories.filter (·.documentId != D)
      documents := (deleteSubtrees (rootsOf t D) t).documents.filter (·.id != D) } =
      t.withoutDocument D := by
  have hgone : ∀ i ∈ t.rows, (deletedIds (rootsOf t D) t).contains i.id = (i.documentId == D) := by
    intro i hi
    rw [Bool.eq_iff_iff, List.contains_iff_mem, beq_iff_eq]
    exact mem_deletedIds_roots hinv hf hi
  show Tables.mk ((t.documents.map (Document.clearToc (deletedIds (rootsOf t D) t))).filter (·.id != D))
      (t.items.filter fun e => !(deletedIds (rootsOf t D) t).contains e.1.id)
      (t.styles.filter fun s => !(deletedIds (rootsOf t D) t).contains s.itemId)
      (t.categories.filter (·.documentId != D)) = Tables.mk (t.documents.filter (·.id != D))
      (t.items.filter (·.1.documentId != D))
      (t.styles.filter fun s => !(t.items.filter (·.1.documentId == D)).any (·.1.id == s.itemId))
      (t.categories.filter (·.documentId != D))
  congr 1
  · -- the documents that stay keep their table-of-contents items, which are their own
    rw [List.filter_map]
    refine (List.map_congr_left fun d hd => ?_).trans (List.map_id _) |>.trans ?_
    · obtain ⟨hd, hdD⟩ := List.mem_filter.mp hd
      unfold Document.clearToc
      split
      · rename_i x hx
        obtain ⟨i, hi, rfl, hid⟩ := hinv.toc_valid d hd _ hx
        rw [hgone i hi, hid]
        simp only [Function.comp_apply, Document.clearToc_id, bne_iff_ne, ne_eq] at hdD
        simp [hdD]
      · rfl
    · exact List.filter_congr fun d _ => by simp
  · refine List.filter_congr fun e he => ?_
    rw [hgone e.1 (List.mem_map_of_mem he)]
    rfl
  · -- a style sits on an item, which goes exactly when it is an item of the document
    refine List.filter_congr fun s hs => ?_
    obtain ⟨⟨i, hi, his⟩, -⟩ := hinv.styles_valid s hs
    rw [← his, hgone i hi]
    congr 1
    by_cases hiD : i.documentId = D
    · obtain ⟨e, he, rfl⟩ := List.mem_map.mp hi
      rw [List.any_eq_true.mpr ⟨e, List.mem_filter.mpr ⟨he, by simpa using hiD⟩, by simp⟩]
      simpa using hiD
    · rw [List.any_eq_false.mpr fun f hfm hfid => hiD ?_]
      · simpa using hiD
      · obtain ⟨hfm, hfD⟩ := List.mem_filter.mp hfm
        rw [← hf.item_eq (List.mem_map_of_mem hfm) hi (by simpa using hfid)]
        simpa using hfD

theorem exec_deleteDocument (hc : Consistent catalog m) (hD : ∃ d ∈ m.tables.documents, d.id = D) :
    exec (deleteDocument D) m = (.ok (), { m with tables := m.tables.withoutDocument D }) := by
  rcases deleteDocument_cases D m with ⟨hnone, -⟩ | ⟨-, he⟩
  · obtain ⟨d, hd, rfl⟩ := hD
    have hsome := document?_of_mem hc.fresh hd
    rw [hnone] at hsome
    cases hsome
  rw [he]
  congr 2
  exact deleted_tables hc.invariant hc.fresh

/-! ## The three outcomes of a delete -/

section Outcomes

variable {u : String} {d : Document}

theorem exec_canView {x : String} (hD : document? m.tables x = some d)
    (hv : (d.publiclyViewable || Access.isOwner u d) = true) :
    exec (Access.canView repository u x) m = (.ok d, m) := by
  unfold Access.canView
  rw [exec_bind_ok (exec_load hD), if_pos hv]
  rfl

theorem exec_isTrashed (x : String) :
    exec (Documents.isTrashed repository u x) m =
      (.ok (category? m.tables u x Category.trash).isSome, m) := by
  unfold Documents.isTrashed
  dsimp only [repository]
  rw [exec_tryCatch, exec_bind, exec_getCategory]
  cases category? m.tables u x Category.trash <;> rfl

theorem exec_createCategory {doc name : String} (hnone : category? m.tables u doc name = none) :
    exec (createCategory u doc name) m =
      (.ok ⟨Uuid.minted (m.minted + 1), u, doc, name⟩,
        { m with minted := m.minted + 1
                 tables := { m.tables with
                   categories := m.tables.categories ++ [⟨Uuid.minted (m.minted + 1), u, doc, name⟩] } }) := by
  unfold createCategory
  rw [exec_bind_ok (exec_tablesNow m), hnone]
  rfl

theorem exec_delete_putsAway (hu : u ≠ "") (hD : document? m.tables D = some d)
    (hv : (d.publiclyViewable || Access.isOwner u d) = true)
    (hnone : category? m.tables u D Category.trash = none) :
    exec (Documents.delete repository u D) m =
      (.ok ⟨true, false⟩,
        { m with minted := m.minted + 1
                 tables := { m.tables with
                   categories := m.tables.categories ++ [⟨Uuid.minted (m.minted + 1), u, D, Category.trash⟩] } }) := by
  obtain ⟨-, hdid⟩ := document?_eq_some hD
  unfold Documents.delete
  rw [if_neg (by simpa using hu), exec_bind_ok (exec_canView hD hv), exec_bind_ok (exec_isTrashed _),
    hdid, hnone]
  dsimp only [repository]
  rw [if_pos (by decide), exec_bind_ok (exec_createCategory hnone)]
  rfl

theorem exec_delete_deletes (hc : Consistent catalog m) (hu : u ≠ "") (hD : document? m.tables D = some d)
    (hown : d.userId = u) (htrash : (category? m.tables u D Category.trash).isSome) :
    exec (Documents.delete repository u D) m = (.ok ⟨false, true⟩, { m with tables := m.tables.withoutDocument D }) := by
  obtain ⟨hdm, hdid⟩ := document?_eq_some hD
  have hOwner : Access.isOwner u d = true := by simp [Access.isOwner, hu, hown]
  unfold Documents.delete
  rw [if_neg (by simpa using hu), exec_bind_ok (exec_canView hD (by simp [hOwner])),
    exec_bind_ok (exec_isTrashed _), hdid, htrash]
  dsimp only [repository]
  rw [if_neg (by decide), if_neg (by simp [hOwner]), exec_bind_ok (exec_deleteDocument hc ⟨d, hdm, hdid⟩)]
  rfl

/-- The store after one user puts a category on another user's public document, which its
owner then puts away. -/
def sharedTrashStore : Memory :=
  [Call.create "bob", .create "alice", .setPublic "alice" (Uuid.minted 3) true,
    .addCategory "bob" (Uuid.minted 3) "work", .delete "alice" (Uuid.minted 3)].foldl
    (fun m c => (exec (c.run Catalog.standard Limits.standard) m).2) (Memory.empty 0 secondsClock)

/-- Deleting a document takes away every category on it, another user's too. -/
theorem owner_delete_takes_others_category :
    Reachable Catalog.standard Limits.standard sharedTrashStore ∧
    (⟨Uuid.minted 5, "bob", Uuid.minted 3, "Work"⟩ : Category) ∈ sharedTrashStore.tables.categories ∧
    (⟨Uuid.minted 5, "bob", Uuid.minted 3, "Work"⟩ : Category) ∉
      (exec ((Call.delete "alice" (Uuid.minted 3)).run Catalog.standard Limits.standard)
        sharedTrashStore).2.tables.categories := by
  have hm : Reachable Catalog.standard Limits.standard sharedTrashStore := Reachable.foldl (.empty 0 secondsClock) _
  have hbefore : sharedTrashStore.tables.categories =
      [⟨Uuid.minted 5, "bob", Uuid.minted 3, "Work"⟩, ⟨Uuid.minted 6, "alice", Uuid.minted 3, "Trash"⟩] := by
    decide +kernel
  have hD : document? sharedTrashStore.tables (Uuid.minted 3) =
      some ⟨Uuid.minted 3, "alice", some (Uuid.minted 4), none, true, secondsClock 2, some (secondsClock 2)⟩ := by
    decide +kernel
  have htrash : (category? sharedTrashStore.tables "alice" (Uuid.minted 3) Category.trash).isSome := by
    decide +kernel
  have hdel := exec_delete_deletes hm.consistent (by decide) hD rfl htrash
  refine ⟨hm, ?_, ?_⟩
  · rw [hbefore]
    exact List.mem_cons_self
  · simp only [Call.run, exec_map, hdel, Tables.withoutDocument, hbefore, List.filter_cons,
      bne_self_eq_false, Bool.false_eq_true, if_false, List.filter_nil]
    exact List.not_mem_nil

theorem exec_delete_refused (hu : u ≠ "") (hD : document? m.tables D = some d)
    (hv : (d.publiclyViewable || Access.isOwner u d) = true) (hown : d.userId ≠ u)
    (htrash : (category? m.tables u D Category.trash).isSome) :
    exec (Documents.delete repository u D) m = (.error (Failure.forbiddenTo ("delete document " ++ D)), m) := by
  obtain ⟨-, hdid⟩ := document?_eq_some hD
  unfold Documents.delete
  rw [if_neg (by simpa using hu), exec_bind_ok (exec_canView hD hv), exec_bind_ok (exec_isTrashed _),
    hdid, htrash, if_neg (by decide), if_pos (by simp [isOwner_eq_false (Ne.symm hown)])]
  rfl

theorem delete_ok (hc : Consistent catalog m) {r : DeleteResult} {m' : Memory}
    (h : exec (Documents.delete repository u D) m = (.ok r, m')) :
    ∃ d, document? m.tables D = some d ∧ u ≠ "" ∧
      ((category? m.tables u D Category.trash = none ∧
        m' = { m with minted := m.minted + 1
                      tables := { m.tables with
                        categories := m.tables.categories ++
                          [⟨Uuid.minted (m.minted + 1), u, D, Category.trash⟩] } }) ∨
       ((category? m.tables u D Category.trash).isSome ∧ d.userId = u ∧
        m' = { m with tables := m.tables.withoutDocument D })) := by
  unfold Documents.delete at h
  by_cases hu : u = ""
  · rw [if_pos (by simp [hu]), exec_raise] at h
    cases h
  rw [if_neg (by simpa using hu)] at h
  obtain ⟨d, m₁, hv, hrest⟩ := exec_bind_eq_ok.mp h
  obtain rfl : m₁ = m := by simpa [hv] using readsOnly_canView u D m
  have hD := (triple_canView_found (fun _ => True) u D m₁ d m₁ trivial hv).2
  obtain ⟨hdm, hdid⟩ := document?_eq_some hD
  rw [exec_bind_ok (exec_isTrashed _), hdid] at hrest
  dsimp only [repository] at hrest
  refine ⟨d, hD, hu, ?_⟩
  cases hcat : category? m₁.tables u D Category.trash with
  | none =>
    rw [hcat, if_pos (by decide), exec_bind_ok (exec_createCategory hcat)] at hrest
    exact .inl ⟨rfl, (Prod.mk.inj hrest).2.symm⟩
  | some c =>
    rw [hcat, if_neg (by simp)] at hrest
    by_cases hown : Access.isOwner u d = true
    · rw [if_neg (by simp [hown]), exec_bind_ok (exec_deleteDocument hc ⟨d, hdm, hdid⟩)] at hrest
      exact .inr ⟨rfl, isOwner_userId hown, (Prod.mk.inj hrest).2.symm⟩
    · rw [if_pos (by simpa using hown), exec_raise] at hrest
      cases hrest

end Outcomes

end Memory

end Outliner
