import Outliner.Proofs.Preservation
import Outliner.Proofs.Rollback

/-!
# Every reachable store keeps its references

Each call of the document and category services keeps a run from a consistent store kept
when it succeeds (`Call.kept`); when it fails, its transaction or its checks leave the tables as
they were (`Call.atomic`) and ids only move forward. So every store reached from an empty one
satisfies `StoreInvariant`, and no call gives a document another root item
(`reachable_store_invariant`).
-/

set_option autoImplicit false

namespace Outliner

namespace Memory

variable {catalog : Catalog} {m₀ : Memory}

/-! ## What the services check before they write -/

theorem checkName_ok {name : String} (h : Documents.checkName name = .ok ()) :
    name.length ≤ maxItemTextLength := by
  unfold Documents.checkName at h
  split at h
  · cases h
  split at h
  · cases h
  rename_i hlong
  have : maxDocumentNameLength ≤ maxItemTextLength := by decide
  omega

theorem checkTexts_ok {texts : List (String × String)} (h : Documents.checkTexts texts = .ok ()) :
    ∀ e ∈ texts, e.2.length ≤ maxItemTextLength := by
  unfold Documents.checkTexts at h
  split at h
  · cases h
  split at h
  · cases h
  dsimp only at h
  split at h
  · rename_i hshort
    intro e he
    have hnone := List.isEmpty_iff.mp hshort
    rw [List.map_eq_nil_iff, List.filter_eq_nil_iff] at hnone
    have := hnone e he
    simp only [decide_eq_true_eq] at this
    omega
  · cases h

/-! ## Each service keeps a run kept -/

theorem kept_create (user : String) :
    Triple (Kept catalog m₀) (Documents.create repository user) (fun _ => Kept catalog m₀) :=
  Triple.ite (Triple.raise _ _ _)
    (kept_atomically ((kept_createWithRoot user).bind fun _ => Triple.pure_of _ fun _ h => h))

theorem kept_rename (user docId name : String) :
    Triple (Kept catalog m₀) (Documents.rename repository user docId name) (fun _ => Kept catalog m₀) := by
  unfold Documents.rename
  refine (triple_check _ _).bind fun _ => Triple.of_pre (fun _ h => checkName_ok h.2) fun hname => ?_
  refine (triple_canEdit _ user docId).bind fun d => ?_
  exact (kept_atomically ((kept_updateText hname _ _).bind fun _ =>
    kept_now.bind fun _ => kept_touchDocument _ _)).mono
    (fun _ h => h.1.1) fun _ _ h => h

theorem kept_editTexts (user docId : String) (texts : List (String × String)) :
    Triple (Kept catalog m₀) (Documents.editTexts repository user docId texts) (fun _ => Kept catalog m₀) := by
  unfold Documents.editTexts
  refine (triple_check _ _).bind fun _ => Triple.of_pre (fun _ h => checkTexts_ok h.2) fun htexts => ?_
  refine (triple_canEdit _ user docId).bind fun d => ?_
  refine (kept_atomically (((readsOnly_listItems _).triple _).bind fun items =>
    (Triple.forIn (fun i _ => ?_) _ _).bind fun _ => kept_now.bind fun _ => kept_touchDocument _ _)).mono
    (fun _ h => h.1.1) fun _ _ h => h
  split
  · rename_i k t hfind
    exact (kept_updateText (htexts _ (List.mem_of_find?_eq_some hfind)) _ _).bind fun _ =>
      Triple.pure_of _ fun _ h => h
  · exact Triple.pure_of _ fun _ h => h

theorem kept_setPublic (user docId : String) (visible : Bool) :
    Triple (Kept catalog m₀) (Documents.setPublic repository user docId visible) (fun _ => Kept catalog m₀) :=
  (triple_canEdit _ user docId).bind fun _ =>
    (kept_setPubliclyViewable _ _).mono (fun _ h => h.1) fun _ _ h => h

theorem kept_delete (user docId : String) :
    Triple (Kept catalog m₀) (Documents.delete repository user docId) (fun _ => Kept catalog m₀) := by
  unfold Documents.delete
  refine Triple.ite (Triple.raise _ _ _) ((triple_canView _ user docId).bind fun d => ?_)
  refine ((readsOnly_isTrashed user d.id).triple _).bind fun _ =>
    Triple.ite ?_ (Triple.ite (Triple.raise _ _ _) ?_)
  · exact ((kept_createCategory user d.id _).mono (fun _ h => ⟨h.1, d, h.2, rfl⟩)
      fun _ _ h => h).bind fun _ => Triple.pure_of _ fun _ h => h
  · exact ((kept_deleteDocument _).mono (fun _ h => h.1) fun _ _ h => h).bind fun _ =>
      Triple.pure_of _ fun _ h => h

theorem kept_reconcile (limits : Limits) (user docId : String) (snap : Option Snapshot) :
    Triple (Kept catalog m₀) (Documents.reconcile repository catalog limits user docId snap)
      (fun _ => Kept catalog m₀) := by
  unfold Documents.reconcile
  cases snap with
  | none => exact Triple.raise _ _ _
  | some s =>
    refine (triple_canEdit _ user docId).bind fun d => ?_
    cases hp : Plan.make catalog limits d s with
    | error f => exact Triple.raise _ _ _
    | ok p => exact Triple.rebase fun _ hd => kept_write hp hd

theorem kept_copy (user docId : String) :
    Triple (Kept catalog m₀) (Documents.copy repository user docId) (fun _ => Kept catalog m₀) := by
  unfold Documents.copy
  refine Triple.ite (Triple.raise _ _ _) ((triple_canView _ user docId).bind fun src => ?_)
  refine (triple_listItems _ src.id).bind fun items => Triple.of_pre
    (fun _ h i hi => h.1.1.now.invariant.texts_bounded i (h.2 i hi).1) fun htexts => ?_
  exact (kept_replicate src items user htexts).mono (fun _ h => h.1.1) fun _ _ h => h

theorem kept_addCategory (user docId name : String) :
    Triple (Kept catalog m₀) (Categories.add repository user docId name) (fun _ => Kept catalog m₀) := by
  unfold Categories.add
  exact Triple.ite (Triple.raise _ _ _) (((readsOnly_lift _).triple _).bind fun _ =>
    (triple_viewable _ user docId).bind fun d =>
      (kept_createCategory user d.id _).mono (fun _ h => ⟨h.1, d, h.2, rfl⟩) fun _ _ h => h)

theorem kept_removeCategory (user docId name : String) :
    Triple (Kept catalog m₀) (Categories.remove repository user docId name) (fun _ => Kept catalog m₀) := by
  unfold Categories.remove
  exact ((readsOnly_lift _).triple _).bind fun _ => (triple_viewable _ user docId).bind fun _ =>
    (kept_deleteCategory _ _ _).mono (fun _ h => h.1) fun _ _ h => h

theorem consistent_empty (n : Nat) (clock : Nat → Time.Instant) :
    Consistent catalog (Memory.empty n clock) where
  invariant := .of_grounded (n := 0) ⟨nofun, nofun, List.nodup_nil, List.nodup_nil⟩
    nofun nofun nofun nofun nofun nofun List.nodup_nil nofun
  fresh := ⟨nofun, nofun, List.nodup_nil, List.nodup_nil⟩

end Memory

namespace Call

open Memory

variable {catalog : Catalog} {limits : Limits}

theorem kept (c : Call) (m₀ : Memory) :
    Triple (Kept catalog m₀) (c.run catalog limits) (fun _ => Kept catalog m₀) := by
  cases c with
  | create u => exact (kept_create u).map _
  | view u d => exact ((readsOnly_view u d).triple _).map _
  | list u => exact ((readsOnly_list u).triple _).map _
  | rename u d n => exact kept_rename u d n
  | editTexts u d ts => exact kept_editTexts u d ts
  | setPublic u d v => exact kept_setPublic u d v
  | delete u d => exact (kept_delete u d).map _
  | reconcile u d s => exact (kept_reconcile limits u d s).map _
  | copy u d => exact (kept_copy u d).map _
  | addCategory u d n => exact (kept_addCategory u d n).map _
  | removeCategory u d n => exact kept_removeCategory u d n
  | listCategories u d => exact ((readsOnly_listCategories u d).triple _).map _
  | isTrashed u d => exact ((readsOnly_trashed u d).triple _).map _

theorem consistent (c : Call) {m : Memory} (hc : Consistent catalog m) (hout : m.inTransaction = false) :
    Kept catalog m (exec (c.run catalog limits) m).2 := by
  have hadv := Call.advances catalog limits c m
  rcases h : exec (c.run catalog limits) m with ⟨r, m'⟩
  rw [h] at hadv
  cases r with
  | ok a => exact Call.kept c m m a m' (Kept.refl hc) h
  | error e =>
    have ht : m'.tables = m.tables := Call.atomic catalog limits c m e m' hout h
    refine ⟨hc, ⟨ht ▸ hc.invariant, ht ▸ hc.fresh.mono hadv.1⟩, hadv.1, ?_⟩
    rw [ht]
    exact DocumentsEvolve.refl _ _

end Call

theorem Reachable.consistent {catalog : Catalog} {limits : Limits} {m : Memory}
    (h : Reachable catalog limits m) : Memory.Consistent catalog m := by
  induction h with
  | empty n clock => exact Memory.consistent_empty n clock
  | step c hm ih => exact (Call.consistent c ih hm.outside).now

/-- Every store reached from an empty store by calls of the services, by any users and
whether the calls succeed or fail, satisfies the referential invariant; and no call from it
gives a document another root item. -/
theorem reachable_store_invariant {catalog : Catalog} {limits : Limits} {m : Memory}
    (hm : Reachable catalog limits m) :
    StoreInvariant catalog m.tables ∧
      ∀ c : Call, RootsKept m.tables (Memory.exec (c.run catalog limits) m).2.tables :=
  ⟨hm.consistent.invariant, fun c => (Call.consistent c hm.consistent hm.outside).rootsKept⟩

/-- The store after a first document is created keeps the invariant and its root. -/
theorem first_document_store_invariant :
    Reachable Catalog.standard Limits.standard
        (Memory.exec ((Call.create "alice").run Catalog.standard Limits.standard) (Memory.empty 0 secondsClock)).2 ∧
      StoreInvariant Catalog.standard
        (Memory.exec ((Call.create "alice").run Catalog.standard Limits.standard) (Memory.empty 0 secondsClock)).2.tables ∧
      ∀ c : Call, RootsKept
        (Memory.exec ((Call.create "alice").run Catalog.standard Limits.standard) (Memory.empty 0 secondsClock)).2.tables
        (Memory.exec (c.run Catalog.standard Limits.standard)
          (Memory.exec ((Call.create "alice").run Catalog.standard Limits.standard) (Memory.empty 0 secondsClock)).2).2.tables :=
  ⟨.step _ (.empty 0 secondsClock), reachable_store_invariant (.step _ (.empty 0 secondsClock))⟩

end Outliner
