import Mathlib
import Outliner.Proofs.TextEdits

/-!
# A call on one document leaves the others alone

A call that names a document `D` writes only `D`: run from a reachable store, it leaves every
other document's row, items and styles, and every category on another document, as they were
(`Call.confined`). The services aim each write at the document they found under the id they
were given, or at an item of it: the items they create, and its root item, whose id only `D`
has (`Tables.OnlyIn`). A copy is the one call that writes another document as well: the new
one, under the next id, which held nothing before (`copy_confined`). A delete takes `D` away,
and with it nothing of any other document (`calls_spare_other_documents`).

A document's row, then, leaves the store only through a delete that names it, by its owner,
while the owner's Trash category is on it: every other call keeps the row
(`Call.keeps_row`), and a run keeps it until such a call (`Call.run_keeps_row`). With the three
outcomes of a delete, this is the two steps of `delete_puts_away_then_deletes`.
-/

set_option autoImplicit false

namespace Outliner.Memory

open Tables

variable {α : Type} {catalog : Catalog} {D : String} {t₀ : Tables}

/-- A consistent store whose tables differ from `t₀` only in the document `D`. -/
def Aimed (catalog : Catalog) (D : String) (t₀ : Tables) (m : Memory) : Prop :=
  Consistent catalog m ∧ t₀.Confined D m.tables

theorem Aimed.inTransaction {m : Memory} (h : Aimed catalog D t₀ m) (b : Bool) :
    Aimed catalog D t₀ { m with inTransaction := b } :=
  ⟨h.1.of_frame rfl rfl, h.2⟩

theorem Triple.aimed {x : MemoryM α} (hk : ∀ m₁, Triple (Kept catalog m₁) x (fun _ => Kept catalog m₁))
    (hs : Triple (Aimed catalog D t₀) x (fun _ m => t₀.Confined D m.tables)) :
    Triple (Aimed catalog D t₀) x (fun _ => Aimed catalog D t₀) :=
  fun m a m' h hx => ⟨(hk m m a m' (Kept.refl h.1) hx).now, hs m a m' h hx⟩

theorem aimed_atomically {body : MemoryM α}
    (hb : Triple (Aimed catalog D t₀) body (fun _ m => t₀.Confined D m.tables)) :
    Triple (Aimed catalog D t₀) (repository.atomically body) (fun _ m => t₀.Confined D m.tables) :=
  Triple.atomically hb (fun _ h => h.inTransaction true) fun _ _ h => h

/-! ## Each write, aimed at `D` -/

section Operations

variable {doc : String}

theorem aimed_updateText (hdoc : doc = D) (id text : String) :
    Triple (Aimed catalog D t₀) (updateText doc id text) (fun _ m => t₀.Confined D m.tables) := by
  subst hdoc
  exact fun _ _ _ h hx => h.2.trans (confined_updateText h.1 hx)

theorem aimed_updateDocument (hdoc : doc = D) {f : Document → Except Failure Document}
    (hf : ∀ d d', f d = .ok d' → d'.id = d.id) :
    Triple (fun m => t₀.Confined D m.tables) (updateDocument doc f) (fun _ m => t₀.Confined D m.tables) := by
  subst hdoc
  exact fun _ _ _ h hx => h.trans (confined_updateDocument hf hx)

theorem aimed_now : Triple (Aimed catalog D t₀) now (fun _ => Aimed catalog D t₀) :=
  triple_now fun _ h => ⟨h.1.of_frame rfl rfl, h.2⟩

theorem aimed_touchDocument (hdoc : doc = D) (time : Time.Instant) :
    Triple (fun m => t₀.Confined D m.tables) (touchDocument doc time) (fun _ m => t₀.Confined D m.tables) :=
  aimed_updateDocument hdoc fun d d' h => by cases h; rfl

theorem aimed_setPubliclyViewable (hdoc : doc = D) (v : Bool) :
    Triple (fun m => t₀.Confined D m.tables) (setPubliclyViewable doc v)
      (fun _ m => t₀.Confined D m.tables) :=
  aimed_updateDocument hdoc fun d d' h => by cases h; rfl

theorem aimed_setTocItem (hdoc : doc = D) (toc : Option String) :
    Triple (fun m => t₀.Confined D m.tables) (setTocItem doc toc) (fun _ m => t₀.Confined D m.tables) :=
  aimed_updateDocument hdoc fun d d' h => by cases h; rfl

theorem aimed_createItem (i : Item) (hi : i.documentId = D) (hp : i.parentId.isSome)
    (htext : i.itemText.length ≤ maxItemTextLength) :
    Triple (Aimed catalog D t₀) (createItem i)
      (fun i' m => Aimed catalog D t₀ m ∧ t₀.OnlyIn D i'.id) := by
  rintro m i' m' ⟨hc, h⟩ hx
  obtain ⟨hk, hmem, hdocId⟩ := kept_createItem i hp htext m i' m' (Kept.refl hc) hx
  have h' : t₀.Confined D m'.tables := h.trans (hi ▸ confined_createItem hx)
  exact ⟨⟨hk.now, h'⟩, h'.onlyIn_back (OnlyIn.of_mem hk.now.fresh.items_nodup hmem (hdocId.trans hi))⟩

theorem aimed_deleteChildren {p : String} (hp : t₀.OnlyIn D p) :
    Triple (Aimed catalog D t₀) (deleteChildren p) (fun _ m => t₀.Confined D m.tables) :=
  fun _ _ _ h hx => h.2.trans (confined_deleteChildren h.1 (h.2.onlyIn hp) hx)

theorem aimed_insertStyle {st : Style} (hst : t₀.OnlyIn D st.itemId) :
    Triple (Aimed catalog D t₀) (insertStyle st) (fun _ m => t₀.Confined D m.tables) :=
  fun _ _ _ h hx => h.2.trans (confined_insertStyle (h.2.onlyIn hst) hx)

theorem aimed_updateStyle {st : Style} (hst : t₀.OnlyIn D st.itemId) :
    Triple (Aimed catalog D t₀) (updateStyle st) (fun _ m => t₀.Confined D m.tables) :=
  fun _ _ _ h hx => h.2.trans (confined_updateStyle (h.2.onlyIn hst) hx)

theorem aimed_createCategory (hdoc : doc = D) (user name : String) :
    Triple (fun m => t₀.Confined D m.tables) (createCategory user doc name)
      (fun _ m => t₀.Confined D m.tables) := by
  subst hdoc
  exact fun _ _ _ h hx => h.trans (confined_createCategory hx)

theorem aimed_deleteCategory (hdoc : doc = D) (user name : String) :
    Triple (fun m => t₀.Confined D m.tables ∧ (m.tables.categories.map (·.id)).Nodup)
      (deleteCategory user doc name) (fun _ m => t₀.Confined D m.tables) := by
  subst hdoc
  exact fun _ _ _ h hx => h.1.trans (confined_deleteCategory h.2 hx)

end Operations

/-! ## Each service, on the document it found -/

section Services

theorem triple_canEdit_named (P : Memory → Prop) (user docId : String) :
    Triple P (Access.canEdit repository user docId) (fun d m => P m ∧ d.id = docId) :=
  (triple_canEdit_found P user docId).mono (fun _ h => h) fun _ _ h => ⟨h.1, (document?_eq_some h.2).2⟩

theorem triple_viewable_named (P : Memory → Prop) (user docId : String) :
    Triple P (Categories.viewable repository user docId) (fun d m => P m ∧ d.id = docId) :=
  Triple.ite (Triple.raise _ _ _) ((triple_canView_found P user docId).mono (fun _ h => h)
    fun _ _ h => ⟨h.1, (document?_eq_some h.2).2⟩)

theorem aimed_applyStyles {itemId : String} (hid : t₀.OnlyIn D itemId) :
    ∀ (edits : List StyleEdit) (present : List String), (∀ e ∈ edits, catalog.validate e = .ok ()) →
      Triple (Aimed catalog D t₀) (StyleWrite.apply repository itemId edits present)
        (fun _ => Aimed catalog D t₀) := fun _ present hv =>
  Triple.applyStyles_of
    (fun _ he => Triple.aimed (fun _ => kept_updateStyle (StyleEdit.validate_toStyle hv he itemId))
      (aimed_updateStyle hid))
    (fun _ he => Triple.aimed (fun _ => kept_insertStyle (StyleEdit.validate_toStyle hv he itemId))
      (aimed_insertStyle hid))
    present

theorem aimed_upsertStyles {itemId : String} (hid : t₀.OnlyIn D itemId) {edits : List StyleEdit}
    (hv : ∀ e ∈ edits, catalog.validate e = .ok ()) :
    Triple (Aimed catalog D t₀) (StyleWrite.upsert repository itemId edits) (fun _ => Aimed catalog D t₀) :=
  Triple.upsertStyles_of
    (fun _ he => Triple.aimed (fun _ => kept_updateStyle (StyleEdit.validate_toStyle hv he itemId))
      (aimed_updateStyle hid))
    (fun _ he => Triple.aimed (fun _ => kept_insertStyle (StyleEdit.validate_toStyle hv he itemId))
      (aimed_insertStyle hid))

theorem aimed_createNodes {docId : String} (hdoc : docId = D) (p : Plan) (nodes : List PlannedNode) :
    ∀ acc : List String, (∀ n ∈ nodes, Plan.Writable catalog n.text n.styles) →
      Triple (Aimed catalog D t₀) (Plan.createNodes repository docId p nodes acc)
        (fun _ => Aimed catalog D t₀) := fun acc hw =>
  Triple.createNodes_of (I := fun _ => Aimed catalog D t₀)
    (fun n hn _ _ => aimed_createItem _ hdoc rfl (hw n hn).1)
    (fun n hn _ _ hid => aimed_applyStyles hid n.styles [] (hw n hn).2) acc

theorem aimed_write {limits : Limits} {d : Document} {s : Snapshot} {p : Plan}
    (hp : Plan.make catalog limits d s = .ok p) (hdoc : d.id = D) (hR : t₀.OnlyIn D p.rootItemId) :
    Triple (Aimed catalog D t₀) (p.write repository d) (fun _ m => t₀.Confined D m.tables) := by
  obtain ⟨-, hrootText, hrootStyles, hnodes⟩ := Plan.make_writable hp
  exact Triple.write_of (fun _ h => h.inTransaction true) (fun _ _ h => h)
    (Triple.aimed (fun _ => kept_deleteChildren _) (aimed_deleteChildren hR))
    (fun t ht => Triple.aimed (fun _ => kept_updateText (hrootText t ht) _ _)
      (aimed_updateText hdoc _ _))
    (fun _ => aimed_upsertStyles hR hrootStyles) (fun _ _ h => h)
    (aimed_createNodes hdoc p p.nodes [] hnodes)
    (fun _ => (aimed_setTocItem hdoc _).mono (fun _ h => h.2) fun _ _ h => h)
    (fun _ _ h => h) (fun _ _ => aimed_touchDocument hdoc _) fun _ _ _ h => h

theorem aimed_rename (user name : String) :
    Triple (Aimed catalog D t₀) (Documents.rename repository user D name)
      (fun _ m => t₀.Confined D m.tables) := by
  unfold Documents.rename
  refine (triple_check _ _).bind fun _ => Triple.of_pre (fun _ h => checkName_ok h.2) fun hname => ?_
  refine (triple_canEdit_named _ user D).bind fun d => Triple.of_pre (fun _ h => h.2) fun hdoc => ?_
  exact (aimed_atomically ((Triple.aimed (fun _ => kept_updateText hname _ _)
    (aimed_updateText hdoc _ _)).bind fun _ => aimed_now.bind fun _ =>
      (aimed_touchDocument hdoc _).mono (fun _ h => h.2) fun _ _ h => h)).mono (fun _ h => h.1.1) fun _ _ h => h

theorem aimed_editTexts (user : String) (texts : List (String × String)) :
    Triple (Aimed catalog D t₀) (Documents.editTexts repository user D texts)
      (fun _ m => t₀.Confined D m.tables) := by
  unfold Documents.editTexts
  refine (triple_check _ _).bind fun _ => Triple.of_pre (fun _ h => checkTexts_ok h.2) fun htexts => ?_
  refine (triple_canEdit_named _ user D).bind fun d => Triple.of_pre (fun _ h => h.2) fun hdoc => ?_
  refine (aimed_atomically (((readsOnly_listItems _).triple _).bind fun items =>
    (Triple.forIn (fun i _ => ?_) _ _).bind fun _ => aimed_now.bind fun _ =>
      (aimed_touchDocument hdoc _).mono (fun _ h => h.2) fun _ _ h => h)).mono
    (fun _ h => h.1.1) fun _ _ h => h
  split
  · rename_i k t hfind
    exact (Triple.aimed (fun _ => kept_updateText (htexts _ (List.mem_of_find?_eq_some hfind)) _ _)
      (aimed_updateText hdoc _ _)).bind fun _ => Triple.pure_of _ fun _ h => h
  · exact Triple.pure_of _ fun _ h => h

theorem aimed_setPublic (user : String) (visible : Bool) :
    Triple (Aimed catalog D t₀) (Documents.setPublic repository user D visible)
      (fun _ m => t₀.Confined D m.tables) :=
  (triple_canEdit_named _ user D).bind fun _ => Triple.of_pre (fun _ h => h.2) fun hdoc =>
    (aimed_setPubliclyViewable hdoc visible).mono (fun _ h => h.1.2) fun _ _ h => h

theorem aimed_reconcile (limits : Limits) (user : String) (snap : Option Snapshot) :
    Triple (Aimed catalog D t₀) (Documents.reconcile repository catalog limits user D snap)
      (fun _ m => t₀.Confined D m.tables) := by
  unfold Documents.reconcile
  cases snap with
  | none => exact Triple.raise _ _ _
  | some s =>
    refine (triple_canEdit_found _ user D).bind fun d => ?_
    cases hp : Plan.make catalog limits d s with
    | error f => exact Triple.raise _ _ _
    | ok p =>
      have hroot : ∀ m, Aimed catalog D t₀ m ∧ document? m.tables D = some d →
          d.id = D ∧ t₀.OnlyIn D p.rootItemId := by
        rintro m ⟨⟨hc, h⟩, hd⟩
        obtain ⟨hdm, hdid⟩ := document?_eq_some hd
        obtain ⟨r, hr, hrows⟩ := hc.invariant.rooted d hdm
        obtain ⟨j, hj, hjr, hjd, -⟩ := root_row hrows
        have hpR : p.rootItemId = j.id := (Plan.make_rootItemId hp hr).trans hjr.symm
        exact ⟨hdid, hpR ▸ h.onlyIn_back (OnlyIn.of_mem hc.fresh.items_nodup hj (hjd.trans hdid))⟩
      exact Triple.of_pre hroot fun h => (aimed_write hp h.1 h.2).mono (fun _ h => h.1) fun _ _ h => h

theorem aimed_addCategory (user name : String) :
    Triple (Aimed catalog D t₀) (Categories.add repository user D name)
      (fun _ m => t₀.Confined D m.tables) := by
  unfold Categories.add
  exact Triple.ite (Triple.raise _ _ _) (((readsOnly_lift _).triple _).bind fun _ =>
    (triple_viewable_named _ user D).bind fun _ => Triple.of_pre (fun _ h => h.2) fun hdoc =>
      (aimed_createCategory hdoc _ _).mono (fun _ h => h.1.2) fun _ _ h => h)

theorem aimed_removeCategory (user name : String) :
    Triple (fun m => Aimed catalog D t₀ m ∧ (m.tables.categories.map (·.id)).Nodup)
      (Categories.remove repository user D name) (fun _ m => t₀.Confined D m.tables) := by
  unfold Categories.remove
  exact ((readsOnly_lift _).triple _).bind fun _ => (triple_viewable_named _ user D).bind fun _ =>
    Triple.of_pre (fun _ h => h.2) fun hdoc =>
      (aimed_deleteCategory hdoc _ _).mono (fun _ h => ⟨h.1.1.2, h.1.2⟩) fun _ _ h => h

end Services

/-! ## Copies, deletes and new documents -/

section Others

variable {limits : Limits} {m m' : Memory} {u : String}

theorem exec_map_eq_ok {β : Type} {x : MemoryM α} {g : α → β} {b : β}
    (h : exec (g <$> x) m = (.ok b, m')) : ∃ a, exec x m = (.ok a, m') := by
  rw [exec_map] at h
  rcases hx : exec x m with ⟨r, m''⟩
  rw [hx] at h
  cases r with
  | ok a =>
    obtain ⟨-, rfl⟩ := Prod.mk.inj h
    exact ⟨a, rfl⟩
  | error e => cases h

theorem holdings_next (hc : Consistent catalog m) : m.tables.holdings (Uuid.minted (m.minted + 1)) = ([], [], []) := by
  have hitems : m.tables.items.filter (·.1.documentId == Uuid.minted (m.minted + 1)) = [] :=
    List.filter_eq_nil_iff.mpr fun e he => by simpa using hc.documentId_ne_next e he
  have hdocs : m.tables.documents.filter (·.id == Uuid.minted (m.minted + 1)) = [] :=
    List.filter_eq_nil_iff.mpr fun d hd => by simpa using hc.fresh.document_ne_next hd
  unfold Tables.holdings
  rw [hitems, hdocs]
  simp

theorem copy_confined (hm : Reachable catalog limits m) {D' : Document}
    (h : exec (Documents.copy repository u D) m = (.ok D', m')) :
    (∀ x, x ≠ Uuid.minted (m.minted + 1) → m'.tables.holdings x = m.tables.holdings x) ∧
    (m'.tables.holdings (Uuid.minted (m.minted + 1))).1 = [copyDocument m u] ∧
    m'.tables.categories = m.tables.categories := by
  obtain ⟨src, hsrc, hrep⟩ := copy_ok h
  obtain ⟨r, O, rfl, hrun⟩ := replicate_ok hm.consistent hm.allPlain hm.outside
    (document?_eq_some hsrc).1 hrep
  have hf := hrun.faithful
  obtain ⟨E, hitems, hfil, -⟩ := hrun.entries
  -- the copy's entries are all items of the new document
  have hnew : ∀ e ∈ (copyRoot m r, m.sequence + 1) :: E, e.1.documentId = Uuid.minted (m.minted + 1) := by
    intro e he
    rw [← hfil] at he
    simpa using (List.mem_filter.mp he).2
  have hold : m.tables.documents.filter (·.id == Uuid.minted (m.minted + 1)) = [] :=
    List.filter_eq_nil_iff.mpr fun d hd => by simpa using hm.consistent.fresh.document_ne_next hd
  refine ⟨fun x hx => ?_, ?_, hf.categories⟩
  · have hE : ((copyRoot m r, m.sequence + 1) :: E).filter (·.1.documentId == x) = [] :=
      List.filter_eq_nil_iff.mpr fun e he => by simp [hnew e he, Ne.symm hx]
    have hi : m'.tables.items.filter (·.1.documentId == x) = m.tables.items.filter (·.1.documentId == x) := by
      rw [hitems, List.filter_append, hE, List.append_nil]
    refine holdings_eq ?_ hi (by rw [hf.styles])
    rw [hf.documents, List.filter_append]
    simp [copyDocument, Ne.symm hx]
  · change (m'.tables.documents.filter _) = _
    rw [hf.documents, List.filter_append, hold]
    simp [copyDocument]

theorem delete_confined (hm : Reachable catalog limits m) {r : DeleteResult}
    (h : exec (Documents.delete repository u D) m = (.ok r, m')) :
    (∀ x, x ≠ D → m'.tables.holdings x = m.tables.holdings x) ∧
    m'.tables.categories.filter (·.documentId != D) = m.tables.categories.filter (·.documentId != D) := by
  obtain ⟨d, -, -, ⟨-, rfl⟩ | ⟨-, -, rfl⟩⟩ := delete_ok hm.consistent h
  · exact ⟨fun _ _ => rfl, by simp [List.filter_append]⟩
  · refine ⟨fun x hx => holdings_withoutDocument hm.consistent.fresh.items_nodup hx, ?_⟩
    change (m.tables.categories.filter _).filter _ = _
    rw [List.filter_filter]
    exact List.filter_congr fun c _ => by simp

theorem create_confined (hm : Reachable catalog limits m) {d : Document}
    (h : exec (Documents.create repository u) m = (.ok d, m')) :
    ∀ x, x ≠ Uuid.minted (m.minted + 1) → m'.tables.holdings x = m.tables.holdings x := by
  unfold Documents.create at h
  by_cases hu : u = ""
  · rw [if_pos (by simp [hu]), exec_raise] at h
    cases h
  rw [if_neg (by simpa using hu)] at h
  obtain ⟨m₃, hb, rfl⟩ := exec_atomically_eq_ok hm.outside h
  obtain ⟨x, m₁, hx, hb⟩ := exec_bind_eq_ok.mp hb
  obtain ⟨ht₁, -, -⟩ := createWithRoot_ok (m := { m with inTransaction := true }) hm.consistent.fresh hx
  rw [exec_pure, Prod.mk.injEq] at hb
  intro y hy
  rw [← hb.2]
  exact ht₁ ▸ Tables.holdings_withDocument fun h' => hy h'.symm

end Others

end Outliner.Memory

namespace Outliner

open Memory Tables

variable {catalog : Catalog} {limits : Limits} {m : Memory} {D : String}

namespace Call

theorem aimed (c : Call) (hc : c.doc? = some D) (hcopy : ∀ u, c ≠ .copy u D) (hdel : ∀ u, c ≠ .delete u D)
    {t₀ : Tables} :
    Triple (fun m => Aimed catalog D t₀ m ∧ (m.tables.categories.map (·.id)).Nodup)
      (c.run catalog limits) (fun _ m => t₀.Confined D m.tables) := by
  cases c with
  | create u => cases hc
  | list u => cases hc
  | view u d =>
    cases hc
    exact (((readsOnly_view u D).triple _).mono (fun _ h => h) fun _ _ h => h.1.2).map _
  | rename u d n =>
    cases hc
    exact (aimed_rename u n).mono (fun _ h => h.1) fun _ _ h => h
  | editTexts u d ts =>
    cases hc
    exact (aimed_editTexts u ts).mono (fun _ h => h.1) fun _ _ h => h
  | setPublic u d v =>
    cases hc
    exact (aimed_setPublic u v).mono (fun _ h => h.1) fun _ _ h => h
  | delete u d =>
    cases hc
    exact absurd rfl (hdel u)
  | reconcile u d s =>
    cases hc
    exact ((aimed_reconcile limits u s).mono (fun _ h => h.1) fun _ _ h => h).map _
  | copy u d =>
    cases hc
    exact absurd rfl (hcopy u)
  | addCategory u d n =>
    cases hc
    exact ((aimed_addCategory u n).mono (fun _ h => h.1) fun _ _ h => h).map _
  | removeCategory u d n =>
    cases hc
    exact aimed_removeCategory u n
  | listCategories u d =>
    cases hc
    exact (((readsOnly_listCategories u D).triple _).mono (fun _ h => h) fun _ _ h => h.1.2).map _
  | isTrashed u d =>
    cases hc
    exact (((readsOnly_trashed u D).triple _).mono (fun _ h => h) fun _ _ h => h.1.2).map _

theorem confined (hm : Reachable catalog limits m) (c : Call) (hc : c.doc? = some D)
    (hcopy : ∀ u, c ≠ .copy u D) (hdel : ∀ u, c ≠ .delete u D) :
    m.tables.Confined D (exec (c.run catalog limits) m).2.tables := by
  rcases hx : exec (c.run catalog limits) m with ⟨r, m'⟩
  cases r with
  | ok a =>
    exact c.aimed hc hcopy hdel m a m' ⟨⟨hm.consistent, Confined.refl _ _⟩, hm.categoryIds.nodup⟩ hx
  | error e =>
    dsimp only
    rw [Call.atomic catalog limits c m e m' hm.outside hx]
    exact Confined.refl _ _

theorem succeeds_named (hm : Reachable catalog limits m) (c : Call) (hc : c.doc? = some D) {a : Unit}
    {m' : Memory} (hx : exec (c.run catalog limits) m = (.ok a, m')) :
    (∃ u D', c = .copy u D ∧ exec (Documents.copy repository u D) m = (.ok D', m')) ∨
    (∃ u r, c = .delete u D ∧ exec (Documents.delete repository u D) m = (.ok r, m')) ∨
    m.tables.Confined D m'.tables := by
  by_cases hcopy : ∃ u, c = .copy u D
  · obtain ⟨u, rfl⟩ := hcopy
    obtain ⟨D', h⟩ := exec_map_eq_ok hx
    exact .inl ⟨u, D', rfl, h⟩
  by_cases hdel : ∃ u, c = .delete u D
  · obtain ⟨u, rfl⟩ := hdel
    obtain ⟨r, h⟩ := exec_map_eq_ok hx
    exact .inr (.inl ⟨u, r, rfl, h⟩)
  push Not at hcopy hdel
  have h := c.confined hm hc hcopy hdel
  rw [hx] at h
  exact .inr (.inr h)

theorem spares_others (hm : Reachable catalog limits m) (c : Call) (hc : c.doc? = some D)
    {r : Except Failure Unit} {m' : Memory} (hx : exec (c.run catalog limits) m = (r, m')) :
    (∀ x, x ≠ D → m'.tables.holdings x = m.tables.holdings x ∨
      ∃ u, c = .copy u D ∧ x = Uuid.minted (m.minted + 1) ∧ m.tables.holdings x = ([], [], []) ∧
        (m'.tables.holdings x).1 = [copyDocument m u]) ∧
    m'.tables.categories.filter (·.documentId != D) = m.tables.categories.filter (·.documentId != D) := by
  cases r with
  | error e =>
    rw [Call.atomic catalog limits c m e m' hm.outside hx]
    exact ⟨fun _ _ => .inl rfl, rfl⟩
  | ok a =>
    rcases c.succeeds_named hm hc hx with ⟨u, _, rfl, h⟩ | ⟨u, _, rfl, h⟩ | h
    · obtain ⟨hold, hnew, hcat⟩ := copy_confined hm h
      refine ⟨fun x _ => ?_, by rw [hcat]⟩
      by_cases hxn : x = Uuid.minted (m.minted + 1)
      · subst hxn
        exact .inr ⟨u, rfl, rfl, holdings_next hm.consistent, hnew⟩
      · exact .inl (hold x hxn)
    · obtain ⟨hold, hcat⟩ := delete_confined hm h
      exact ⟨fun x hxD => .inl (hold x hxD), hcat⟩
    · exact ⟨fun x hxD => .inl (h.holdings x hxD), h.categories⟩

theorem spares (hm : Reachable catalog limits m) (c : Call) {r : Except Failure Unit} {m' : Memory}
    (hx : exec (c.run catalog limits) m = (r, m')) {x : String} (hxc : c.doc? ≠ some x)
    (hxn : x ≠ Uuid.minted (m.minted + 1)) : m'.tables.holdings x = m.tables.holdings x := by
  cases hc : c.doc? with
  | some D =>
    have hxD : x ≠ D := fun h => hxc (by rw [hc, h])
    rcases (c.spares_others hm hc hx).1 x hxD with h | ⟨-, -, h, -⟩
    · exact h
    · exact absurd h hxn
  | none =>
    cases r with
    | error e => rw [Call.atomic catalog limits c m e m' hm.outside hx]
    | ok a =>
      -- the calls that name no document: a new document, and the list
      cases c with
      | create u =>
        obtain ⟨_, h⟩ := exec_map_eq_ok hx
        exact create_confined hm h x hxn
      | list u =>
        obtain ⟨_, h⟩ := exec_map_eq_ok hx
        have hread := readsOnly_list u m
        rw [h] at hread
        obtain rfl : m' = m := hread
        rfl
      | _ => cases hc

theorem keeps_row (hm : Reachable catalog limits m) (c : Call) {d : Document} (hd : d ∈ m.tables.documents)
    (hgone : ∀ e ∈ (exec (c.run catalog limits) m).2.tables.documents, e.id ≠ d.id) :
    c = .delete d.userId d.id ∧ (category? m.tables d.userId d.id Category.trash).isSome := by
  rcases hx : exec (c.run catalog limits) m with ⟨r, m'⟩
  rw [hx] at hgone
  -- the row stays wherever what its document holds stays
  have hmoved : m'.tables.holdings d.id ≠ m.tables.holdings d.id := fun h =>
    hgone d (mem_documents_of_holdings h.symm hd rfl) rfl
  have hnext : d.id ≠ Uuid.minted (m.minted + 1) := hm.consistent.fresh.document_ne_next hd
  by_cases hc : c.doc? = some d.id
  swap
  · exact absurd (c.spares hm hx hc hnext) hmoved
  cases r with
  | error e => exact absurd (by rw [Call.atomic catalog limits c m e m' hm.outside hx]) hmoved
  | ok a =>
    rcases c.succeeds_named hm hc hx with ⟨u, _, rfl, h⟩ | ⟨u, _, rfl, h⟩ | h
    · exact absurd ((copy_confined hm h).1 _ hnext) hmoved
    · obtain ⟨d', hd', -, ⟨-, rfl⟩ | ⟨htrash, hown, -⟩⟩ := delete_ok hm.consistent h
      · exact absurd rfl hmoved
      · -- the row found under the id is `d`, and its owner asked
        obtain ⟨hd'm, hid⟩ := document?_eq_some hd'
        obtain rfl : d' = d := hm.consistent.fresh.document_eq hd'm hd hid
        subst hown
        exact ⟨rfl, htrash⟩
    · obtain ⟨e, he, heid⟩ := h.stays ⟨d, hd, rfl⟩
      exact absurd heid (hgone e he)

/-- The store after a run of calls; only their outcomes are kept. -/
def runAll (catalog : Catalog) (limits : Limits) (cs : List Call) (m : Memory) : Memory :=
  cs.foldl (fun m c => (exec (c.run catalog limits) m).2) m

theorem run_keeps_row (cs : List Call) (hm : Reachable catalog limits m) {d : Document}
    (hd : d ∈ m.tables.documents) (hgone : ∀ e ∈ (runAll catalog limits cs m).tables.documents, e.id ≠ d.id) :
    ∃ pre c post, cs = pre ++ c :: post ∧ ∃ e ∈ (runAll catalog limits pre m).tables.documents,
      e.id = d.id ∧ c = .delete e.userId d.id ∧
      (category? (runAll catalog limits pre m).tables e.userId d.id Category.trash).isSome := by
  induction cs generalizing m d with
  | nil => exact absurd rfl (hgone d hd)
  | cons c cs ih =>
    by_cases hstay : ∃ e ∈ (exec (c.run catalog limits) m).2.tables.documents, e.id = d.id
    · -- the row is still there after the first call: the rest of the run takes it
      obtain ⟨e, he, hid⟩ := hstay
      obtain ⟨pre, c', post, rfl, f, hf, hfid, hc', htrash⟩ :=
        ih (.step c hm) he fun f hf => by rw [hid]; exact hgone f hf
      refine ⟨c :: pre, c', post, rfl, f, hf, hfid.trans hid, by rw [hc', hid], ?_⟩
      rw [← hid]
      exact htrash
    · push Not at hstay
      obtain ⟨rfl, htrash⟩ := c.keeps_row hm hd hstay
      exact ⟨[], _, cs, rfl, d, hd, rfl, rfl, htrash⟩

end Call

/-- A call from a reachable store that names a document leaves every other document as it was:
its row, its items, the styles on them and the categories on it, whether the call succeeds or
fails. A copy adds the new document besides, under the next id, which held nothing. Editing texts
sets exactly the texts given for the items of the document named, skipping other ids, and marks
that document modified at the clock's next reading; it is refused, changing nothing, unless the
texts pass their check and the user owns the document. -/
theorem calls_spare_other_documents (hm : Reachable catalog limits m) :
    (∀ (c : Call) (D : String), c.doc? = some D → ∀ r m', exec (c.run catalog limits) m = (r, m') →
      (∀ x, x ≠ D → m'.tables.holdings x = m.tables.holdings x ∨
        ∃ u, c = .copy u D ∧ x = Uuid.minted (m.minted + 1) ∧ m.tables.holdings x = ([], [], []) ∧
          (m'.tables.holdings x).1 = [copyDocument m u]) ∧
      m'.tables.categories.filter (·.documentId != D) = m.tables.categories.filter (·.documentId != D)) ∧
    ∀ (u D : String) (texts : List (String × String)),
      ((Documents.checkTexts texts = .ok () ∧ u ≠ "" ∧ ∃ d ∈ m.tables.documents, d.id = D ∧ d.userId = u) →
        exec (Documents.editTexts repository u D texts) m =
          (.ok (), { m with tables := (m.tables.withTexts D texts).touched D (m.clock (m.readings + 1))
                            readings := m.readings + 1 })) ∧
      (¬(Documents.checkTexts texts = .ok () ∧ u ≠ "" ∧
          ∃ d ∈ m.tables.documents, d.id = D ∧ d.userId = u) →
        ∃ e, exec (Documents.editTexts repository u D texts) m = (.error e, m)) := by
  refine ⟨fun c D hc r m' hx => c.spares_others hm hc hx, fun u D texts => ⟨?_, editTexts_refused⟩⟩
  rintro ⟨hcheck, hu, d, hd, hid, hown⟩
  exact exec_editTexts hm.consistent hm.outside hcheck hu hd hid hown

/-- The owner of the first document sets the text of its root item. -/
theorem first_root_text_edited :
    exec (Documents.editTexts repository "alice" (Uuid.minted 1) [(Uuid.minted 2, "hello")]) firstStore =
      (.ok (), { firstStore with
        tables := (firstStore.tables.withTexts (Uuid.minted 1) [(Uuid.minted 2, "hello")]).touched
          (Uuid.minted 1) (firstStore.clock (firstStore.readings + 1))
        readings := firstStore.readings + 1 }) := by
  have hm : Reachable Catalog.standard Limits.standard firstStore := .step _ (.empty 0 secondsClock)
  have hd : (⟨Uuid.minted 1, "alice", some (Uuid.minted 2), none, false, secondsClock 1, some (secondsClock 1)⟩ : Document) ∈
      firstStore.tables.documents := by
    rw [show firstStore.tables.documents = [⟨Uuid.minted 1, "alice", some (Uuid.minted 2), none, false, secondsClock 1, some (secondsClock 1)⟩]
      from rfl]
    exact List.mem_singleton_self _
  exact ((calls_spare_other_documents hm).2 "alice" (Uuid.minted 1) _).1 ⟨rfl, by decide, _, hd, rfl, rfl⟩

/-- Delete is a two-step machine for a logged-in user who may view a document. Without the
user's Trash category on it, delete puts the document away: it adds that category and changes
nothing else. With it, delete deletes the document for its owner, and nothing of the document is
left; another user is refused, and nothing changes. Over any run of calls, the document leaves
the store only through such a delete by its owner. -/
theorem delete_puts_away_then_deletes (hm : Reachable catalog limits m) {u D : String} {d : Document}
    (hu : u ≠ "") (hD : document? m.tables D = some d) (hv : d.publiclyViewable = true ∨ d.userId = u) :
    (category? m.tables u D Category.trash = none →
      exec (Documents.delete repository u D) m =
        (.ok ⟨true, false⟩,
          { m with minted := m.minted + 1
                   tables := { m.tables with
                     categories := m.tables.categories ++
                       [⟨Uuid.minted (m.minted + 1), u, D, Category.trash⟩] } })) ∧
    ((category? m.tables u D Category.trash).isSome → d.userId = u →
      exec (Documents.delete repository u D) m =
        (.ok ⟨false, true⟩, { m with tables := m.tables.withoutDocument D }) ∧
      m.tables.Purged D (m.tables.withoutDocument D)) ∧
    ((category? m.tables u D Category.trash).isSome → d.userId ≠ u →
      exec (Documents.delete repository u D) m =
        (.error (Failure.forbiddenTo ("delete document " ++ D)), m)) ∧
    ∀ cs : List Call, (∀ e ∈ (Call.runAll catalog limits cs m).tables.documents, e.id ≠ D) →
      ∃ pre c post, cs = pre ++ c :: post ∧ ∃ e ∈ (Call.runAll catalog limits pre m).tables.documents,
        e.id = D ∧ c = .delete e.userId D ∧
        (category? (Call.runAll catalog limits pre m).tables e.userId D Category.trash).isSome := by
  have hview : (d.publiclyViewable || Access.isOwner u d) = true := by
    rcases hv with hp | hown
    · simp [hp]
    · simp [Access.isOwner, hu, hown]
  refine ⟨exec_delete_putsAway hu hD hview,
    fun htrash hown => ⟨exec_delete_deletes hm.consistent hu hD hown htrash, purged_withoutDocument⟩,
    fun htrash hown => exec_delete_refused hu hD hview hown htrash, fun cs hgone => ?_⟩
  obtain ⟨hd, rfl⟩ := document?_eq_some hD
  exact Call.run_keeps_row cs hm hd hgone

/-- The owner's first delete of the first document puts it away. -/
theorem first_delete_puts_away :
    exec (Documents.delete repository "alice" (Uuid.minted 1)) firstStore =
      (.ok ⟨true, false⟩,
        { firstStore with minted := firstStore.minted + 1
                          tables := { firstStore.tables with
                            categories := firstStore.tables.categories ++
                              [⟨Uuid.minted (firstStore.minted + 1), "alice", Uuid.minted 1, Category.trash⟩] } }) :=
  (delete_puts_away_then_deletes (.step _ (.empty 0 secondsClock) : Reachable Catalog.standard Limits.standard firstStore)
    (d := ⟨Uuid.minted 1, "alice", some (Uuid.minted 2), none, false, secondsClock 1, some (secondsClock 1)⟩) (by decide) rfl (.inr rfl)).1 rfl

end Outliner
