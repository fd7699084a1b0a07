import Mathlib
import Outliner.Proofs.Confinement
import Outliner.Proofs.Deletion

/-!
# Editing texts in place

An edit of texts names items by id, each with a text. Run by the owner of a document on a
consistent store, it sets the text of each item of the document whose id the edit names to
the text named with it (the first one, if an id is named twice), marks the document modified at
the clock's next reading, and changes nothing else: ids of another document's items and ids of
no item are passed over (`exec_editTexts`). Texts that fail the checks, a caller who is not
logged in, and a document that is missing or not the caller's are refused before anything is
written or the clock read (`editTexts_refused`).

The loop over the document's items sets one item's text per step (`Tables.retextIds`); since
setting a text twice from the same edit gives the same text, the loop's result is the
document's items retexted at once (`Tables.withTexts`).
-/

set_option autoImplicit false

namespace Outliner

variable {texts : List (String × String)}

/-- The item with the text that `texts` names with its id, if it names one. -/
def Item.retext (texts : List (String × String)) (i : Item) : Item :=
  { i with itemText := (texts.lookup i.id).getD i.itemText }

namespace Item

variable {i : Item}

@[simp] theorem retext_id : (i.retext texts).id = i.id := rfl

@[simp] theorem retext_documentId : (i.retext texts).documentId = i.documentId := rfl

@[simp] theorem retext_retext : (i.retext texts).retext texts = i.retext texts := by
  unfold retext
  cases texts.lookup i.id <;> rfl

theorem retext_of_lookup_none (h : texts.lookup i.id = none) : i.retext texts = i := by
  unfold retext
  rw [h]
  rfl

end Item

theorem lookup_eq_find? (y : String) :
    texts.lookup y = (texts.find? (·.1 == y)).map (·.2) := by
  induction texts with
  | nil => rfl
  | cons e es ih =>
    obtain ⟨k, b⟩ := e
    rw [List.lookup_cons, List.find?_cons, Bool.beq_comm]
    cases k == y
    · exact ih
    · rfl

namespace Tables

variable {t : Tables} {D : String}

/-- The tables with the items of `D` retexted from `texts`. -/
def withTexts (t : Tables) (D : String) (texts : List (String × String)) : Tables :=
  { t with items := t.items.map fun e => if e.1.documentId = D then (e.1.retext texts, e.2) else e }

/-- The tables with the document `D` marked modified at `time`. -/
def touched (t : Tables) (D : String) (time : Time.Instant) : Tables :=
  { t with documents := t.documents.map fun e => if e.id = D then { e with modifiedAt := some time } else e }

/-- The tables with the items whose ids are among `ys` retexted from `texts`. -/
def retextIds (t : Tables) (ys : List String) (texts : List (String × String)) : Tables :=
  { t with items := t.items.map fun e => if e.1.id ∈ ys then (e.1.retext texts, e.2) else e }

@[simp] theorem retextIds_nil : t.retextIds [] texts = t := by
  unfold retextIds
  simp

theorem retextIds_cons (y : String) (ys : List String) :
    (t.retextIds [y] texts).retextIds ys texts = t.retextIds (y :: ys) texts := by
  unfold retextIds
  simp only [List.map_map, List.mem_cons]
  congr 1
  refine List.map_congr_left fun e _ => ?_
  by_cases hy : e.1.id = y <;> by_cases hys : e.1.id ∈ ys <;> simp [hy, hys]

theorem retextIds_of_lookup_some {y s : String} (h : texts.lookup y = some s) :
    t.retextIds [y] texts = { t with items := t.items.map fun e =>
      if e.1.id == y then ({ e.1 with itemText := s }, e.2) else e } := by
  unfold retextIds
  congr 1
  refine List.map_congr_left fun e _ => ?_
  by_cases he : e.1.id = y
  · simp [he, Item.retext, h]
  · simp [he]

theorem retextIds_of_lookup_none {y : String} (h : texts.lookup y = none) : t.retextIds [y] texts = t := by
  have hitems : t.items.map (fun e => if e.1.id ∈ [y] then (e.1.retext texts, e.2) else e) = t.items := by
    conv_rhs => rw [← List.map_id t.items]
    refine List.map_congr_left fun e _ => ?_
    by_cases he : e.1.id = y
    · simp [he, Item.retext_of_lookup_none (he ▸ h)]
    · simp [he]
  unfold retextIds
  rw [hitems]

@[simp] theorem rows_retextIds (ys : List String) :
    (t.retextIds ys texts).rows = t.rows.map fun i => if i.id ∈ ys then i.retext texts else i := by
  unfold retextIds rows
  simp only [List.map_map]
  refine List.map_congr_left fun e _ => ?_
  by_cases h : e.1.id ∈ ys <;> simp [h]

theorem mem_rows_retextIds {ys : List String} {j : Item} (hj : j ∈ (t.retextIds ys texts).rows) :
    ∃ i ∈ t.rows, i.id = j.id ∧ i.documentId = j.documentId := by
  rw [rows_retextIds] at hj
  obtain ⟨i, hi, rfl⟩ := List.mem_map.mp hj
  exact ⟨i, hi, by split <;> rfl, by split <;> rfl⟩

theorem exists_row_retextIds {ys : List String} {y : String} (h : ∃ i ∈ t.rows, i.id = y) :
    ∃ i ∈ (t.retextIds ys texts).rows, i.id = y := by
  obtain ⟨i, hi, rfl⟩ := h
  rw [rows_retextIds]
  exact ⟨_, List.mem_map_of_mem hi, by split <;> rfl⟩

theorem onlyIn_retextIds {ys : List String} {y : String} (h : t.OnlyIn D y) :
    (t.retextIds ys texts).OnlyIn D y := by
  intro j hj hjy
  obtain ⟨i, hi, hid, hdoc⟩ := mem_rows_retextIds hj
  exact hdoc ▸ h i hi (hid.trans hjy)

theorem retextIds_documentIds (hnodup : (t.rows.map (·.id)).Nodup) {L : List Item}
    (hL : ∀ i, i ∈ L ↔ i ∈ t.rows ∧ i.documentId = D) :
    t.retextIds (L.map (·.id)) texts = t.withTexts D texts := by
  unfold retextIds withTexts
  congr 1
  refine List.map_congr_left fun e he => ?_
  have hmem : e.1.id ∈ L.map (·.id) ↔ e.1.documentId = D := by
    constructor
    · intro hid
      obtain ⟨i, hi, hie⟩ := List.mem_map.mp hid
      obtain ⟨hi, hiD⟩ := (hL i).mp hi
      rw [← List.inj_on_of_nodup_map hnodup hi (List.mem_map_of_mem he) hie, hiD]
    · intro hD
      exact List.mem_map_of_mem ((hL e.1).mpr ⟨List.mem_map_of_mem he, hD⟩)
  by_cases hD : e.1.documentId = D
  · simp [hD, hmem.mpr hD]
  · simp [hD, mt hmem.mp hD]

end Tables

namespace Memory

variable {m : Memory} {D : String}

theorem exec_updateText {id text : String} {j : Item} (hj : item? m.tables id = some j)
    (hdoc : j.documentId = D) :
    exec (updateText D id text) m = (.ok (), { m with tables := { m.tables with
      items := m.tables.items.map fun e =>
        if e.1.id == id then ({ e.1 with itemText := text }, e.2) else e } }) := by
  simp only [updateText, exec_bind_ok (exec_tablesNow m), hj]
  simp [hdoc]

theorem exists_item?_of_mem {t : Tables} {y : String} (h : ∃ i ∈ t.rows, i.id = y) :
    ∃ j, item? t y = some j ∧ j ∈ t.rows ∧ j.id = y := by
  unfold item?
  cases hf : t.items.find? (·.1.id == y) with
  | none =>
    obtain ⟨i, hi, rfl⟩ := h
    obtain ⟨e, he, rfl⟩ := List.mem_map.mp hi
    exact absurd (List.find?_eq_none.mp hf e he) (by simp)
  | some e =>
    exact ⟨e.1, rfl, List.mem_map_of_mem (List.mem_of_find?_eq_some hf), by simpa using List.find?_some hf⟩

theorem exec_touchDocument (hnodup : (m.tables.documents.map (·.id)).Nodup) {d : Document}
    (hD : document? m.tables D = some d) (time : Time.Instant) :
    exec (touchDocument D time) m = (.ok (), { m with tables := m.tables.touched D time }) := by
  obtain ⟨hdm, hdid⟩ := document?_eq_some hD
  have hrow : m.tables.documents.map (fun e => if e.id == D then { d with modifiedAt := some time } else e) =
      m.tables.documents.map fun e => if e.id = D then { e with modifiedAt := some time } else e := by
    refine List.map_congr_left fun e he => ?_
    by_cases heD : e.id = D
    · rw [if_pos (by simpa using heD), if_pos heD, List.inj_on_of_nodup_map hnodup hdm he (hdid.trans heD.symm)]
    · rw [if_neg (by simpa using heD), if_neg heD]
  unfold touchDocument updateDocument
  rw [exec_bind_ok (exec_tablesNow m)]
  simp only [hD]
  rw [exec_bind, exec_liftExcept]
  simp only [exec_modifyTables, hrow]
  rfl

theorem exec_canEdit {u x : String} {d : Document} (hu : u ≠ "") (hD : document? m.tables x = some d)
    (hown : d.userId = u) : exec (Access.canEdit repository u x) m = (.ok d, m) := by
  unfold Access.canEdit
  rw [if_neg (by simpa using hu), exec_bind_ok (exec_load hD), if_pos (by simp [Access.isOwner, hu, hown])]
  rfl

theorem canEdit_refused {u x : String}
    (h : ¬ (u ≠ "" ∧ ∃ d ∈ m.tables.documents, d.id = x ∧ d.userId = u)) :
    ∃ e, exec (Access.canEdit repository u x) m = (.error e, m) := by
  unfold Access.canEdit
  by_cases hu : u = ""
  · rw [if_pos (by simp [hu]), exec_raise]
    exact ⟨_, rfl⟩
  rw [if_neg (by simpa using hu)]
  unfold Access.load
  dsimp only [repository]
  cases hD : document? m.tables x with
  | none =>
    rw [exec_bind, exec_during, exec_getDocument, hD]
    exact ⟨_, rfl⟩
  | some d =>
    rw [exec_bind, exec_during, exec_getDocument, hD]
    obtain ⟨hdm, hdid⟩ := document?_eq_some hD
    have hown : Access.isOwner u d = false :=
      isOwner_eq_false fun hdu => h ⟨hu, d, hdm, hdid, hdu.symm⟩
    simp only [Except.mapError, hown]
    exact ⟨_, rfl⟩

theorem exec_forIn_retext (texts : List (String × String)) {f : Item → PUnit → MemoryM (ForInStep PUnit)}
    (hf : ∀ (i : Item) (m : Memory), (∃ j ∈ m.tables.rows, j.id = i.id) → m.tables.OnlyIn D i.id →
      exec (f i ⟨⟩) m = (.ok (.yield ⟨⟩), { m with tables := m.tables.retextIds [i.id] texts })) :
    ∀ (L : List Item) (m : Memory), (∀ i ∈ L, (∃ j ∈ m.tables.rows, j.id = i.id) ∧ m.tables.OnlyIn D i.id) →
      exec (ForIn.forIn L PUnit.unit f) m =
        (.ok ⟨⟩, { m with tables := m.tables.retextIds (L.map (·.id)) texts }) := by
  intro L
  induction L with
  | nil =>
    intro m _
    simp only [List.forIn_nil, List.map_nil, Tables.retextIds_nil]
    rfl
  | cons i L ih =>
    intro m hL
    obtain ⟨hex, hin⟩ := hL i List.mem_cons_self
    rw [List.forIn_cons, exec_bind_ok (hf i m hex hin)]
    rw [ih _ fun j hj => ⟨Tables.exists_row_retextIds (hL j (List.mem_cons_of_mem _ hj)).1,
      Tables.onlyIn_retextIds (hL j (List.mem_cons_of_mem _ hj)).2⟩]
    simp only [Tables.retextIds_cons, List.map_cons]

theorem exec_editTexts {catalog : Catalog} (hc : Consistent catalog m) (hout : m.inTransaction = false)
    {u : String} (hcheck : Documents.checkTexts texts = .ok ()) (hu : u ≠ "") {d : Document}
    (hd : d ∈ m.tables.documents) (hid : d.id = D) (hown : d.userId = u) :
    exec (Documents.editTexts repository u D texts) m =
      (.ok (), { m with tables := (m.tables.withTexts D texts).touched D (m.clock (m.readings + 1))
                        readings := m.readings + 1 }) := by
  have hD : document? m.tables D = some d := hid ▸ document?_of_mem hc.fresh hd
  have hcheck' : exec (Documents.check (Documents.checkTexts texts) : MemoryM Unit) m = (.ok (), m) := by
    rw [hcheck]
    rfl
  -- the document's items, as the listing gives them
  have hL : ∀ i, i ∈ sortedItems m.tables (·.documentId == D) ↔ i ∈ m.tables.rows ∧ i.documentId = D :=
    fun i => by simp [mem_sortedItems]
  unfold Documents.editTexts
  rw [exec_bind_ok hcheck', exec_bind_ok (exec_canEdit hu hD hown)]
  dsimp only [repository]
  rw [exec_atomically hout, hid, exec_bind_ok (exec_listItems _ _)]
  dsimp only
  rw [exec_bind_ok (exec_forIn_retext texts (fun i m' hex hin => ?step) _ { m with inTransaction := true } fun i hi =>
    ⟨⟨i, ((hL i).mp hi).1, rfl⟩, Tables.OnlyIn.of_mem hc.fresh.items_nodup ((hL i).mp hi).1 ((hL i).mp hi).2⟩)]
  case step =>
    split
    · rename_i k t hfind
      obtain ⟨j, hj, hjrow, hjid⟩ := exists_item?_of_mem hex
      rw [exec_bind_ok (exec_updateText hj (hin j hjrow hjid)), exec_pure,
        Tables.retextIds_of_lookup_some (by rw [lookup_eq_find?, hfind]; rfl)]
    · rename_i hfind
      rw [exec_pure, Tables.retextIds_of_lookup_none (by rw [lookup_eq_find?, hfind]; rfl)]
  dsimp only
  rw [exec_bind_ok (exec_now _), exec_touchDocument (m := { m with
      tables := m.tables.retextIds ((sortedItems m.tables (·.documentId == D)).map (·.id)) texts
      inTransaction := true
      readings := m.readings + 1 }) hc.fresh.documents_nodup hD,
    Tables.retextIds_documentIds hc.fresh.items_nodup hL]
  simp only [← hout]

theorem editTexts_refused {u : String}
    (h : ¬ (Documents.checkTexts texts = .ok () ∧ u ≠ "" ∧
      ∃ d ∈ m.tables.documents, d.id = D ∧ d.userId = u)) :
    ∃ e, exec (Documents.editTexts repository u D texts) m = (.error e, m) := by
  unfold Documents.editTexts
  cases hcheck : Documents.checkTexts texts with
  | error f => exact ⟨f, exec_bind_error rfl _⟩
  | ok v =>
    obtain ⟨e, he⟩ := canEdit_refused fun h' => h ⟨by rw [hcheck], h'⟩
    have hpass : exec (Documents.check (.ok v) : MemoryM Unit) m = (.ok (), m) := rfl
    exact ⟨e, by rw [exec_bind_ok hpass, exec_bind_error he]⟩

end Memory

end Outliner
