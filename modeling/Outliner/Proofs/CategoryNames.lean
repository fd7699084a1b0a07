import Mathlib
import Outliner.Proofs.CaseLaws
import Outliner.Proofs.Ownership
/-!
# The spelling of a category name

A category name is kept in one spelling: trimmed, lowered, its first character raised, cut to 32
characters. Sanitizing that spelling again gives it back only when the cut did not stop just after a
blank: the second pass trims again, and the blanks the cut left at the end go (`sanitize_sanitize`).
-/

set_option autoImplicit false

namespace Outliner

open Text

/-! ## Trimming -/

theorem List.rdropWhile_cons_of_neg {α : Type} {p : α → Bool} {a : α} (ha : p a = false)
    (l : List α) : (a :: l).rdropWhile p = a :: l.rdropWhile p := by
  simp only [List.rdropWhile, List.reverse_cons, List.dropWhile_append]
  split
  · rename_i hnil
    rw [List.isEmpty_iff.mp hnil]
    simp [ha]
  · simp

namespace Text

theorem trimBlank_toList (s : String) :
    (trimBlank s).toList = (s.toList.dropWhile isBlank).rdropWhile isBlank := by
  rw [trimBlank, String.toList_ofList]
  rfl

theorem isBlank_head_trimBlank {s : String} {c : Char} {rest : List Char}
    (h : (trimBlank s).toList = c :: rest) : isBlank c = false := by
  rw [trimBlank_toList] at h
  obtain ⟨t, ht⟩ := List.rdropWhile_prefix (p := isBlank) (l := s.toList.dropWhile isBlank)
  rw [h] at ht
  have hne : s.toList.dropWhile isBlank ≠ [] := by
    rw [← ht]
    exact List.cons_ne_nil _ _
  have hhead := List.head_dropWhile_not isBlank hne
  simpa [← ht] using hhead

theorem trimBlank_cons {c : Char} (hc : isBlank c = false) (l : List Char) :
    (trimBlank (String.ofList (c :: l))).toList = c :: l.rdropWhile isBlank := by
  rw [trimBlank_toList, String.toList_ofList, List.dropWhile_cons_of_neg (by simp [hc]),
    List.rdropWhile_cons_of_neg hc]

end Text

/-! ## Sanitizing twice -/

namespace Category

theorem sanitize_cases (name : String) :
    sanitize name = "" ∨ ∃ (c : Char) (rest : List Char), isBlank c = false ∧
      sanitize name = String.ofList (upperChar (lowerChar c) :: (rest.map lowerChar).take (maxNameLength - 1)) := by
  unfold sanitize
  rw [lowerText, String.toList_map]
  rcases h : (trimBlank name).toList with _ | ⟨c, rest⟩
  · exact .inl rfl
  · exact .inr ⟨c, rest, isBlank_head_trimBlank h, rfl⟩

theorem sanitize_sanitize (name : String) : sanitize (sanitize name) = trimBlank (sanitize name) := by
  rcases sanitize_cases name with h | ⟨c, rest, hc, h⟩
  · rw [h]
    decide +kernel
  · rw [h]
    have hu : isBlank (upperChar (lowerChar c)) = false := isBlank_upperChar_lowerChar hc
    have htrim := trimBlank_cons hu ((rest.map lowerChar).take (maxNameLength - 1))
    have hpre := List.rdropWhile_prefix (p := isBlank) (l := (rest.map lowerChar).take (maxNameLength - 1))
    have hlow : (((rest.map lowerChar).take (maxNameLength - 1)).rdropWhile isBlank).map lowerChar =
        ((rest.map lowerChar).take (maxNameLength - 1)).rdropWhile isBlank := by
      refine (List.map_congr_left fun x hx => ?_).trans (List.map_id _)
      obtain ⟨y, -, rfl⟩ := List.mem_map.mp (List.mem_of_mem_take (hpre.subset hx))
      exact lowerChar_lowerChar y
    have hlen : (((rest.map lowerChar).take (maxNameLength - 1)).rdropWhile isBlank).length ≤
        maxNameLength - 1 :=
      hpre.length_le.trans (List.length_take_le _ _)
    apply String.toList_inj.mp
    rw [htrim]
    unfold sanitize
    rw [lowerText, String.toList_map, htrim, List.map_cons, hlow]
    simp only [upperChar_lowerChar_idem, String.toList_ofList, List.take_of_length_le hlen]

theorem sanitize_sanitize_eq_iff (name : String) :
    sanitize (sanitize name) = sanitize name ↔
      ∀ x ∈ (sanitize name).toList.getLast?, isBlank x = false := by
  rw [sanitize_sanitize]
  rcases sanitize_cases name with h | ⟨c, rest, hc, h⟩
  · have htrim : trimBlank "" = "" := by decide +kernel
    simp [h, htrim]
  · rw [h]
    have hu : isBlank (upperChar (lowerChar c)) = false := isBlank_upperChar_lowerChar hc
    generalize (rest.map lowerChar).take (maxNameLength - 1) = t
    rw [← String.toList_inj, trimBlank_cons hu, String.toList_ofList, List.cons.injEq,
      List.rdropWhile_eq_self_iff]
    rcases List.eq_nil_or_concat t with rfl | ⟨l, x, rfl⟩
    · simp [hu]
    · have hlast : (upperChar (lowerChar c) :: (l ++ [x])).getLast? = some x := by
        rw [← List.cons_append, List.getLast?_concat]
      simp [hlast]

/-- The cut at 32 characters can stop just after a blank: that spelling is not its own. -/
theorem sanitize_cut_after_blank :
    sanitize (sanitize "aaaaaaaaaaaaaaaaaaaaaaaaaaaaaaa b") ≠ sanitize "aaaaaaaaaaaaaaaaaaaaaaaaaaaaaaa b" := by
  decide +kernel

end Category

/-! ## Adding a category and naming it again -/

namespace Memory

variable {m m₁ : Memory} {user docId name : String}

theorem viewable_ok {d : Document}
    (h : exec (Categories.viewable repository user docId) m = (.ok d, m₁)) :
    m₁ = m ∧ user ≠ "" ∧ document? m.tables docId = some d ∧
      (d.publiclyViewable || Access.isOwner user d) = true := by
  unfold Categories.viewable at h
  split at h
  · cases h
  · rename_i hu
    unfold Access.canView Access.load at h
    dsimp only [repository] at h
    rw [exec_bind, exec_during, exec_getDocument] at h
    cases hD : document? m.tables docId with
    | none => simp [hD, Except.mapError] at h
    | some D =>
      simp only [hD, Except.mapError] at h
      split at h
      · rename_i hv
        rw [exec_pure] at h
        obtain ⟨h₁, rfl⟩ := Prod.mk.inj h
        cases h₁
        exact ⟨rfl, by simpa using hu, rfl, by simpa using hv⟩
      · simp at h

theorem viewable_of_documents {d : Document} {m' : Memory}
    (h : exec (Categories.viewable repository user docId) m = (.ok d, m))
    (hdocs : m'.tables.documents = m.tables.documents) :
    exec (Categories.viewable repository user docId) m' = (.ok d, m') := by
  obtain ⟨-, hu, hD, hv⟩ := viewable_ok h
  have hD' : document? m'.tables docId = some d := by
    rw [← hD]
    simp only [document?, hdocs]
  unfold Categories.viewable
  rw [if_neg (by simpa using hu)]
  unfold Access.canView
  rw [exec_bind_ok (exec_load hD'), if_pos hv]
  rfl

theorem add_ok {c : Category} (h : exec (Categories.add repository user docId name) m = (.ok c, m₁)) :
    ∃ d, exec (Categories.viewable repository user docId) m = (.ok d, m) ∧
      c = ⟨Uuid.minted (m.minted + 1), user, d.id, Category.sanitize name⟩ ∧
      Category.sanitize name ≠ "" ∧ category? m.tables user d.id (Category.sanitize name) = none ∧
      m₁ = { m with minted := m.minted + 1,
                    tables := { m.tables with categories := m.tables.categories ++ [c] } } := by
  unfold Categories.add at h
  split at h
  · simp at h
  cases hc : Categories.cleanName name with
  | error f =>
    rw [hc, exec_bind, show (Categories.lift (.error f) : MemoryM String) = Failure.raise f from rfl,
      exec_raise] at h
    cases h
  | ok clean =>
    have hclean : clean = Category.sanitize name ∧ Category.sanitize name ≠ "" := by
      unfold Categories.cleanName at hc
      dsimp only at hc
      split at hc
      · cases hc
      · rename_i hne
        exact ⟨(Except.ok.inj hc).symm, fun h0 => hne (by simp [h0])⟩
    obtain ⟨rfl, hne⟩ := hclean
    rw [hc, show (Categories.lift (.ok (Category.sanitize name)) : MemoryM String) =
      pure (Category.sanitize name) from rfl, pure_bind] at h
    obtain ⟨d, m', hview, hcreate⟩ := exec_bind_eq_ok.mp h
    obtain ⟨rfl, -⟩ := viewable_ok hview
    refine ⟨d, hview, ?_⟩
    dsimp only [repository] at hcreate
    rcases createCategory_cases user d.id (Category.sanitize name) m' with ⟨e, he⟩ | ⟨hnone, he⟩
    · rw [he] at hcreate
      cases hcreate
    · rw [he] at hcreate
      obtain ⟨h₁, rfl⟩ := Prod.mk.inj hcreate
      cases h₁
      exact ⟨rfl, hne, hnone, rfl⟩

theorem lift_cleanName {n : String} (hne : n ≠ "") (hfix : Category.sanitize n = n) :
    (Categories.lift (Categories.cleanName n) : MemoryM String) = pure n := by
  unfold Categories.lift Categories.cleanName
  dsimp only
  rw [hfix, if_neg (by simpa using hne)]

theorem category?_added {c : Category} (hnone : category? m.tables c.userId c.documentId c.name = none) :
    category? { m.tables with categories := m.tables.categories ++ [c] } c.userId c.documentId c.name =
      some c := by
  unfold category? at hnone ⊢
  rw [List.find?_append, hnone]
  simp

theorem remove_cases (user docId name : String) (m : Memory) :
    (exec (Categories.remove repository user docId name) m).2 = m ∨
    ∃ d c, category? m.tables user d (Category.sanitize name) = some c ∧
      (exec (Categories.remove repository user docId name) m).2 =
        { m with tables := { m.tables with categories := m.tables.categories.filter (·.id != c.id) } } := by
  unfold Categories.remove
  cases hc : Categories.cleanName name with
  | error f => exact .inl rfl
  | ok clean =>
    have hclean : clean = Category.sanitize name := by
      unfold Categories.cleanName at hc
      dsimp only at hc
      split at hc
      · cases hc
      · exact (Except.ok.inj hc).symm
    subst hclean
    rw [show (Categories.lift (.ok (Category.sanitize name)) : MemoryM String) =
      pure (Category.sanitize name) from rfl, pure_bind, exec_bind]
    rcases hv : exec (Categories.viewable repository user docId) m with ⟨r, m'⟩
    have hm' : m' = m := by
      have := readsOnly_viewable user docId m
      rwa [hv] at this
    subst hm'
    cases r with
    | error e => exact .inl rfl
    | ok d =>
      dsimp only [repository]
      rcases deleteCategory_cases user d.id (Category.sanitize name) m' with ⟨e, he⟩ | ⟨c, hc', he⟩
      · rw [he]
        exact .inl rfl
      · rw [he]
        exact .inr ⟨d.id, c, hc', rfl⟩

theorem category?_eq_some {t : Tables} {doc : String} {c : Category}
    (h : category? t user doc name = some c) :
    c ∈ t.categories ∧ c.userId = user ∧ c.documentId = doc ∧ c.name = name := by
  have hp := List.find?_some h
  simp only [Bool.and_eq_true, beq_iff_eq] at hp
  exact ⟨List.mem_of_find?_eq_some h, hp.1.1, hp.1.2, hp.2⟩

theorem filter_id_ne_added {cats : List Category} {c : Category} (hfresh : ∀ x ∈ cats, x.id ≠ c.id) :
    (cats ++ [c]).filter (·.id != c.id) = (cats ++ [c]).filter (· ≠ c) := by
  refine List.filter_congr fun x hx => ?_
  rcases List.mem_append.mp hx with hx | hx
  · have hne : x ≠ c := fun h => hfresh x hx (h ▸ rfl)
    simp [hfresh x hx, hne]
  · rw [List.mem_singleton.mp hx]
    simp

variable {c : Category}

theorem added_found (hadd : exec (Categories.add repository user docId name) m = (.ok c, m₁)) :
    ∃ d, exec (Categories.viewable repository user docId) m₁ = (.ok d, m₁) ∧ c.documentId = d.id ∧
      c.userId = user ∧ c.name ≠ "" ∧ category? m₁.tables user d.id c.name = some c := by
  obtain ⟨d, hview, rfl, hne, hnone, hm₁⟩ := add_ok hadd
  refine ⟨d, viewable_of_documents hview (by rw [hm₁]), rfl, rfl, hne, ?_⟩
  rw [hm₁]
  exact category?_added hnone

theorem add_again (hadd : exec (Categories.add repository user docId name) m = (.ok c, m₁))
    (hfix : Category.sanitize c.name = c.name) :
    exec (Categories.add repository user docId c.name) m₁ =
      (.error ⟨.conflict "category exists" "category" c.id, "category exists"⟩, m₁) := by
  obtain ⟨d, hview, -, -, hne, hfound⟩ := added_found hadd
  unfold Categories.add
  rw [if_neg (by simpa using hne), lift_cleanName hne hfix, pure_bind, exec_bind_ok hview]
  dsimp only [repository]
  simp only [createCategory, exec_bind_ok (exec_tablesNow _), hfound]
  rfl

theorem remove_added (hids : CategoryIds m.minted m.tables)
    (hadd : exec (Categories.add repository user docId name) m = (.ok c, m₁))
    (hfix : Category.sanitize c.name = c.name) :
    exec (Categories.remove repository user docId c.name) m₁ =
      (.ok (), { m₁ with tables := { m₁.tables with
        categories := m₁.tables.categories.filter (· ≠ c) } }) := by
  obtain ⟨d, hview, -, -, hne, hfound⟩ := added_found hadd
  obtain ⟨cats, hcats, hfresh⟩ : ∃ cats, m₁.tables.categories = cats ++ [c] ∧ ∀ x ∈ cats, x.id ≠ c.id := by
    obtain ⟨d, -, rfl, -, -, rfl⟩ := add_ok hadd
    refine ⟨m.tables.categories, rfl, fun x hx hid => not_mintedBy_next m.minted ?_⟩
    have hx' := hids.minted x hx
    rwa [hid] at hx'
  unfold Categories.remove
  rw [lift_cleanName hne hfix, pure_bind, exec_bind_ok hview]
  dsimp only [repository]
  simp only [deleteCategory, exec_bind_ok (exec_tablesNow _), hfound]
  rw [exec_modifyTables, hcats, filter_id_ne_added hfresh]

theorem remove_keeps_added (hids : CategoryIds m.minted m.tables)
    (hadd : exec (Categories.add repository user docId name) m = (.ok c, m₁))
    (hblank : Category.sanitize c.name ≠ c.name) :
    c ∈ (exec (Categories.remove repository user docId c.name) m₁).2.tables.categories := by
  obtain ⟨hids₁, hc⟩ : CategoryIds m₁.minted m₁.tables ∧ c ∈ m₁.tables.categories := by
    obtain ⟨d, -, rfl, -, -, rfl⟩ := add_ok hadd
    exact ⟨hids.add rfl rfl, by simp⟩
  rcases remove_cases user docId c.name m₁ with h | ⟨d', c', hfound, h⟩
  · rw [h]
    exact hc
  · -- the category that goes has the spelling of the name, which is not the stored name
    obtain ⟨hc', -, -, hname⟩ := category?_eq_some hfound
    have hne : c'.id ≠ c.id := fun hid => hblank (by rw [← hname, hids₁.eq_of_id hc' hc hid])
    rw [h]
    exact List.mem_filter.mpr ⟨hc, by simpa using hne.symm⟩

end Memory

end Outliner

namespace Outliner

open Memory Text

/-- The category an addition answers is stored under the spelling of the name, and sanitizing
that spelling again only trims it. When the stored name does not end with a blank it names the
category again: removing by it takes exactly that category away, and adding it again is a
conflict naming the category. When it does end with a blank, removing by it keeps the
category. -/
theorem stored_category_name_round_trip {catalog : Catalog} {limits : Limits} {m m₁ : Memory}
    (hm : Reachable catalog limits m) {user docId name : String} {c : Category}
    (hadd : exec (Categories.add repository user docId name) m = (.ok c, m₁)) :
    c.name = Category.sanitize name ∧ Category.sanitize c.name = trimBlank c.name ∧
    ((∀ x ∈ c.name.toList.getLast?, isBlank x = false) →
      exec (Categories.remove repository user docId c.name) m₁ =
        (.ok (), { m₁ with tables := { m₁.tables with
          categories := m₁.tables.categories.filter (· ≠ c) } }) ∧
      exec (Categories.add repository user docId c.name) m₁ =
        (.error ⟨.conflict "category exists" "category" c.id, "category exists"⟩, m₁)) ∧
    ((∃ x ∈ c.name.toList.getLast?, isBlank x = true) →
      c ∈ (exec (Categories.remove repository user docId c.name) m₁).2.tables.categories) := by
  have hname : c.name = Category.sanitize name := by
    obtain ⟨d, -, rfl, -⟩ := add_ok hadd
    rfl
  have hids := hm.categoryIds
  refine ⟨hname, hname ▸ Category.sanitize_sanitize name, fun hlast => ?_, fun hblank => ?_⟩
  · have hfix : Category.sanitize c.name = c.name := by
      rw [hname] at hlast ⊢
      exact (Category.sanitize_sanitize_eq_iff name).mpr hlast
    exact ⟨remove_added hids hadd hfix, add_again hadd hfix⟩
  · refine remove_keeps_added hids hadd fun hfix => ?_
    rw [hname] at hfix hblank
    obtain ⟨x, hx, hxb⟩ := hblank
    have := (Category.sanitize_sanitize_eq_iff name).mp hfix x hx
    simp [hxb] at this

/-- Alice puts the category `work` on her first document: it is stored as `Work`, which names
it again. -/
theorem first_category_round_trip :
    Reachable Catalog.standard Limits.standard firstStore ∧
    exec (Categories.add repository "alice" (Uuid.minted 1) "work") firstStore =
      (.ok ⟨Uuid.minted 3, "alice", Uuid.minted 1, "Work"⟩,
        (exec (Categories.add repository "alice" (Uuid.minted 1) "work") firstStore).2) ∧
    "Work" = Category.sanitize "work" ∧ Category.sanitize "Work" = trimBlank "Work" ∧
    ((∀ x ∈ "Work".toList.getLast?, isBlank x = false) →
      exec (Categories.remove repository "alice" (Uuid.minted 1) "Work")
          (exec (Categories.add repository "alice" (Uuid.minted 1) "work") firstStore).2 =
        (.ok (), { (exec (Categories.add repository "alice" (Uuid.minted 1) "work") firstStore).2 with
          tables := { (exec (Categories.add repository "alice" (Uuid.minted 1) "work") firstStore).2.tables with
            categories := (exec (Categories.add repository "alice" (Uuid.minted 1) "work")
              firstStore).2.tables.categories.filter (· ≠ ⟨Uuid.minted 3, "alice", Uuid.minted 1, "Work"⟩) } }) ∧
      exec (Categories.add repository "alice" (Uuid.minted 1) "Work")
          (exec (Categories.add repository "alice" (Uuid.minted 1) "work") firstStore).2 =
        (.error ⟨.conflict "category exists" "category" (Uuid.minted 3), "category exists"⟩,
          (exec (Categories.add repository "alice" (Uuid.minted 1) "work") firstStore).2)) ∧
    ((∃ x ∈ "Work".toList.getLast?, isBlank x = true) →
      (⟨Uuid.minted 3, "alice", Uuid.minted 1, "Work"⟩ : Category) ∈
        (exec (Categories.remove repository "alice" (Uuid.minted 1) "Work")
          (exec (Categories.add repository "alice" (Uuid.minted 1) "work") firstStore).2).2.tables.categories) := by
  have hm : Reachable Catalog.standard Limits.standard firstStore := .step _ (.empty 0 secondsClock)
  have hrun : (exec (Categories.add repository "alice" (Uuid.minted 1) "work") firstStore).1 =
      .ok ⟨Uuid.minted 3, "alice", Uuid.minted 1, "Work"⟩ := by
    decide +kernel
  exact ⟨hm, Prod.ext hrun rfl, stored_category_name_round_trip hm (Prod.ext hrun rfl)⟩

end Outliner
