import Outliner.Reconcile.Write

/-!
# What a plan promises

A plan is only made from nodes that passed their checks: every planned node, and the root
when the snapshot gives its text or styles, has a text of at most `maxItemTextLength`
characters and styles that the catalog accepts (`make_writable`). Writing a plan therefore
never stores a text or a style that the store's invariant refuses.
-/

set_option autoImplicit false

namespace Outliner.Plan

variable {catalog : Catalog}

/-- A text and styles that may be stored: the text within the bound, every style accepted by
the catalog. -/
def Writable (catalog : Catalog) (text : String) (styles : List StyleEdit) : Prop :=
  text.length ≤ maxItemTextLength ∧ ∀ e ∈ styles, catalog.validate e = .ok ()

theorem except_bind_eq_ok {ε α β : Type} {x : Except ε α} {f : α → Except ε β} {b : β} :
    x.bind f = .ok b ↔ ∃ a, x = .ok a ∧ f a = .ok b := by
  cases x <;> simp [Except.bind]

theorem nodeFaults_eq_nil {n : SnapshotNode} (h : nodeFaults catalog n = []) :
    (∀ t, n.itemText = some t → t.length ≤ maxItemTextLength) ∧
      ∀ e ∈ n.styles, catalog.validate e = .ok () := by
  unfold nodeFaults at h
  obtain ⟨htext, hstyles⟩ := List.append_eq_nil_iff.mp h
  constructor
  · intro t ht
    rw [ht] at htext
    by_cases hlong : t.length > maxItemTextLength
    · simp [hlong] at htext
    · exact Nat.le_of_not_lt hlong
  · intro e he
    split at hstyles
    · rename_i hempty
      obtain ⟨x, hx, rfl⟩ := List.mem_map.mp ((List.zipIdx_map_fst 0 n.styles).symm ▸ he)
      have := List.filterMap_eq_nil_iff.mp (List.isEmpty_iff.mp hempty) x hx
      cases hv : catalog.validate x.1 with
      | error f => simp [hv] at this
      | ok u => rfl
    · cases hstyles

theorem checkNode_writable {clientId : String} {n : SnapshotNode}
    (h : checkNode catalog clientId n = .ok ()) : Writable catalog (n.itemText.getD "") n.styles := by
  unfold checkNode at h
  cases hf : (nodeFaults catalog n).isEmpty with
  | false => simp [hf] at h
  | true =>
    have hnil := nodeFaults_eq_nil (List.isEmpty_iff.mp hf)
    refine ⟨?_, hnil.2⟩
    cases ht : n.itemText with
    | none => exact Nat.zero_le _
    | some t => exact hnil.1 t ht

theorem duplicateProperty_eq_none : ∀ (es : List StyleEdit) (seen : List String),
    duplicateProperty es seen = none → (es.map (·.property)).Nodup ∧ ∀ e ∈ es, e.property ∉ seen
  | [], _, _ => ⟨List.nodup_nil, fun _ h => absurd h List.not_mem_nil⟩
  | e :: es, seen, h => by
    unfold duplicateProperty at h
    by_cases hseen : seen.contains e.property = true
    · rw [if_pos hseen] at h
      cases h
    rw [if_neg hseen] at h
    obtain ⟨hnodup, hnew⟩ := duplicateProperty_eq_none es (e.property :: seen) h
    refine ⟨List.nodup_cons.mpr ⟨fun hmem => ?_, hnodup⟩, fun e' he' => ?_⟩
    · -- a later edit of the same property would have been caught as seen
      obtain ⟨e', he', heq⟩ := List.mem_map.mp hmem
      exact hnew e' he' (heq ▸ List.mem_cons_self)
    · rcases List.mem_cons.mp he' with rfl | he'
      · simpa using hseen
      · exact fun hs => hnew e' he' (List.mem_cons_of_mem _ hs)

theorem checkNode_nodup {clientId : String} {n : SnapshotNode}
    (h : checkNode catalog clientId n = .ok ()) : (n.styles.map (·.property)).Nodup := by
  unfold checkNode at h
  cases hf : (nodeFaults catalog n).isEmpty with
  | false => simp [hf] at h
  | true =>
    cases hd : duplicateProperty n.styles [] with
    | none => exact (duplicateProperty_eq_none _ _ hd).1
    | some q => simp [hf, hd] at h

theorem walk_nodes (limits : Limits) (s : Snapshot) (Q : PlannedNode → Prop)
    (hQ : ∀ (f : Frame) (n : SnapshotNode), s.node? f.clientId = some n →
      checkNode catalog f.clientId n = .ok () →
      Q ⟨f.clientId, f.parent, n.childOrder, n.itemText.getD "", n.styles⟩) :
    ∀ (fuel : Nat) (stack : List Frame) (w w' : Walk), walk catalog limits s fuel stack w = .ok w' →
      (∀ p ∈ w.nodes, Q p) → ∀ p ∈ w'.nodes, Q p
  | 0, _, w, w', h, hw => by
    cases h
    exact hw
  | _ + 1, [], w, w', h, hw => by
    cases h
    exact hw
  | fuel + 1, f :: stack, w, w', h, hw => by
    unfold walk at h
    dsimp only at h
    split at h
    · exact walk_nodes limits s Q hQ fuel stack w w' h hw
    · split at h
      · exact walk_nodes limits s Q hQ fuel stack _ w' h hw
      · rename_i n hn
        split at h
        · exact walk_nodes limits s Q hQ fuel stack _ w' h hw
        split at h
        · cases h
        split at h
        · cases h
        split at h
        · cases h
        · rename_i hcheck
          refine walk_nodes limits s Q hQ fuel _ _ w' h ?_
          intro p hp
          rcases List.mem_append.mp hp with hp | hp
          · exact hw p hp
          · rw [List.mem_singleton.mp hp]
            exact hQ f n hn hcheck

theorem walk_writable (limits : Limits) (s : Snapshot) :
    ∀ (fuel : Nat) (stack : List Frame) (w w' : Walk), walk catalog limits s fuel stack w = .ok w' →
      (∀ p ∈ w.nodes, Writable catalog p.text p.styles) → ∀ p ∈ w'.nodes, Writable catalog p.text p.styles :=
  walk_nodes limits s _ fun _ _ _ hcheck => checkNode_writable hcheck

theorem make_writable {limits : Limits} {d : Document} {s : Snapshot} {p : Plan}
    (h : Plan.make catalog limits d s = .ok p) :
    p.rootItemId = d.rootId ∧ (∀ t, p.rootText = some t → t.length ≤ maxItemTextLength) ∧
      (∀ e ∈ p.rootStyles, catalog.validate e = .ok ()) ∧
      ∀ n ∈ p.nodes, Writable catalog n.text n.styles := by
  simp only [Plan.make] at h
  obtain ⟨_, -, h⟩ := except_bind_eq_ok.mp h
  obtain ⟨root, -, h⟩ := except_bind_eq_ok.mp h
  obtain ⟨_, hcheck, h⟩ := except_bind_eq_ok.mp h
  obtain ⟨w, hw, h⟩ := except_bind_eq_ok.mp h
  cases h
  have hroot := checkNode_writable hcheck
  refine ⟨rfl, fun t ht => ?_, hroot.2, walk_writable limits s _ _ _ w hw (by simp)⟩
  have ht : root.itemText = some t := ht
  simpa [ht] using hroot.1

theorem make_rootItemId {limits : Limits} {d : Document} {s : Snapshot} {p : Plan}
    (h : Plan.make catalog limits d s = .ok p) {r : String} (hr : d.rootItemId = some r) :
    p.rootItemId = r := by
  rw [(make_writable h).1, Document.rootId, hr]
  rfl

theorem tocItemId_mem {p : Plan} {persisted : List String} {x : String}
    (h : p.tocItemId persisted = some x) : x = p.rootItemId ∨ x ∈ persisted := by
  unfold tocItemId at h
  split at h
  · cases h
  · split at h
    · exact .inl (Option.some.inj h).symm
    · obtain ⟨e, he, rfl⟩ := Option.map_eq_some_iff.mp h
      exact .inr (List.of_mem_zip (List.mem_of_find?_eq_some he)).2

end Outliner.Plan
