import Outliner.Proofs.Rebuild

/-!
# What a reconciliation answers

A reconciliation answers two maps, both built with `Decoder.upsert`. The map of ids takes the
client ids left out, with no id, then each planned client id with the id created for it, and
last the root client id with the document's root item. The map of reasons is the plan's list of
client ids left out.

Along the reference walk every visited client id is the root, placed, or left out for a reason,
and a placed one has no reason (`Visit.Classified`). So the three sources of the map of ids never
disagree: each client id is answered once, with the id of the item created for it or with no
id and a reason, and the reasons are those of the walk (`reconcile_answers_every_client_id`).
-/

set_option autoImplicit false

namespace Outliner

/-! ## Association lists built by upserts -/

namespace Decoder

variable {β : Type}

theorem lookup_upsert (k c : String) (v : β) :
    ∀ L : List (String × β), (upsert k v L).lookup c = if c = k then some v else L.lookup c
  | [] => by by_cases hc : c = k <;> simp [upsert, hc]
  | (k', v') :: r => by
    by_cases hk : k' = k
    · subst hk
      by_cases hc : c = k'
      · simp [upsert, hc]
      · simp [upsert, List.lookup_cons, hc, beq_false_of_ne hc]
    · have ih := lookup_upsert k c v r
      by_cases hc : c = k'
      · -- the entry kept in front answers for its own key
        simp [upsert, hk, hc]
      · simp [upsert, List.lookup_cons, hk, beq_false_of_ne hc, ih]

theorem keys_upsert (k : String) (v : β) :
    ∀ L : List (String × β), (upsert k v L).map (·.1) =
      if k ∈ L.map (·.1) then L.map (·.1) else L.map (·.1) ++ [k]
  | [] => by simp [upsert]
  | (k', v') :: r => by
    by_cases hk : k' = k
    · simp [upsert, hk]
    · have ih := keys_upsert k v r
      have hk' : k ≠ k' := fun h => hk h.symm
      by_cases hm : k ∈ r.map (·.1) <;> simp_all [upsert]

theorem nodup_keys_upsert {k : String} {v : β} {L : List (String × β)} (h : (L.map (·.1)).Nodup) :
    ((upsert k v L).map (·.1)).Nodup := by
  rw [keys_upsert]
  split
  · exact h
  · rename_i hk
    exact h.append (List.nodup_singleton k) (by simpa using hk)

variable {α : Type} (key : α → String)

theorem lookup_foldl_upsert (val : α → β) (g : String → β) (c : String) :
    ∀ (qs : List α) (L : List (String × β)), (∀ q ∈ qs, val q = g (key q)) →
      (qs.foldl (fun acc q => upsert (key q) (val q) acc) L).lookup c =
        if c ∈ qs.map key then some (g c) else L.lookup c
  | [], L, _ => by simp
  | q :: qs, L, hval => by
    have ih := lookup_foldl_upsert val g c qs (upsert (key q) (val q) L)
      fun q' h => hval q' (List.mem_cons_of_mem q h)
    rw [List.foldl_cons, ih, lookup_upsert, hval q List.mem_cons_self]
    by_cases hq : c ∈ qs.map key
    · simp [hq]
    · by_cases hc : c = key q <;> simp [hq, hc]

theorem nodup_keys_foldl_upsert (val : α → β) :
    ∀ (qs : List α) (L : List (String × β)), (L.map (·.1)).Nodup →
      ((qs.foldl (fun acc q => upsert (key q) (val q) acc) L).map (·.1)).Nodup
  | [], _, h => h
  | _ :: qs, _, h => nodup_keys_foldl_upsert val qs _ (nodup_keys_upsert h)

end Decoder

section Lookup

variable {β γ : Type}

theorem mem_keys_iff_lookup_isSome (l : List (String × β)) (c : String) :
    c ∈ l.map (·.1) ↔ (l.lookup c).isSome := by
  rw [List.lookup_isSome_iff, List.mem_map]
  constructor
  · rintro ⟨p, hp, rfl⟩
    exact ⟨p, hp, beq_self_eq_true _⟩
  · rintro ⟨p, hp, h⟩
    exact ⟨p, hp, (beq_iff_eq.mp h).symm⟩

theorem lookup_map_const (l : List (String × γ)) (b : β) (c : String) :
    (l.map fun u => (u.1, b)).lookup c = if c ∈ l.map (·.1) then some b else none := by
  induction l with
  | nil => simp
  | cons u l ih =>
    by_cases hc : c = u.1
    · simp [hc]
    · -- past an entry of another key, the keys after it decide
      have hm : c ∈ (u :: l).map (·.1) ↔ c ∈ l.map (·.1) := by simp [hc]
      rw [List.map_cons, List.lookup_cons, beq_false_of_ne hc, ih]
      by_cases hl : c ∈ l.map (·.1)
      · rw [if_pos hl, if_pos (hm.mpr hl)]
      · rw [if_neg hl, if_neg (fun h => hl (hm.mp h))]

theorem lookup_filterMap_pair (f : String → Option β) (c : String) :
    ∀ xs : List String, (xs.filterMap fun x => (f x).map (x, ·)).lookup c = if c ∈ xs then f c else none
  | [] => by simp
  | x :: xs => by
    have ih := lookup_filterMap_pair f c xs
    by_cases hc : c = x
    · subst hc
      cases hf : f c with
      | none => simp [hf, ih]
      | some r => simp [hf]
    · cases hf : f x <;> simp [hf, hc, ih, List.lookup_cons, beq_false_of_ne hc]

theorem keys_filterMap_pair_sublist (f : String → Option β) :
    ∀ xs : List String, List.Sublist ((xs.filterMap fun x => (f x).map (x, ·)).map (·.1)) xs
  | [] => List.Sublist.slnil
  | x :: xs => by
    have ih := keys_filterMap_pair_sublist f xs
    cases hf : f x with
    | none => simpa [hf] using ih.cons x
    | some r => simpa [hf] using ih.cons_cons x

end Lookup

/-! ## How the walk classifies the client ids it visits -/

namespace Snapshot

theorem node?_eq_none_iff {s : Snapshot} {c : String} : s.node? c = none ↔ c ∉ s.items.map (·.1) := by
  simp only [node?, Option.map_eq_none_iff, List.find?_eq_none, beq_iff_eq, List.mem_map]
  constructor
  · rintro h ⟨e, he, rfl⟩
    exact h e he rfl
  · intro h e he hec
    exact h ⟨e, he, hec⟩

theorem reason?_eq_missing {s : Snapshot} {c : String} :
    s.reason? c = some .missing ↔ c ∉ s.items.map (·.1) := by
  rw [← node?_eq_none_iff]
  unfold reason?
  cases s.node? c with
  | none => simp
  | some n => cases Uuid.isValid c <;> simp

theorem reason?_eq_malformed {s : Snapshot} {c : String} :
    s.reason? c = some .malformed ↔ c ∈ s.items.map (·.1) ∧ Uuid.isValid c = false := by
  have hk : c ∈ s.items.map (·.1) ↔ s.node? c ≠ none := by rw [Ne, node?_eq_none_iff, not_not]
  rw [hk]
  unfold reason?
  cases s.node? c with
  | none => simp
  | some n => cases Uuid.isValid c <;> simp

theorem reason?_ne_unreachable (s : Snapshot) (c : String) : s.reason? c ≠ some .unreachable := by
  unfold reason?
  cases s.node? c with
  | none => simp
  | some n => cases Uuid.isValid c <;> simp

theorem reason?_ne_none {s : Snapshot} {c : String} (h : s.node? c = none ∨ Uuid.isValid c = false) :
    s.reason? c ≠ none := by
  rw [Ne, reason?_eq_none]
  rcases h with h | h <;> simp [h]

end Snapshot

namespace Visit

/-- What the walk keeps about the client ids it visits, from the client ids `B` visited at its
start: those stay visited and are never placed, a placed client id has a node and is a uuid,
and every visited client id was visited at the start, is placed, or has a reason to be left
out. -/
structure Classified (s : Snapshot) (B : List String) (v : Visit) : Prop where
  base : ∀ c ∈ B, c ∈ v.visited ∧ c ∉ v.ids
  placed : ∀ c ∈ v.ids, s.reason? c = none
  visited : ∀ c ∈ v.visited, c ∈ B ∨ c ∈ v.ids ∨ s.reason? c ≠ none

variable {s : Snapshot} {B : List String} {v : Visit}

theorem Classified.skip (h : v.Classified s B) {c : String} (hr : s.reason? c ≠ none) :
    (v.skip c).Classified s B where
  base b hb := ⟨List.mem_append_left _ (h.base b hb).1, (h.base b hb).2⟩
  placed := h.placed
  visited x hx := by
    rcases List.mem_append.mp hx with hx | hx
    · exact h.visited x hx
    · rw [List.mem_singleton.mp hx]
      exact Or.inr (Or.inr hr)

theorem Classified.place (h : v.Classified s B) {p : Placement} (hc : p.clientId ∉ v.visited)
    (hr : s.reason? p.clientId = none) : (v.place p).Classified s B where
  base b hb := by
    have hne : b ≠ p.clientId := fun he => hc (he ▸ (h.base b hb).1)
    refine ⟨List.mem_append_left _ (h.base b hb).1, ?_⟩
    simpa [hne] using (h.base b hb).2
  placed x hx := by
    rcases List.mem_append.mp (place_ids v p ▸ hx) with hx | hx
    · exact h.placed x hx
    · rw [List.mem_singleton.mp hx]
      exact hr
  visited x hx := by
    rcases List.mem_append.mp hx with hx | hx
    · rcases h.visited x hx with hb | hp | hr'
      · exact Or.inl hb
      · exact Or.inr (Or.inl (by simp [hp]))
      · exact Or.inr (Or.inr hr')
    · exact Or.inr (Or.inl (by simp [List.mem_singleton.mp hx]))

theorem classified_start (s : Snapshot) : (⟨[s.rootItem], []⟩ : Visit).Classified s [s.rootItem] where
  base _ hb := ⟨hb, by simp [ids]⟩
  placed _ hx := by simp [ids] at hx
  visited _ hx := Or.inl hx

end Visit

theorem Explores.classified {s : Snapshot} {B : List String} {parent : Option String}
    {cs : List String} {v v' : Visit} (h : Explores s parent cs v v') (hv : v.Classified s B) :
    v'.Classified s B := by
  induction h with
  | nil => exact hv
  | again _ _ ih => exact ih hv
  | leave _ hleft _ ih => exact ih (hv.skip (Snapshot.reason?_ne_none hleft))
  | place hc hn hu _ _ ihsub ihrest =>
    exact ihrest (ihsub (hv.place hc (Snapshot.reason?_eq_none.mpr ⟨by simp [hn], hu⟩)))

theorem Snapshot.Walked.classified {s : Snapshot} {v : Visit} (h : s.Walked v) :
    v.Classified s [s.rootItem] :=
  Explores.classified h (Visit.classified_start s)

/-! ## The answer of a plan -/

namespace Snapshot

variable (s : Snapshot) (visited : List String)

theorem mem_unreachable_keys (c : String) :
    c ∈ (s.items.filter fun e => !visited.contains e.1).map (·.1) ↔ c ∈ s.items.map (·.1) ∧ c ∉ visited := by
  simp only [List.mem_map, List.mem_filter]
  constructor
  · rintro ⟨e, ⟨he, hv⟩, rfl⟩
    exact ⟨⟨e, he, rfl⟩, by simpa using hv⟩
  · rintro ⟨⟨e, he, rfl⟩, hv⟩
    exact ⟨e, ⟨he, by simpa using hv⟩, rfl⟩

/-- The reason a walk that visited `visited` gives a client id, if any: the walk's own for a
visited one, and unreachable for an entry never visited. -/
def reasonAfter (c : String) : Option Unresolved :=
  if c ∈ visited then s.reason? c else if c ∈ s.items.map (·.1) then some .unreachable else none

variable {s visited} {c : String}

theorem reasonAfter_eq_missing :
    s.reasonAfter visited c = some .missing ↔ c ∈ visited ∧ c ∉ s.items.map (·.1) := by
  unfold reasonAfter
  by_cases hv : c ∈ visited
  · rw [if_pos hv, reason?_eq_missing]
    exact (and_iff_right hv).symm
  · rw [if_neg hv]
    split <;> simp [hv]

theorem reasonAfter_eq_malformed :
    s.reasonAfter visited c = some .malformed ↔
      c ∈ visited ∧ c ∈ s.items.map (·.1) ∧ Uuid.isValid c = false := by
  unfold reasonAfter
  by_cases hv : c ∈ visited
  · rw [if_pos hv, reason?_eq_malformed]
    exact (and_iff_right hv).symm
  · rw [if_neg hv]
    split <;> simp [hv]

theorem reasonAfter_eq_unreachable :
    s.reasonAfter visited c = some .unreachable ↔ c ∈ s.items.map (·.1) ∧ c ∉ visited := by
  unfold reasonAfter
  by_cases hv : c ∈ visited
  · rw [if_pos hv]
    exact iff_of_false (reason?_ne_unreachable s c) fun h => h.2 hv
  · rw [if_neg hv]
    split <;> simp_all

theorem reasonAfter_isSome :
    (s.reasonAfter visited c).isSome ↔
      (c ∈ visited ∧ s.reason? c ≠ none) ∨ (c ∉ visited ∧ c ∈ s.items.map (·.1)) := by
  unfold reasonAfter
  by_cases hv : c ∈ visited
  · rw [if_pos hv, Option.isSome_iff_ne_none]
    simp [hv]
  · rw [if_neg hv]
    split <;> simp_all

variable (s visited c)

theorem lookup_unresolved :
    (visited.filterMap (fun x => (s.reason? x).map (x, ·)) ++
        (s.items.filter fun e => !visited.contains e.1).map fun e => (e.1, Unresolved.unreachable)).lookup c =
      s.reasonAfter visited c := by
  have hmem := mem_unreachable_keys s visited c
  rw [List.lookup_append, lookup_filterMap_pair, lookup_map_const, reasonAfter]
  by_cases hv : c ∈ visited
  · rw [if_pos hv, if_pos hv, if_neg fun h => (hmem.mp h).2 hv]
    cases s.reason? c <;> rfl
  · rw [if_neg hv, if_neg hv]
    by_cases hk : c ∈ s.items.map (·.1)
    · rw [if_pos (hmem.mpr ⟨hk, hv⟩), if_pos hk]
      rfl
    · rw [if_neg fun h => hk (hmem.mp h).1, if_neg hk]
      rfl

theorem nodup_unresolved_keys (hv : visited.Nodup) (hkeys : (s.items.map (·.1)).Nodup) :
    ((visited.filterMap (fun x => (s.reason? x).map (x, ·)) ++
        (s.items.filter fun e => !visited.contains e.1).map fun e => (e.1, Unresolved.unreachable)).map
      (·.1)).Nodup := by
  rw [List.map_append]
  have hfirst := keys_filterMap_pair_sublist s.reason? visited
  have hpairs : ((s.items.filter fun e => !visited.contains e.1).map fun e => (e.1, Unresolved.unreachable)).map
      (·.1) = (s.items.filter fun e => !visited.contains e.1).map (·.1) := by
    rw [List.map_map]
    rfl
  have hsecond : List.Sublist ((s.items.filter fun e => !visited.contains e.1).map (·.1)) (s.items.map (·.1)) :=
    List.filter_sublist.map _
  rw [hpairs]
  refine (hfirst.nodup hv).append (hsecond.nodup hkeys) fun x hx hx' => ?_
  exact ((mem_unreachable_keys s visited x).mp hx').2 (hfirst.subset hx)

theorem Walked.left_out_iff {s : Snapshot} {v : Visit} (hv : s.Walked v) (hwf : v.WellFormed)
    (hroot : s.reason? s.rootItem = none) (c : String) :
    (s.reasonAfter v.visited c).isSome ↔
      c ≠ s.rootItem ∧ c ∉ v.ids ∧ (c ∈ s.items.map (·.1) ∨ c ∈ v.visited) := by
  have hcl := hv.classified
  have hrootVisited := (hcl.base _ (List.mem_singleton_self _)).1
  rw [reasonAfter_isSome]
  constructor
  · rintro (⟨hvis, hr⟩ | ⟨hvis, hk⟩)
    · -- visited with a reason: neither the root nor a placement has one
      exact ⟨fun he => hr (he ▸ hroot), fun hp => hr (hcl.placed c hp), .inr hvis⟩
    · -- an entry never visited: the root and the placements are visited
      exact ⟨fun he => hvis (he ▸ hrootVisited), fun hp => hvis (hwf.ids_visited c hp), .inl hk⟩
  · rintro ⟨hr, hp, hk⟩
    by_cases hvis : c ∈ v.visited
    · rcases hcl.visited c hvis with hb | hb | hb
      · exact absurd (List.mem_singleton.mp hb) hr
      · exact absurd hb hp
      · exact .inl ⟨hvis, hb⟩
    · exact .inr ⟨hvis, hk.resolve_right hvis⟩

end Snapshot

namespace Plan

theorem result_ids (p : Plan) (removed : Nat) (persisted : List String) :
    (p.result removed persisted).ids = Decoder.upsert p.rootClientId (some p.rootItemId)
      ((p.nodes.zip persisted).foldl (fun acc q => Decoder.upsert q.1.clientId (some q.2) acc)
        (p.unresolved.map fun u => (u.1, none))) := rfl

theorem result_reasons (p : Plan) (removed : Nat) (persisted : List String) :
    (p.result removed persisted).reasons = p.unresolved := rfl

theorem lookup_result_ids (p : Plan) (removed : Nat) (persisted : List String) (ids : String → String)
    (hids : ∀ q ∈ p.nodes.zip persisted, q.2 = ids q.1.clientId) (c : String) :
    (p.result removed persisted).ids.lookup c =
      if c = p.rootClientId then some (some p.rootItemId)
      else if c ∈ (p.nodes.zip persisted).map (·.1.clientId) then some (some (ids c))
      else if c ∈ p.unresolved.map (·.1) then some none else none := by
  rw [result_ids, Decoder.lookup_upsert,
    Decoder.lookup_foldl_upsert (fun q : PlannedNode × String => q.1.clientId)
      (fun q : PlannedNode × String => some q.2) (fun c => some (ids c)) c _ _
      fun q hq => by rw [hids q hq],
    lookup_map_const]

theorem nodup_result_ids (p : Plan) (removed : Nat) (persisted : List String)
    (h : (p.unresolved.map (·.1)).Nodup) : ((p.result removed persisted).ids.map (·.1)).Nodup := by
  rw [result_ids]
  refine Decoder.nodup_keys_upsert (Decoder.nodup_keys_foldl_upsert _ _ _ _ ?_)
  have hkeys : (p.unresolved.map fun u => (u.1, (none : Option String))).map (·.1) = p.unresolved.map (·.1) := by
    rw [List.map_map]
    rfl
  rw [hkeys]
  exact h

end Plan

namespace Memory

variable {catalog : Catalog}

theorem reconcile_answer {limits : Limits} {m m' : Memory} {d : Document} {R user : String}
    {s : Snapshot} {res : ReconcileResult} {v : Visit} (hc : Consistent catalog m)
    (hd : d ∈ m.tables.documents) (hR : d.rootItemId = some R)
    (h : exec (Documents.reconcile repository catalog limits user d.id (some s)) m = (.ok res, m'))
    (hv : s.Walked v) (hkeys : (s.items.map (·.1)).Nodup) :
    v.WellFormed ∧ s.reason? s.rootItem = none ∧
      (res.ids.map (·.1)).Nodup ∧ (res.reasons.map (·.1)).Nodup ∧
      ∃ ids : String → String, (v.placed.map fun p => ids p.clientId).Nodup ∧
        (∃ r, r.id = R ∧ m'.tables.itemsOf d.id = r :: v.placed.map (Placement.item d.id R ids)) ∧
        (∀ c, res.ids.lookup c =
          if c = s.rootItem then some (some R)
          else if c ∈ v.ids then some (some (ids c))
          else if c ∈ res.reasons.map (·.1) then some none else none) ∧
        ∀ c, res.reasons.lookup c = s.reasonAfter v.visited c := by
  obtain ⟨p, removed, ids, hwf, hreason, hrootClient, hR', hnodes, hunresolved, hres, hnodup, -, hitems⟩ :=
    reconcile_outcome hc hd hR h hv
  -- the planned nodes paired with the ids created for them
  have hzip : p.nodes.zip (v.placed.map fun a => ids a.clientId) =
      v.placed.map fun a => (a.planned v.ids, ids a.clientId) := by
    rw [hnodes, List.zip_map']
  have hpairs : ∀ q ∈ p.nodes.zip (v.placed.map fun a => ids a.clientId), q.2 = ids q.1.clientId := by
    rw [hzip]
    intro q hq
    obtain ⟨a, -, rfl⟩ := List.mem_map.mp hq
    rfl
  have hplanned : (p.nodes.zip (v.placed.map fun a => ids a.clientId)).map (·.1.clientId) = v.ids := by
    rw [hzip, List.map_map]
    rfl
  have hleft : (p.unresolved.map (·.1)).Nodup := by
    rw [hunresolved]
    exact Snapshot.nodup_unresolved_keys s v.visited hwf.visited_nodup hkeys
  refine ⟨hwf, hreason, hres ▸ Plan.nodup_result_ids p removed _ hleft, ?_, ids, hnodup, hitems,
    fun c => ?_, fun c => ?_⟩
  · rw [hres, Plan.result_reasons]
    exact hleft
  · rw [hres, Plan.lookup_result_ids p removed _ ids hpairs c, hplanned, hrootClient, hR',
      Plan.result_reasons]
  · rw [hres, Plan.result_reasons, hunresolved, Snapshot.lookup_unresolved]

end Memory

/-! ## Every client id answered once -/

/-- A reconciliation that succeeds on a reachable store, for a snapshot whose entries have
distinct client ids, answers each client id once. It answers exactly the root, the entries and
the client ids the reference walk visits: the root with the document's root item, even when it
is also listed as a child; each placement of the walk with the id of the item created for it,
distinct for distinct placements; and every other client id with no id, exactly when it is
given a reason. A client id is missing when the walk visits it and the snapshot has no entry
for it, malformed when the walk visits it and it is an entry but no uuid, and unreachable when
it is an entry the walk never visits. -/
theorem reconcile_answers_every_client_id {catalog : Catalog} {limits₀ limits : Limits}
    {m m' : Memory} {d : Document} {R user : String} {s : Snapshot} {res : ReconcileResult} {v : Visit}
    (hm : Reachable catalog limits₀ m) (hd : d ∈ m.tables.documents) (hR : d.rootItemId = some R)
    (h : Memory.exec (Documents.reconcile Memory.repository catalog limits user d.id (some s)) m =
      (.ok res, m'))
    (hv : s.Walked v) (hkeys : (s.items.map (·.1)).Nodup) :
    (res.ids.map (·.1)).Nodup ∧ (res.reasons.map (·.1)).Nodup ∧
      (∀ c, c ∈ res.ids.map (·.1) ↔ c = s.rootItem ∨ c ∈ s.items.map (·.1) ∨ c ∈ v.visited) ∧
      res.ids.lookup s.rootItem = some (some R) ∧
      (∃ ids : String → String, (v.placed.map fun p => ids p.clientId).Nodup ∧
        (∃ r, r.id = R ∧ m'.tables.itemsOf d.id = r :: v.placed.map (Placement.item d.id R ids)) ∧
        ∀ c x, c ≠ s.rootItem → (res.ids.lookup c = some (some x) ↔ c ∈ v.ids ∧ x = ids c)) ∧
      (∀ c, res.ids.lookup c = some none ↔ c ∈ res.reasons.map (·.1)) ∧
      (∀ c, res.reasons.lookup c = some .missing ↔ c ∈ v.visited ∧ c ∉ s.items.map (·.1)) ∧
      (∀ c, res.reasons.lookup c = some .malformed ↔
        c ∈ v.visited ∧ c ∈ s.items.map (·.1) ∧ Uuid.isValid c = false) ∧
      (∀ c, res.reasons.lookup c = some .unreachable ↔ c ∈ s.items.map (·.1) ∧ c ∉ v.visited) := by
  obtain ⟨hwf, hroot, hidsNodup, hreasonsNodup, ids, hplacedNodup, hitems, hlook, hreasons⟩ :=
    Memory.reconcile_answer hm.consistent hd hR h hv hkeys
  have hleft : ∀ c, c ∈ res.reasons.map (·.1) ↔
      c ≠ s.rootItem ∧ c ∉ v.ids ∧ (c ∈ s.items.map (·.1) ∨ c ∈ v.visited) := fun c => by
    rw [mem_keys_iff_lookup_isSome, hreasons c, hv.left_out_iff hwf hroot]
  refine ⟨hidsNodup, hreasonsNodup, fun c => ?_, by rw [hlook, if_pos rfl],
    ⟨ids, hplacedNodup, hitems, fun c x hc => ?_⟩, fun c => ?_, fun c => ?_, fun c => ?_, fun c => ?_⟩
  · -- the client ids answered: the root, the placements, and those left out
    rw [mem_keys_iff_lookup_isSome, hlook c]
    by_cases hr : c = s.rootItem
    · simp [hr]
    by_cases hp : c ∈ v.ids
    · rw [if_neg hr, if_pos hp]
      exact iff_of_true rfl (.inr (.inr (hwf.ids_visited c hp)))
    rw [if_neg hr, if_neg hp]
    by_cases hl : c ∈ res.reasons.map (·.1)
    · rw [if_pos hl]
      exact iff_of_true rfl (.inr ((hleft c).mp hl).2.2)
    · rw [if_neg hl]
      exact iff_of_false (by simp) fun hc => hl ((hleft c).mpr ⟨hr, hp, hc.resolve_left hr⟩)
  · -- a placement's id
    rw [hlook c, if_neg hc]
    by_cases hp : c ∈ v.ids
    · rw [if_pos hp]
      simp [hp, eq_comm]
    · rw [if_neg hp]
      split <;> simp [hp]
  · -- no id exactly for the client ids left out
    rw [hlook c]
    by_cases hr : c = s.rootItem
    · rw [if_pos hr]
      exact iff_of_false (by simp) fun hl => ((hleft c).mp hl).1 hr
    by_cases hp : c ∈ v.ids
    · rw [if_neg hr, if_pos hp]
      exact iff_of_false (by simp) fun hl => ((hleft c).mp hl).2.1 hp
    rw [if_neg hr, if_neg hp]
    split <;> simp_all
  · rw [hreasons c]
    exact Snapshot.reasonAfter_eq_missing
  · rw [hreasons c]
    exact Snapshot.reasonAfter_eq_malformed
  · rw [hreasons c]
    exact Snapshot.reasonAfter_eq_unreachable

/-- A snapshot of the first document whose root lists a child, a client id with no entry and an
entry that is no uuid, and which has an entry no node lists. -/
def mixedSnapshot : Snapshot :=
  ⟨Uuid.minted 2, none,
    [(Uuid.minted 2, ⟨"", none, 0, ["00000000-0000-4000-8000-0000000000aa", "gone", "bad"], none, []⟩),
     ("00000000-0000-4000-8000-0000000000aa", ⟨"", none, 0, [], some "hello", []⟩),
     ("bad", ⟨"", none, 1, [], some "no uuid", []⟩),
     ("00000000-0000-4000-8000-0000000000bb", ⟨"", none, 2, [], some "orphan", []⟩)]⟩

/-- What reconciling the first document with `mixedSnapshot` answers. -/
def mixedAnswer : ReconcileResult :=
  ⟨[("gone", none), ("bad", none), ("00000000-0000-4000-8000-0000000000bb", none),
      ("00000000-0000-4000-8000-0000000000aa", some (Uuid.minted 3)), (Uuid.minted 2, some (Uuid.minted 2))],
    [("gone", .missing), ("bad", .malformed), ("00000000-0000-4000-8000-0000000000bb", .unreachable)],
    0, 1, none⟩

/-- Reconciling the first document with `mixedSnapshot` gives each reason once, and no id to the
client id that is no uuid. -/
theorem mixed_reconcile_reasons :
    Reachable Catalog.standard Limits.standard firstStore ∧
      (⟨Uuid.minted 1, "alice", some (Uuid.minted 2), none, false, secondsClock 1, some (secondsClock 1)⟩ : Document) ∈
        firstStore.tables.documents ∧
      Memory.exec (Documents.reconcile Memory.repository Catalog.standard Limits.standard "alice"
          (Uuid.minted 1) (some mixedSnapshot)) firstStore =
        (.ok mixedAnswer, (Memory.exec (Documents.reconcile Memory.repository Catalog.standard
          Limits.standard "alice" (Uuid.minted 1) (some mixedSnapshot)) firstStore).2) ∧
      mixedSnapshot.Walked ⟨[Uuid.minted 2, "00000000-0000-4000-8000-0000000000aa", "gone", "bad"],
        [⟨"00000000-0000-4000-8000-0000000000aa", none, ⟨"", none, 0, [], some "hello", []⟩⟩]⟩ ∧
      (mixedSnapshot.items.map (·.1)).Nodup ∧
      mixedAnswer.reasons.lookup "gone" = some .missing ∧
      mixedAnswer.reasons.lookup "bad" = some .malformed ∧
      mixedAnswer.reasons.lookup "00000000-0000-4000-8000-0000000000bb" = some .unreachable ∧
      mixedAnswer.ids.lookup "bad" = some none := by
  have hm : Reachable Catalog.standard Limits.standard firstStore := .step _ (.empty 0 secondsClock)
  have hd : (⟨Uuid.minted 1, "alice", some (Uuid.minted 2), none, false, secondsClock 1, some (secondsClock 1)⟩ : Document) ∈
      firstStore.tables.documents := by
    rw [show firstStore.tables.documents = [⟨Uuid.minted 1, "alice", some (Uuid.minted 2), none, false, secondsClock 1, some (secondsClock 1)⟩]
      from rfl]
    exact List.mem_singleton_self _
  have hrun : (Memory.exec (Documents.reconcile Memory.repository Catalog.standard Limits.standard "alice"
      (Uuid.minted 1) (some mixedSnapshot)) firstStore).1 = .ok mixedAnswer := by
    decide +kernel
  -- the child is placed, then the client id with no entry and the one that is no uuid are left out
  have hv : mixedSnapshot.Walked ⟨[Uuid.minted 2, "00000000-0000-4000-8000-0000000000aa", "gone", "bad"],
      [⟨"00000000-0000-4000-8000-0000000000aa", none, ⟨"", none, 0, [], some "hello", []⟩⟩]⟩ :=
    .place (by decide +kernel) rfl (by decide +kernel) .nil
      (.leave (by decide +kernel) (.inl rfl) (.leave (by decide +kernel) (.inr (by decide +kernel)) .nil))
  have hkeys : (mixedSnapshot.items.map (·.1)).Nodup := by decide +kernel
  obtain ⟨-, -, -, -, -, hnone, hmissing, hmalformed, hunreachable⟩ :=
    reconcile_answers_every_client_id hm hd rfl (Prod.ext hrun rfl) hv hkeys
  have hbad : "bad" ∈ mixedAnswer.reasons.map (·.1) := by decide +kernel
  exact ⟨hm, hd, Prod.ext hrun rfl, hv, hkeys,
    (hmissing "gone").mpr ⟨by decide +kernel, by decide +kernel⟩,
    (hmalformed "bad").mpr ⟨by decide +kernel, by decide +kernel, by decide +kernel⟩,
    (hunreachable _).mpr ⟨by decide +kernel, by decide +kernel⟩, (hnone "bad").mpr hbad⟩

end Outliner
