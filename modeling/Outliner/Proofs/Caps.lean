import Outliner.Proofs.StackWalk

/-!
# The planner's depth and size caps

The planner refuses a snapshot as too large when a node it is about to place lies deeper than
`maxDepth` levels below the root, or when it holds `maxNodes` nodes already; a limit of zero or
less is no limit. Both checks come after the ones that pass over visited, missing and malformed
client ids, so only placements count. For a snapshot whose nodes all pass their checks the caps
are exact: planning fails, and then always as too large, exactly when the reference walk places
a node deeper than the depth limit or more nodes than the count limit
(`plan_fails_iff_caps_exceeded`).

Levels are read off the placements (`Visit.level`): a placement under the root is at level 1,
one under a placement at level `k` at level `k + 1`.
-/

set_option autoImplicit false

namespace Outliner

/-- The level of a client id among placements listed latest first; 0 when it is not placed. -/
def Visit.levelIn : List Placement → String → Nat
  | [], _ => 0
  | p :: ps, c => if p.clientId = c then p.parent.elim 0 (levelIn ps) + 1 else levelIn ps c

namespace Visit

/-- The level of a client id below the root among the placements of a visit. -/
def level (v : Visit) (c : String) : Nat := levelIn v.placed.reverse c

theorem level_skip (v : Visit) (c : String) : (v.skip c).level = v.level := rfl

theorem level_place (v : Visit) (p : Placement) (c : String) :
    (v.place p).level c = if p.clientId = c then p.parent.elim 0 v.level + 1 else v.level c := by
  simp only [level, place_placed, List.reverse_append, List.reverse_singleton, List.singleton_append,
    levelIn]
  rfl

theorem levelIn_append {c : String} :
    ∀ (t L : List Placement), (∀ p ∈ t, p.clientId ≠ c) → levelIn (t ++ L) c = levelIn L c
  | [], _, _ => rfl
  | p :: t, L, h => by
    rw [List.cons_append, levelIn, if_neg (h p List.mem_cons_self),
      levelIn_append t L fun q hq => h q (List.mem_cons_of_mem _ hq)]

theorem level_of_extends {v v' : Visit} (h : v.Extends v') (hwf : v'.WellFormed) {x : String}
    (hx : x ∈ v.ids) : v'.level x = v.level x := by
  obtain ⟨t, ht⟩ := h.2
  have hnodup : ((v.placed ++ t).map (·.clientId)).Nodup := by
    rw [ht]
    exact hwf.ids_nodup
  rw [List.map_append] at hnodup
  have hnew : ∀ p ∈ t.reverse, p.clientId ≠ x := fun p hp hpx =>
    List.disjoint_of_nodup_append hnodup hx (hpx ▸ List.mem_map_of_mem (List.mem_reverse.mp hp))
  rw [level, ← ht, List.reverse_append, levelIn_append _ _ hnew]
  rfl

end Visit

/-- The placements of a visit break the limits: one of them lies deeper than `maxDepth` levels
below the root, or there are more than `maxNodes` of them. A limit of zero or less is none. -/
def Limits.Exceeds (limits : Limits) (v : Visit) : Prop :=
  (0 < limits.maxDepth ∧ ∃ p ∈ v.placed, limits.maxDepth < v.level p.clientId) ∨
    (0 < limits.maxNodes ∧ limits.maxNodes < v.placed.length)

namespace Limits

variable {limits : Limits}

theorem exceeds_skip (v : Visit) (c : String) : limits.Exceeds (v.skip c) ↔ limits.Exceeds v :=
  Iff.rfl

theorem Exceeds.extend {v v' : Visit} (h : limits.Exceeds v) (hext : v.Extends v')
    (hwf : v'.WellFormed) : limits.Exceeds v' := by
  rcases h with ⟨hpos, p, hp, hdeep⟩ | ⟨hpos, hmany⟩
  · have hx : p.clientId ∈ v.ids := List.mem_map_of_mem hp
    refine .inl ⟨hpos, p, hext.2.subset hp, ?_⟩
    rw [Visit.level_of_extends hext hwf hx]
    exact hdeep
  · have hlen : v.placed.length ≤ v'.placed.length := hext.2.length_le
    exact .inr ⟨hpos, by omega⟩

theorem exceeds_place {v : Visit} (hv : ¬ limits.Exceeds v) (hwf : v.WellFormed) {p : Placement}
    (hc : p.clientId ∉ v.visited) :
    limits.Exceeds (v.place p) ↔
      (0 < limits.maxDepth ∧ limits.maxDepth < (p.parent.elim 0 v.level + 1 : Nat)) ∨
        (0 < limits.maxNodes ∧ limits.maxNodes ≤ v.placed.length) := by
  have hold : ∀ q ∈ v.placed, (v.place p).level q.clientId = v.level q.clientId := fun q hq => by
    rw [Visit.level_place, if_neg]
    intro he
    exact hc (he ▸ hwf.ids_visited _ (List.mem_map_of_mem hq))
  have hnew : (v.place p).level p.clientId = p.parent.elim 0 v.level + 1 := by
    rw [Visit.level_place, if_pos rfl]
  simp only [Exceeds, Visit.place_placed, List.length_append, List.length_singleton,
    List.mem_append, List.mem_singleton] at hv ⊢
  constructor
  · rintro (⟨hpos, q, hq | rfl, hdeep⟩ | ⟨hpos, hmany⟩)
    · exact absurd (.inl ⟨hpos, q, hq, hold q hq ▸ hdeep⟩) hv
    · exact .inl ⟨hpos, hnew ▸ hdeep⟩
    · exact .inr ⟨hpos, by omega⟩
  · rintro (⟨hpos, hdeep⟩ | ⟨hpos, hmany⟩)
    · exact .inl ⟨hpos, p, .inr rfl, hnew.symm ▸ hdeep⟩
    · exact .inr ⟨hpos, by omega⟩

end Limits

namespace Plan

variable {catalog : Catalog} {limits : Limits} {s : Snapshot}

/-! ## One step of the planner's walk -/

theorem walk_seen {fuel : Nat} {f : Frame} {stack : List Frame} {w : Walk}
    (h : f.clientId ∈ w.seen) :
    walk catalog limits s (fuel + 1) (f :: stack) w = walk catalog limits s fuel stack w := by
  rw [walk, if_pos (List.contains_iff_mem.mpr h)]

theorem walk_leave {fuel : Nat} {f : Frame} {stack : List Frame} {w : Walk} {r : Unresolved}
    (hc : f.clientId ∉ w.seen) (hr : s.reason? f.clientId = some r) :
    walk catalog limits s (fuel + 1) (f :: stack) w =
      walk catalog limits s fuel stack ⟨w.nodes, f.clientId :: w.seen, w.unresolved ++ [(f.clientId, r)]⟩ := by
  rw [walk, if_neg (by simpa using hc)]
  dsimp only
  cases hnode : s.node? f.clientId with
  | none =>
    rw [Snapshot.reason?_of_node_none hnode, Option.some.injEq] at hr
    subst hr
    rfl
  | some n =>
    have hu : Uuid.isValid f.clientId = false := by
      cases hu : Uuid.isValid f.clientId with
      | false => rfl
      | true =>
        rw [Snapshot.reason?_eq_none.mpr ⟨by simp [hnode], hu⟩] at hr
        cases hr
    rw [Snapshot.reason?_of_invalid hnode hu, Option.some.injEq] at hr
    subst hr
    dsimp only
    rw [if_pos (by simp [hu])]

theorem walk_place {fuel : Nat} {f : Frame} {stack : List Frame} {w : Walk} {n : SnapshotNode}
    (hc : f.clientId ∉ w.seen) (hn : s.node? f.clientId = some n) (hu : Uuid.isValid f.clientId = true)
    (hcheck : checkNode catalog f.clientId n = .ok ()) :
    (((0 < limits.maxDepth ∧ limits.maxDepth < f.depth) ∨
        (0 < limits.maxNodes ∧ limits.maxNodes ≤ w.nodes.length)) ∧
      ∃ e, walk catalog limits s (fuel + 1) (f :: stack) w = .error e ∧ e.fault = .tooLarge) ∨
    (¬ ((0 < limits.maxDepth ∧ limits.maxDepth < f.depth) ∨
        (0 < limits.maxNodes ∧ limits.maxNodes ≤ w.nodes.length)) ∧
      walk catalog limits s (fuel + 1) (f :: stack) w =
        walk catalog limits s fuel (framesOf n.children (some w.nodes.length) (f.depth + 1) ++ stack)
          ⟨w.nodes ++ [⟨f.clientId, f.parent, n.childOrder, n.itemText.getD "", n.styles⟩],
            f.clientId :: w.seen, w.unresolved⟩) := by
  rw [walk, if_neg (by simpa using hc)]
  dsimp only
  rw [hn]
  dsimp only
  rw [if_neg (by simpa using hu)]
  by_cases hdeep : 0 < limits.maxDepth ∧ limits.maxDepth < f.depth
  · rw [if_pos (by simpa using hdeep)]
    exact .inl ⟨.inl hdeep, _, rfl, rfl⟩
  rw [if_neg (by simpa using hdeep)]
  by_cases hmany : 0 < limits.maxNodes ∧ limits.maxNodes ≤ w.nodes.length
  · rw [if_pos (by simpa using hmany)]
    exact .inl ⟨.inr hmany, _, rfl, rfl⟩
  rw [if_neg (by simpa using hmany), hcheck]
  exact .inr ⟨fun h => h.elim hdeep hmany, rfl⟩

theorem reason?_of_left {c : String} (hleft : s.node? c = none ∨ Uuid.isValid c = false) :
    ∃ r, s.reason? c = some r := by
  rcases hleft with hnode | hu
  · exact ⟨_, Snapshot.reason?_of_node_none hnode⟩
  · cases hnode : s.node? c with
    | none => exact ⟨_, Snapshot.reason?_of_node_none hnode⟩
    | some n => exact ⟨_, Snapshot.reason?_of_invalid hnode hu⟩

/-! ## The walk under limits follows the reference walk -/

theorem walk_caps (hchecks : ∀ c n, s.node? c = some n → checkNode catalog c n = .ok ())
    {parent : Option String} {cs : List String} {v v' : Visit} (hex : Explores s parent cs v v') :
    ∀ (fuel depth : Nat) (rest : List Frame) (w : Walk), w.Tracks s v → v.WellFormed →
      (∀ x ∈ parent, x ∈ v.ids) → depth = parent.elim 0 v.level + 1 → ¬ limits.Exceeds v →
      cs.length + rest.length + unseenChildren s.items w.seen < fuel →
      (limits.Exceeds v' ∧ ∃ e, walk catalog limits s fuel
          (framesOf cs (parent.map v.ids.idxOf) depth ++ rest) w = .error e ∧ e.fault = .tooLarge) ∨
      (¬ limits.Exceeds v' ∧ ∃ fuel' w', w'.Tracks s v' ∧
        rest.length + unseenChildren s.items w'.seen < fuel' ∧
        walk catalog limits s fuel (framesOf cs (parent.map v.ids.idxOf) depth ++ rest) w =
          walk catalog limits s fuel' rest w') := by
  induction hex with
  | nil =>
    intro fuel depth rest w htr _ _ _ hv hfuel
    exact .inr ⟨hv, fuel, w, htr, by simpa using hfuel, rfl⟩
  | @again parent c cs v v' hc _ ih =>
    intro fuel depth rest w htr hwf hp hdepth hv hfuel
    obtain ⟨fuel, rfl⟩ : ∃ f, fuel = f + 1 := ⟨fuel - 1, by simp at hfuel; omega⟩
    rw [framesOf_cons, List.cons_append, walk_seen ((htr.mem_seen c).mpr hc)]
    exact ih fuel depth rest w htr hwf hp hdepth hv (by simp at hfuel; omega)
  | @leave parent c cs v v' hc hleft _ ih =>
    intro fuel depth rest w htr hwf hp hdepth hv hfuel
    obtain ⟨fuel, rfl⟩ : ∃ f, fuel = f + 1 := ⟨fuel - 1, by simp at hfuel; omega⟩
    obtain ⟨r, hr⟩ := reason?_of_left hleft
    have hskip := unseenChildren_cons_le c w.seen s.items
    rw [framesOf_cons, List.cons_append, walk_leave (fun h => hc ((htr.mem_seen c).mp h)) hr]
    exact ih fuel depth rest _ (htr.skip hr) (hwf.skip hc) hp hdepth hv (by simp at hfuel ⊢; omega)
  | @place parent c cs v v₁ v' n hc hn hu sub rest ihsub ihrest =>
    intro fuel depth frames w htr hwf hp hdepth hv hfuel
    obtain ⟨fuel, rfl⟩ : ∃ f, fuel = f + 1 := ⟨fuel - 1, by simp at hfuel; omega⟩
    have hc' : c ∉ w.seen := fun h => hc ((htr.mem_seen c).mp h)
    have hwfp : (v.place ⟨c, parent, n⟩).WellFormed := hwf.place hc hp
    obtain ⟨hwf₁, hext₁⟩ := sub.wellFormed hwfp (by simp)
    have hids : v.ids <+: v₁.ids := ((Visit.Extends.place _ _).trans hext₁).ids
    have hp₁ : ∀ x ∈ parent, x ∈ v₁.ids := fun x hx => hids.subset (hp x hx)
    obtain ⟨hwf', hext'⟩ := rest.wellFormed hwf₁ hp₁
    -- the placement's frame carries its level; its children's frames the level below
    have hlen : w.nodes.length = v.placed.length := by rw [htr.nodes, List.length_map]
    have hexceeds : limits.Exceeds (v.place ⟨c, parent, n⟩) ↔
        (0 < limits.maxDepth ∧ limits.maxDepth < (depth : Int)) ∨
          (0 < limits.maxNodes ∧ limits.maxNodes ≤ (w.nodes.length : Int)) := by
      rw [Limits.exceeds_place hv hwf hc, hdepth, hlen]
    rw [framesOf_cons, List.cons_append]
    rcases @walk_place _ limits _ fuel ⟨c, parent.map v.ids.idxOf, depth⟩
        (framesOf cs (parent.map v.ids.idxOf) depth ++ frames) _ _ hc' hn hu (hchecks c n hn) with ⟨hbad, e, he, hfault⟩ | ⟨hgood, heq⟩
    · exact .inl ⟨((hexceeds.mpr hbad).extend hext₁ hwf₁).extend hext' hwf', e, he, hfault⟩
    have hvp : ¬ limits.Exceeds (v.place ⟨c, parent, n⟩) := fun h => hgood (hexceeds.mp h)
    have hidx : some w.nodes.length = (some c).map (v.place ⟨c, parent, n⟩).ids.idxOf := by
      simp only [Option.map_some, Visit.place_ids, idxOf_placed hwf hc, hlen]
    have hsee := unseenChildren_see hc' s.items hn
    rw [heq, hidx]
    rcases ihsub fuel (depth + 1) (framesOf cs (parent.map v.ids.idxOf) depth ++ frames) _
        (htr.place hwf hn hu hp) hwfp (by simp)
        (by rw [hdepth, Option.elim_some, Visit.level_place, if_pos rfl]) hvp (by simp at hfuel ⊢; omega) with
      ⟨hbad₁, e, he, hfault⟩ | ⟨hgood₁, fuel₁, w₁, htr₁, hfuel₁, heq₁⟩
    · exact .inl ⟨hbad₁.extend hext' hwf', e, he, hfault⟩
    have hpar : parent.map v₁.ids.idxOf = parent.map v.ids.idxOf := by
      cases hq : parent with
      | none => rfl
      | some x => simp [(hids.idxOf_eq_of_mem (hp x hq)).symm]
    have hdepth₁ : depth = parent.elim 0 v₁.level + 1 := by
      cases hq : parent with
      | none => simpa [hq] using hdepth
      | some x =>
        have hx := hp x hq
        rw [hdepth, hq, Option.elim_some, Option.elim_some,
          Visit.level_of_extends ((Visit.Extends.place _ _).trans hext₁) hwf₁ hx]
    rw [heq₁, ← hpar]
    exact ihrest fuel₁ depth frames w₁ htr₁ hwf₁ hp₁ hdepth₁ hgood₁ (by simp at hfuel₁ ⊢; omega)

theorem walk_unlimited (hchecks : ∀ c n, s.node? c = some n → checkNode catalog c n = .ok ()) :
    ∀ (fuel : Nat) (stack : List Frame) (w : Walk), ∃ w', walk catalog ⟨0, 0⟩ s fuel stack w = .ok w'
  | 0, _, w => ⟨w, rfl⟩
  | _ + 1, [], w => ⟨w, rfl⟩
  | fuel + 1, f :: stack, w => by
    by_cases hseen : f.clientId ∈ w.seen
    · rw [walk_seen hseen]
      exact walk_unlimited hchecks fuel stack w
    cases hr : s.reason? f.clientId with
    | some r =>
      rw [walk_leave hseen hr]
      exact walk_unlimited hchecks fuel stack _
    | none =>
      obtain ⟨hsome, hu⟩ := Snapshot.reason?_eq_none.mp hr
      obtain ⟨n, hn⟩ := Option.isSome_iff_exists.mp hsome
      rcases @walk_place _ ⟨0, 0⟩ _ fuel _ stack _ _ hseen hn hu
          (hchecks _ n hn) with ⟨hbad, -⟩ | ⟨-, heq⟩
      · simp at hbad
      · rw [heq]
        exact walk_unlimited hchecks fuel _ _

end Plan

namespace Plan

variable {catalog : Catalog} {limits : Limits} {s : Snapshot} {d : Document} {root : SnapshotNode}

theorem checks_of_entries (h : ∀ e ∈ s.items, checkNode catalog e.1 e.2 = .ok ()) :
    ∀ c n, s.node? c = some n → checkNode catalog c n = .ok () := by
  intro c n hn
  obtain ⟨e, he, rfl⟩ := Option.map_eq_some_iff.mp hn
  have hc : e.1 = c := by simpa using List.find?_some he
  rw [← hc]
  exact h e (List.mem_of_find?_eq_some he)

theorem make_of_walk (hsnap : checkSnapshot s = .ok ()) (hroot : resolveRoot d s = .ok root)
    (hcheck : checkNode catalog s.rootItem root = .ok ()) :
    (∀ e, walk catalog limits s (walkFuel s) (framesOf root.children none 1) ⟨[], [s.rootItem], []⟩ =
        .error e → Plan.make catalog limits d s = .error e) ∧
    (∀ w, walk catalog limits s (walkFuel s) (framesOf root.children none 1) ⟨[], [s.rootItem], []⟩ =
        .ok w → ∃ p, Plan.make catalog limits d s = .ok p) := by
  constructor
  · intro e he
    simp only [Plan.make, hsnap, hroot, hcheck, he, bind, Except.bind]
  · intro w hw
    simp only [Plan.make, hsnap, hroot, hcheck, hw, bind, Except.bind]
    exact ⟨_, rfl⟩

end Plan

/-- The caps are exact. For a snapshot that names the document's root and whose nodes all pass
their checks, planning under any limits fails, as too large and so as invalid, exactly when the
reference walk places a node more levels below the root than the depth limit or more nodes than
the count limit, a limit of zero or less being none; otherwise it succeeds. Client ids that are
missing, malformed, unreachable or repeated count toward neither cap. -/
theorem plan_fails_iff_caps_exceeded {catalog : Catalog} {limits : Limits} {d : Document}
    {s : Snapshot} {root : SnapshotNode} (hsnap : Plan.checkSnapshot s = .ok ())
    (hroot : Plan.resolveRoot d s = .ok root)
    (hnodes : ∀ c n, s.node? c = some n → Plan.checkNode catalog c n = .ok ()) :
    ∃ v, s.Walked v ∧
      ((∃ e, Plan.make catalog limits d s = .error e ∧ e.meets .tooLarge ∧ e.meets .validation) ↔
        limits.Exceeds v) ∧
      (¬ limits.Exceeds v → ∃ p, Plan.make catalog limits d s = .ok p) := by
  obtain ⟨hnode, hvalid⟩ := Plan.resolveRoot_ok hroot
  have hcheck := hnodes _ _ hnode
  have hreason : s.reason? s.rootItem = none := Snapshot.reason?_eq_none.mpr ⟨by simp [hnode], hvalid⟩
  -- the reference walk is where planning without limits ends
  obtain ⟨w, hw⟩ := Plan.walk_unlimited hnodes (Plan.walkFuel s) (Plan.framesOf root.children none 1)
    ⟨[], [s.rootItem], []⟩
  obtain ⟨p, hp⟩ := (@Plan.make_of_walk _ ⟨0, 0⟩ _ _ _ hsnap hroot hcheck).2 w hw
  obtain ⟨v, hv, -⟩ := Plan.make_placements hp
  have hex : Explores s none root.children ⟨[s.rootItem], []⟩ v := by
    unfold Snapshot.Walked Snapshot.rootChildren at hv
    rwa [hnode] at hv
  have hstart : ¬ limits.Exceeds ⟨[s.rootItem], []⟩ := by
    rintro (⟨-, p, hp, -⟩ | ⟨hpos, hmany⟩)
    · cases hp
    · simp at hmany
      omega
  refine ⟨v, hv, ?_⟩
  rcases @Plan.walk_caps _ limits _ hnodes _ _ _ _ hex (Plan.walkFuel s) 1 [] _ (Plan.Walk.Tracks.start hreason)
      (Plan.wellFormed_start s.rootItem) (by simp) rfl hstart (by simpa using Plan.walkFuel_start hnode) with
    ⟨hbad, e, he, hfault⟩ | ⟨hgood, fuel, w', -, -, heq⟩
  · -- the limits are broken, and planning stops as too large
    have hmake := (Plan.make_of_walk hsnap hroot hcheck).1 e (by simpa using he)
    have hmeets : e.meets .tooLarge ∧ e.meets .validation := by
      simp [Failure.meets, hfault, Fault.meets]
    exact ⟨iff_of_true ⟨e, hmake, hmeets⟩ hbad, fun h => absurd hbad h⟩
  · -- the limits are kept, and planning succeeds
    obtain ⟨p, hp⟩ := (Plan.make_of_walk hsnap hroot hcheck).2 w' (by simpa [Plan.walk_nil] using heq)
    refine ⟨iff_of_false (fun ⟨e, he, _⟩ => ?_) hgood, fun _ => ⟨p, hp⟩⟩
    rw [hp] at he
    cases he

/-- A snapshot of the first document: under the root a child, under that child another. -/
def chainSnapshot : Snapshot :=
  ⟨Uuid.minted 2, none,
    [(Uuid.minted 2, ⟨"", none, 0, ["00000000-0000-4000-8000-0000000000aa"], none, []⟩),
     ("00000000-0000-4000-8000-0000000000aa",
      ⟨"", none, 0, ["00000000-0000-4000-8000-0000000000bb"], none, []⟩),
     ("00000000-0000-4000-8000-0000000000bb", ⟨"", none, 0, [], none, []⟩)]⟩

deriving instance DecidableEq for SnapshotNode

/-- The chain passes every check, so planning it under a depth limit of one level fails exactly
when its reference walk goes deeper. -/
theorem chain_planning_caps :
    Plan.checkSnapshot chainSnapshot = .ok () ∧
      Plan.resolveRoot ⟨Uuid.minted 1, "alice", some (Uuid.minted 2), none, false, default, none⟩ chainSnapshot =
        .ok ⟨"", none, 0, ["00000000-0000-4000-8000-0000000000aa"], none, []⟩ ∧
      (∀ c n, chainSnapshot.node? c = some n → Plan.checkNode Catalog.standard c n = .ok ()) ∧
      ∃ v, chainSnapshot.Walked v ∧
        ((∃ e, Plan.make Catalog.standard ⟨1, 0⟩ ⟨Uuid.minted 1, "alice", some (Uuid.minted 2), none, false, default, none⟩
            chainSnapshot = .error e ∧ e.meets .tooLarge ∧ e.meets .validation) ↔
          (⟨1, 0⟩ : Limits).Exceeds v) ∧
        (¬ (⟨1, 0⟩ : Limits).Exceeds v → ∃ p, Plan.make Catalog.standard ⟨1, 0⟩
          ⟨Uuid.minted 1, "alice", some (Uuid.minted 2), none, false, default, none⟩ chainSnapshot = .ok p) := by
  have hsnap : Plan.checkSnapshot chainSnapshot = .ok () := by decide +kernel
  have hroot : Plan.resolveRoot ⟨Uuid.minted 1, "alice", some (Uuid.minted 2), none, false, default, none⟩ chainSnapshot =
      .ok ⟨"", none, 0, ["00000000-0000-4000-8000-0000000000aa"], none, []⟩ := by decide +kernel
  have hentries : ∀ e ∈ chainSnapshot.items, Plan.checkNode Catalog.standard e.1 e.2 = .ok () := by
    decide +kernel
  have hnodes := Plan.checks_of_entries hentries
  exact ⟨hsnap, hroot, hnodes, plan_fails_iff_caps_exceeded hsnap hroot hnodes⟩

end Outliner
