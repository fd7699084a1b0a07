import Mathlib
import Outliner.Proofs.SessionStamps
/-!
# Listing and revoking on a server that is up

A listing of a user's sessions is specified by `Listing`: its records are those the user's index
loads as, each once per entry, newest login first.
-/

set_option autoImplicit false

namespace Outliner.Session

open KeyValue Server Time

section Running

variable {ε σ α β : Type}

theorem Answers.run_eq {P : σ → Prop} {Q : α → Prop} {x : ExceptT ε (StateM σ) α} {s s' : σ} {a : α}
    (h : Answers P x Q) (hs : P s) (hx : x.run.run s = (.ok a, s')) : P s' ∧ Q a := by
  have h' := h s hs
  rw [hx] at h'
  exact ⟨h'.1, h'.2 a rfl⟩

theorem foldlM_bind_run {γ : Type} {f : β → α → ExceptT ε (StateM σ) β} {g : β → ExceptT ε (StateM σ) γ}
    {s : σ} {P : Except ε γ × σ → Prop} (R : List α → β → Prop) (xs : List α)
    (hf : ∀ pre a post b, xs = pre ++ a :: post → R pre b →
      ∃ b', (f b a).run.run s = (.ok b', s) ∧ R (pre ++ [a]) b')
    (b : β) (hb : R [] b) (hg : ∀ b', R xs b' → P ((g b').run.run s)) :
    P ((xs.foldlM f b >>= g).run.run s) := by
  -- the fold over what is left after a prefix already folded into `b`
  have key : ∀ rest pre b, xs = pre ++ rest → R pre b →
      ∃ b', (rest.foldlM f b).run.run s = (.ok b', s) ∧ R xs b' := by
    intro rest
    induction rest with
    | nil =>
      intro pre b h hb
      rw [List.append_nil] at h
      subst h
      exact ⟨b, rfl, hb⟩
    | cons a rest ih =>
      intro pre b h hb
      obtain ⟨b', hstep, hR⟩ := hf pre a rest b h hb
      obtain ⟨b'', hrun, hR'⟩ := ih (pre ++ [a]) b' (by simp [h]) hR
      refine ⟨b'', ?_, hR'⟩
      rw [List.foldlM_cons, run_bind, hstep]
      exact hrun
  obtain ⟨b', hrun, hR⟩ := key xs [] b rfl hb
  rw [run_bind, hrun]
  exact hg b' hR

end Running

/-! ## Commands on a server that is up -/

section Up

variable {k : String} {s : Server}

theorem getText_run {t : String} {ttl : Option Nat} (hup : s.outage = "")
    (h : s.slot? k = some ⟨.text t, ttl⟩) : (getText k).run.run s = (.ok (some t), s) := by
  unfold getText
  rw [available_get_run, if_pos hup]
  rw [h]
  rfl

theorem members_run (hup : s.outage = "") (hk : ∀ t ttl, s.slot? k ≠ some ⟨.text t, ttl⟩) :
    (members k).run.run s = (.ok (s.setOf k), s) := by
  unfold members Server.setOf
  rw [available_get_run, if_pos hup]
  cases hs : s.slot? k with
  | none => rfl
  | some v =>
    rcases v with ⟨e, ttl⟩
    cases e with
    | text t => exact absurd hs (hk t ttl)
    | members ms => rfl

theorem mem_setOf_removeMembers_of {m : String} {ms : List String} (hup : s.outage = "")
    (hm : m ∈ s.setOf k) (hx : m ∉ ms) : m ∈ ((removeMembers k ms).run.run s).2.setOf k := by
  unfold removeMembers
  rw [available_get_run, if_pos hup]
  split
  · exact hm
  · rename_i old ttl hs
    rw [run_set]
    dsimp only
    have hm' : m ∈ old.filter fun m => !ms.contains m := by
      rw [Server.setOf, hs] at hm
      simpa using ⟨hm, hx⟩
    rw [if_neg fun he => by rw [List.isEmpty_iff.mp he] at hm'; cases hm']
    simpa [Server.setOf, slot?_put] using hm'
  · exact hm

theorem delete_ok (hup : s.outage = "") : ((delete k).run.run s).1 = .ok () := by
  unfold delete
  rw [run_bind, available_run, if_pos hup]
  rfl

theorem setText_ok {t : String} {ttl : Option Nat} (hup : s.outage = "") :
    ((setText k t ttl).run.run s).1 = .ok () := by
  unfold setText
  rw [run_bind, available_run, if_pos hup]
  rfl

theorem removeMembers_ok {ms : List String} (hup : s.outage = "")
    (hk : ∀ t ttl, s.slot? k ≠ some ⟨.text t, ttl⟩) : ((removeMembers k ms).run.run s).1 = .ok () := by
  unfold removeMembers
  rw [available_get_run, if_pos hup]
  split
  · rfl
  · rfl
  · rename_i v hv hs
    rcases v with ⟨e, ttl⟩
    cases e with
    | text t => exact absurd hs (hk t ttl)
    | members old => exact absurd rfl (hv old ttl)

theorem batch_cons_run {c : ServerM Unit} {cs : List (ServerM Unit)} (h : (c.run.run s).1 = .ok ()) :
    (batch (c :: cs)).run.run s = (batch cs).run.run (c.run.run s).2 := by
  rw [batch]
  rw [run_bind, run_tryCatch', run_bind]
  rcases hc : c.run.run s with ⟨r, s'⟩
  rw [hc] at h
  cases h
  rfl

end Up

/-! ## Loading and listing -/

variable {st st' : SessionStore} {u id : String} {d : SessionData}

theorem load_run (hup : st.server.outage = "") (h : Loaded st id d) : (load id).run.run st = (.ok d, st) := by
  obtain ⟨t, ttl, hslot, hp⟩ := h
  unfold load
  rw [run_bind, command_run, getText_run hup hslot]
  dsimp only [Except.mapError]
  rw [hp]
  rfl

theorem load?_run (hup : st.server.outage = "") (h : Loaded st id d) :
    (load? id).run.run st = (.ok (some d), st) := by
  unfold load?
  rw [run_tryCatch', run_map, load_run hup h]
  rfl

theorem answers_load?_indexed (hI : IndexSound st) (hm : id ∈ st.server.setOf (userKey u)) :
    Answers (fun s => s = st) (load? id) (fun r => ∃ d, r = some d ∧ Loaded st id d) := by
  rintro s rfl
  rw [load?_state]
  refine ⟨rfl, fun r hr => ?_⟩
  cases r with
  | none =>
    obtain ⟨d, ttl, hslot, -⟩ := hI.indexed u id hm
    rw [load?_none hr] at hslot
    cases hslot
  | some d => exact ⟨d, rfl, load?_some hr⟩

/-- What a listing of `u`'s sessions on `st` answers: the records the entries of `u`'s index load
as, one per entry, newest login first. -/
structure Listing (st : SessionStore) (u : String) (ds : List SessionData) : Prop where
  perm : (ds.map SessionData.sessionId).Perm (st.server.setOf (userKey u))
  loaded : ∀ a ∈ ds, Loaded st a.sessionId a
  sorted : ds.Pairwise fun a b => a.lastLogin.before b.lastLogin = false

theorem IndexSound.forall₂_loaded (hI : IndexSound st) {ids : List String} {found : List SessionData}
    (h : List.Forall₂ (Loaded st) ids found) :
    found.map SessionData.sessionId = ids ∧ ∀ a ∈ found, Loaded st a.sessionId a := by
  induction h with
  | nil => exact ⟨rfl, fun _ h => by cases h⟩
  | @cons id a ids found hd _ ih =>
    have hid := hI.sessionId hd
    refine ⟨by rw [List.map_cons, ih.1, hid], fun b hb => ?_⟩
    rcases List.mem_cons.mp hb with rfl | hb
    · exact hid ▸ hd
    · exact ih.2 b hb

theorem Listing.of_forall₂ (hI : IndexSound st) {found : List SessionData}
    (h : List.Forall₂ (Loaded st) (st.server.setOf (userKey u)) found) :
    Listing st u (Time.newestFirst SessionData.lastLogin found) := by
  obtain ⟨hmap, hload⟩ := hI.forall₂_loaded h
  refine ⟨?_, fun a ha => hload a ((Time.mem_newestFirst _).mp ha), Time.newestFirst_pairwise _ found⟩
  rw [← hmap]
  exact (Time.newestFirst_perm _ found).map _

theorem listByUser_ok (hI : IndexSound st) {ds : List SessionData}
    (h : (listByUser u).run.run st = (.ok ds, st')) : st' = st ∧ Listing st u ds := by
  unfold listByUser at h
  dsimp only at h
  rw [run_bind, command_run, members_state] at h
  cases hms : ((members (userKey u)).run.run st.server).1 with
  | error e =>
    rw [hms] at h
    cases h
  | ok ms =>
    rw [hms] at h
    dsimp only [Except.mapError] at h
    have hids := members_ok hms
    subst hids
    refine (Answers.run_eq (?_ : Answers (fun s => s = st) _
      fun ds => ∃ found, List.Forall₂ (Loaded st) (st.server.setOf (userKey u)) found ∧
        ds = Time.newestFirst SessionData.lastLogin found) rfl h).elim fun hs hq => ?_
    swap
    · obtain ⟨found, hall, rfl⟩ := hq
      exact ⟨hs, Listing.of_forall₂ hI hall⟩
    -- every entry loads, so none is stale and the index is not pruned
    refine (Answers.foldlM_prefix (fun pre acc => acc.2 = [] ∧ List.Forall₂ (Loaded st) pre acc.1) _
      (fun pre a post acc hxs hacc => ?_) _ ⟨rfl, .nil⟩).bind fun r hr => ?_
    · refine (answers_load?_indexed hI (by rw [hxs]; simp)).bind fun r hl => ?_
      obtain ⟨d, rfl, hd⟩ := hl
      exact Answers.pure ⟨hacc.1, List.rel_append hacc.2 (.cons hd .nil)⟩
    · obtain ⟨found, stale⟩ := r
      obtain ⟨hstale, hall⟩ := hr
      dsimp only at hstale hall
      subst hstale
      simp only [List.isEmpty_nil, Bool.not_true, Bool.false_eq_true, if_false]
      exact Answers.pure ⟨found, hall, rfl⟩

theorem listByUser_run (hI : IndexSound st) (hup : st.server.outage = "")
    (hset : ∀ t ttl, st.server.slot? (userKey u) ≠ some ⟨.text t, ttl⟩)
    (hload : ∀ id ∈ st.server.setOf (userKey u), ∃ d, Loaded st id d) :
    ∃ ds, Listing st u ds ∧ (listByUser u).run.run st = (.ok ds, st) := by
  unfold listByUser
  dsimp only
  rw [run_bind, command_run, members_run hup hset]
  dsimp only [Except.mapError]
  refine foldlM_bind_run (P := fun p => ∃ ds, Listing st u ds ∧ p = (.ok ds, st))
    (fun pre acc => acc.2 = [] ∧ List.Forall₂ (Loaded st) pre acc.1) _
    (fun pre a post acc hxs hacc => ?_) ([], []) ⟨rfl, .nil⟩ fun r hr => ?_
  · obtain ⟨d, hd⟩ := hload a (by rw [hxs]; simp)
    refine ⟨(acc.1 ++ [d], acc.2), ?_, hacc.1, List.rel_append hacc.2 (.cons hd .nil)⟩
    rw [run_bind, load?_run hup hd]
    rfl
  · obtain ⟨found, stale⟩ := r
    obtain ⟨hstale, hall⟩ := hr
    dsimp only at hstale hall
    subst hstale
    exact ⟨Time.newestFirst SessionData.lastLogin found, Listing.of_forall₂ hI hall, rfl⟩

/-! ## Revoking sessions in turn -/

theorem revokedKey_inj {a b : String} (h : revokedKey a = revokedKey b) : a = b :=
  (String.append_right_inj _).1 h

theorem revokeFor_outage (user x : String) (st : SessionStore) :
    ((revokeFor user x).run.run st).2.server.outage = st.server.outage :=
  ((preserves_revokeFor user x : Preserves (Sparing x st.server) _) st ⟨rfl, fun h => h⟩).1

theorem revokeFor_mark_slot {user x y : String} (hy : y ≠ x) (st : SessionStore) :
    ((revokeFor user x).run.run st).2.server.slot? (revokedKey y) = st.server.slot? (revokedKey y) := by
  rw [revokeFor_server, setText_slot? (fun h => hy (revokedKey_inj h)),
    removeMembers_slot? (userKey_ne_revokedKey user y).symm, delete_slot?,
    if_neg fun h => sessionKey_ne_revokedKey x y h.2.symm]

theorem delete_session (x : String) {s : Server} (hup : s.outage = "") :
    ((delete (sessionKey x)).run.run s).2.outage = "" ∧
      ∀ u, ((delete (sessionKey x)).run.run s).2.setOf (userKey u) = s.setOf (userKey u) := by
  refine ⟨by rw [delete_state, if_pos hup]; exact hup, fun u => setOf_of_slot? ?_⟩
  rw [delete_slot?, if_neg fun h => sessionKey_ne_userKey _ _ h.2.symm]

theorem revokeFor_unlisted {user x m : String} {st : SessionStore} (hup : st.server.outage = "")
    (h : m ∈ ((revokeFor user x).run.run st).2.server.setOf (userKey user)) : m ≠ x := by
  rw [revokeFor_server, setOf_of_slot? (setText_slot? (userKey_ne_revokedKey _ _) _ _ _)] at h
  exact fun hx => (mem_setOf_removeMembers h).2 (delete_session x hup).1 (List.mem_singleton.mpr hx)

theorem revokeFor_keeps_member {user x m : String} {st : SessionStore} (hup : st.server.outage = "")
    (hm : m ∈ st.server.setOf (userKey user)) (hx : m ≠ x) :
    m ∈ ((revokeFor user x).run.run st).2.server.setOf (userKey user) := by
  rw [revokeFor_server, setOf_of_slot? (setText_slot? (userKey_ne_revokedKey _ _) _ _ _)]
  have hdel := delete_session x hup
  exact mem_setOf_removeMembers_of hdel.1 ((hdel.2 user).symm ▸ hm) fun h => hx (List.mem_singleton.mp h)

theorem revokeFor_ok {user x : String} {st : SessionStore} (hup : st.server.outage = "")
    (hset : ∀ t ttl, st.server.slot? (userKey user) ≠ some ⟨.text t, ttl⟩) :
    ((revokeFor user x).run.run st).1 = .ok () := by
  unfold revokeFor
  rw [command_run]
  have hdel := delete_session x hup
  have hset₁ : ∀ t ttl, ((delete (sessionKey x)).run.run st.server).2.slot? (userKey user) ≠
      some ⟨.text t, ttl⟩ := by
    rw [delete_slot?, if_neg fun h => sessionKey_ne_userKey _ _ h.2.symm]
    exact hset
  have hup₂ : ((removeMembers (userKey user) [x]).run.run
      ((delete (sessionKey x)).run.run st.server).2).2.outage = "" :=
    ((preserves_removeMembers (userKey_ne_revokedKey user x) [x] :
      Preserves (Spares (revokedKey x) ((delete (sessionKey x)).run.run st.server).2) _) _
        ⟨rfl, fun h => h⟩).1.trans hdel.1
  rw [batch_cons_run (delete_ok hup), batch_cons_run (removeMembers_ok hdel.1 hset₁),
    batch_cons_run (setText_ok hup₂)]
  rfl

/-- The store after revoking the sessions `xs` of `user`, one after the other. -/
def revokeEach (user : String) (xs : List String) (st : SessionStore) : SessionStore :=
  xs.foldl (fun st x => ((revokeFor user x).run.run st).2) st

theorem forIn_revokeFor_run {clock : Nat → Instant} {keep : Int} (user : String) (ds : List SessionData)
    {st : SessionStore} (ht : Tidy clock keep st) (hup : st.server.outage = "") :
    (forIn ds PUnit.unit fun old _ => do
        revokeFor user old.sessionId
        pure (ForInStep.yield PUnit.unit) : SessionM PUnit).run.run st =
      (.ok PUnit.unit, revokeEach user (ds.map SessionData.sessionId) st) := by
  induction ds generalizing st with
  | nil => rfl
  | cons old ds ih =>
    have hok := revokeFor_ok (x := old.sessionId) hup fun t ttl => ht.orderly.index user t ttl
    have ht₁ := tidy_revokeFor user old.sessionId st ht
    have hup₁ := (revokeFor_outage user old.sessionId st).trans hup
    rw [List.forIn_cons, run_bind, run_bind]
    show _ = (_, revokeEach user (ds.map SessionData.sessionId) ((revokeFor user old.sessionId).run.run st).2)
    rcases hr : (revokeFor user old.sessionId).run.run st with ⟨r, st₁⟩
    rw [hr] at hok ht₁ hup₁
    cases hok
    exact ih ht₁ hup₁

section Each

variable {user : String}

theorem revokeEach_outage (xs : List String) (st : SessionStore) :
    (revokeEach user xs st).server.outage = st.server.outage := by
  induction xs generalizing st with
  | nil => rfl
  | cons x xs ih => exact (ih _).trans (revokeFor_outage user x st)

theorem revokeEach_slot {y : String} {xs : List String} (hy : y ∉ xs) (st : SessionStore) :
    (revokeEach user xs st).server.slot? (sessionKey y) = st.server.slot? (sessionKey y) := by
  induction xs generalizing st with
  | nil => rfl
  | cons x xs ih =>
    obtain ⟨hyx, hys⟩ := not_or.mp (List.mem_cons.not.mp hy)
    rcases revokeFor_slot user x y st with hs | ⟨hyx', -⟩
    · exact (ih hys _).trans hs
    · exact absurd hyx' hyx

theorem revokeEach_mark_slot {y : String} {xs : List String} (hy : y ∉ xs) (st : SessionStore) :
    (revokeEach user xs st).server.slot? (revokedKey y) = st.server.slot? (revokedKey y) := by
  induction xs generalizing st with
  | nil => rfl
  | cons x xs ih =>
    obtain ⟨hyx, hys⟩ := not_or.mp (List.mem_cons.not.mp hy)
    exact (ih hys _).trans (revokeFor_mark_slot hyx st)

theorem mem_revokeEach_setOf {m : String} {xs : List String} {st : SessionStore}
    (hup : st.server.outage = "") :
    m ∈ (revokeEach user xs st).server.setOf (userKey user) ↔
      m ∈ st.server.setOf (userKey user) ∧ m ∉ xs := by
  induction xs generalizing st with
  | nil => simp [revokeEach]
  | cons x xs ih =>
    have hup₁ := (revokeFor_outage user x st).trans hup
    change m ∈ (revokeEach user xs ((revokeFor user x).run.run st).2).server.setOf (userKey user) ↔ _
    rw [ih hup₁, List.mem_cons, not_or]
    constructor
    · rintro ⟨hm, hxs⟩
      exact ⟨revokeFor_setOf hm, revokeFor_unlisted hup hm, hxs⟩
    · rintro ⟨hm, hx, hxs⟩
      exact ⟨revokeFor_keeps_member hup hm hx, hxs⟩

end Each

end Outliner.Session
