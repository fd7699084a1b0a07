import Mathlib
import Outliner.Proofs.SessionIndex
import Outliner.Proofs.InstantText
/-!
# Login stamps and ascending sets in every run of the session store

The clock reads one second later each time it is read: its `n`-th reading is `clockAt n`.
-/

set_option autoImplicit false

namespace Outliner.Session

open KeyValue Server Time

/-! ## The clock -/

theorem now_run (st : SessionStore) :
    now.run.run st = (.ok (st.clock (st.readings + 1)), { st with readings := st.readings + 1 }) :=
  rfl

theorem clockAt_before (m n : Nat) : (clockAt m).before (clockAt n) = decide (m < n) := by
  simp [clockAt, Instant.before]

theorem read_clockAt_text {n : Nat} {t : Instant} (h : Instant.read (clockAt n).text = .ok t) :
    t = clockAt n := by
  have hepoch : 0 ≤ epoch.seconds ∧ epoch.offset = 0 ∧ epoch.nanos = 0 := by decide
  exact Instant.read_text hepoch.2.1 hepoch.2.2 (by simp only [clockAt]; omega) h

theorem SessionData.read_lastLogin {d d' : SessionData} (h : SessionData.parse d.text = .ok d') :
    Instant.read d.lastLogin.text = .ok d'.lastLogin := by
  unfold SessionData.parse at h
  split at h
  · cases h
  · rw [SessionData.read?_text] at h
    dsimp only at h
    rw [SessionData.ofJson_toJson] at h
    cases hc : Instant.read d.created.text with
    | error e =>
      rw [hc] at h
      cases h
    | ok c =>
      cases hl : Instant.read d.lastLogin.text with
      | error e =>
        rw [hc, hl] at h
        cases h
      | ok l =>
        simp only [hc, hl] at h
        cases h
        rfl

theorem SessionData.parse_text_lastLogin {d d' : SessionData} (h : SessionData.parse d.text = .ok d')
    (hread : ∀ t, Instant.read d.lastLogin.text = .ok t → t = d.lastLogin) : d'.lastLogin = d.lastLogin :=
  hread _ (SessionData.read_lastLogin h)

/-- A clock that moves forward at every reading, each reading reading back as itself. -/
structure Advancing (clock : Nat → Instant) : Prop where
  forward : ∀ m n, m < n → (clock m).before (clock n) = true
  reads_back : ∀ n t, Instant.read (clock n).text = .ok t → t = clock n

theorem advancing_clockAt : Advancing clockAt :=
  ⟨fun m n h => by rw [clockAt_before]; exact decide_eq_true h, fun _ _ h => read_clockAt_text h⟩

/-! ## Ascending sets -/

theorem pairwise_insertSorted (x : String) {l : List String} (h : l.Pairwise (· < ·)) :
    (insertSorted x l).Pairwise (· < ·) := by
  induction l with
  | nil => exact List.pairwise_singleton _ x
  | cons y ys ih =>
    obtain ⟨hy, hys⟩ := List.pairwise_cons.mp h
    unfold insertSorted
    by_cases hxy : x = y
    · rw [if_pos hxy]
      exact h
    rw [if_neg hxy]
    by_cases hlt : x < y
    · rw [if_pos hlt]
      refine List.Pairwise.cons (fun b hb => ?_) h
      rcases List.mem_cons.mp hb with rfl | hb
      · exact hlt
      · exact lt_trans hlt (hy b hb)
    · rw [if_neg hlt]
      have hyx : y < x := lt_of_le_of_ne (not_lt.mp hlt) (Ne.symm hxy)
      refine List.Pairwise.cons (fun b hb => ?_) (ih hys)
      rcases mem_insertSorted hb with rfl | hb
      · exact hyx
      · exact hy b hb

theorem pairwise_foldl_insertSorted (ms : List String) {acc : List String}
    (h : acc.Pairwise (· < ·)) : (ms.foldl (fun acc m => insertSorted m acc) acc).Pairwise (· < ·) := by
  induction ms generalizing acc with
  | nil => exact h
  | cons m ms ih => exact ih (pairwise_insertSorted m h)

/-! ## What a key may hold -/

/-- A session record written with a last login among the first `n` readings of `clock`. -/
def Stamped (clock : Nat → Instant) (n : Nat) (t : String) : Prop :=
  ∃ d : SessionData, t = d.text ∧ ∃ m ≤ n, d.lastLogin = clock m

/-- What the store may keep under key `k` once the clock was read `n` times: a set is ascending,
a user's index is a set, a session record is stamped. -/
structure Fits (clock : Nat → Instant) (n : Nat) (k : String) (v : Slot) : Prop where
  ascending : ∀ ms, v.entry = .members ms → ms.Pairwise (· < ·)
  index : ∀ u t, k = userKey u → v.entry ≠ .text t
  stamped : ∀ id t, k = sessionKey id → v.entry = .text t → Stamped clock n t

/-- Every key of the server holds what fits it. -/
def Orderly (clock : Nat → Instant) (n : Nat) (s : Server) : Prop :=
  ∀ k v, s.slot? k = some v → Fits clock n k v

variable {clock : Nat → Instant} {n : Nat} {k : String} {v : Slot} {s : Server}

theorem Fits.mono (h : Fits clock n k v) {n' : Nat} (hn : n ≤ n') : Fits clock n' k v where
  ascending := h.ascending
  index := h.index
  stamped id t hk hv := by
    obtain ⟨d, rfl, m, hm, hd⟩ := h.stamped id t hk hv
    exact ⟨d, rfl, m, hm.trans hn, hd⟩

theorem Fits.members {ms : List String} (hms : ms.Pairwise (· < ·)) (hk : ∀ id, k ≠ sessionKey id)
    (ttl : Option Nat) : Fits clock n k ⟨.members ms, ttl⟩ where
  ascending _ h := by
    cases h
    exact hms
  index _ _ _ h := by cases h
  stamped id _ h := absurd h (hk id)

theorem Fits.text {t : String} (hk : ∀ u, k ≠ userKey u) (ht : ∀ id, k = sessionKey id → Stamped clock n t)
    (ttl : Option Nat) : Fits clock n k ⟨.text t, ttl⟩ where
  ascending _ h := by cases h
  index u _ h := absurd h (hk u)
  stamped id _ h he := by
    cases he
    exact ht id h

theorem Fits.ttl (h : Fits clock n k v) (ttl : Option Nat) : Fits clock n k { v with ttl := ttl } :=
  ⟨h.ascending, h.index, h.stamped⟩

theorem Orderly.put (h : Orderly clock n s) (hv : Fits clock n k v) : Orderly clock n (s.put k v) := by
  intro k' v' hs
  rw [slot?_put] at hs
  split at hs
  · rename_i hk
    cases hs
    exact hk ▸ hv
  · exact h k' v' hs

theorem Orderly.remove (h : Orderly clock n s) (k : String) : Orderly clock n (s.remove k) := by
  intro k' v' hs
  rw [slot?_remove] at hs
  split at hs
  · cases hs
  · exact h k' v' hs

theorem Orderly.mono (h : Orderly clock n s) {n' : Nat} (hn : n ≤ n') : Orderly clock n' s :=
  fun k v hs => (h k v hs).mono hn

theorem Orderly.setOf (h : Orderly clock n s) (k : String) : (s.setOf k).Pairwise (· < ·) := by
  unfold Server.setOf
  split
  · rename_i ms ttl hs
    exact (h k _ hs).ascending ms rfl
  · exact List.Pairwise.nil

theorem Orderly.index (h : Orderly clock n s) (u t : String) (ttl : Option Nat) :
    s.slot? (userKey u) ≠ some ⟨.text t, ttl⟩ :=
  fun hs => (h _ _ hs).index u t rfl rfl

/-! ## Commands keep the server orderly -/

section Commands

theorem preserves_batch_of {I : Server → Prop} :
    ∀ cs : List (ServerM Unit), (∀ c ∈ cs, Preserves I c) → Preserves I (batch cs)
  | [], _ => Preserves.pure ()
  | c :: cs, h => by
    unfold batch
    refine (Preserves.tryCatch ((h c (List.mem_cons_self ..)).bind fun _ => Preserves.pure _)
      fun _ => Preserves.pure _).bind fun r => ?_
    have hcs := preserves_batch_of cs fun c' hc' => h c' (List.mem_cons_of_mem _ hc')
    cases r with
    | none => exact hcs
    | some e => exact (Preserves.tryCatch hcs fun _ => Preserves.pure _).bind fun _ => Preserves.throw e

theorem orderly_members (k : String) : Preserves (Orderly clock n) (members k) := by
  intro s h
  rw [members_state]
  exact h

theorem orderly_setText {t : String} {ttl : Option Nat} (hv : Fits clock n k ⟨.text t, ttl⟩) :
    Preserves (Orderly clock n) (setText k t ttl) := by
  intro s h
  rw [setText_state]
  split
  · exact h.put hv
  · exact h

theorem orderly_delete (k : String) : Preserves (Orderly clock n) (delete k) := by
  intro s h
  rw [delete_state]
  split
  · exact h.remove k
  · exact h

theorem orderly_expire (k : String) (ttl : Nat) : Preserves (Orderly clock n) (expire k ttl) :=
  Preserves.bind (fun s h => by rw [available_run]; exact h) fun _ =>
    Preserves.get_bind fun s h => by
      split
      · rename_i v hs
        exact h.put ((h k v hs).ttl _)
      · exact h

theorem orderly_addMembers (u : String) (ms : List String) :
    Preserves (Orderly clock n) (addMembers (userKey u) ms) :=
  Preserves.bind (fun s h => by rw [available_run]; exact h) fun _ =>
    Preserves.get_bind fun s h => by
      have hk : ∀ id, userKey u ≠ sessionKey id := fun id he => sessionKey_ne_userKey id u he.symm
      split
      · exact h.put (Fits.members (pairwise_foldl_insertSorted ms List.Pairwise.nil) hk none)
      · rename_i old ttl hs
        exact h.put (Fits.members (pairwise_foldl_insertSorted ms ((h _ _ hs).ascending old rfl)) hk ttl)
      · exact h

theorem orderly_removeMembers (u : String) (ms : List String) :
    Preserves (Orderly clock n) (removeMembers (userKey u) ms) :=
  Preserves.bind (fun s h => by rw [available_run]; exact h) fun _ =>
    Preserves.get_bind fun s h => by
      have hk : ∀ id, userKey u ≠ sessionKey id := fun id he => sessionKey_ne_userKey id u he.symm
      split
      · exact h
      · rename_i old ttl hs
        simp only [run_set]
        split
        · exact h.remove _
        · exact h.put (Fits.members (((h _ _ hs).ascending old rfl).filter _) hk ttl)
      · exact h

end Commands

/-! ## Every call keeps the store tidy -/

/-- What every run of store calls keeps besides the index invariant, for the bound `keep`: the
bound, and an orderly server for the clock's readings so far. -/
structure Tidy (clock : Nat → Instant) (keep : Int) (st : SessionStore) : Prop where
  keep : st.keep = keep
  clocked : st.clock = clock
  orderly : Orderly clock st.readings st.server

variable {keep : Int}

theorem Tidy.after_command {α : Type} {st : SessionStore} (h : Tidy clock keep st) (step : String) {x : ServerM α}
    (hx : Preserves (Orderly clock st.readings) x) : Tidy clock keep ((command step x).run.run st).2 := by
  rw [command_server]
  exact ⟨h.keep, h.clocked, hx _ h.orderly⟩

theorem tidy_command {α : Type} (step : String) {x : ServerM α}
    (hx : ∀ n, Preserves (Orderly clock n) x) : Preserves (Tidy clock keep) (command step x) :=
  fun st h => h.after_command step (hx st.readings)

theorem tidy_now : Preserves (Tidy clock keep) now := by
  intro st h
  rw [now_run]
  exact ⟨h.keep, h.clocked, h.orderly.mono (Nat.le_succ _)⟩

theorem tidy_load (id : String) : Preserves (Tidy clock keep) (load id) := by
  intro st h
  rw [load_state]
  exact h

theorem tidy_load? (id : String) : Preserves (Tidy clock keep) (load? id) := by
  intro st h
  rw [load?_state]
  exact h

theorem tidy_listByUser (user : String) : Preserves (Tidy clock keep) (listByUser user) := by
  unfold listByUser
  dsimp only
  refine (tidy_command _ fun _ => orderly_members _).bind fun ids => ?_
  refine (Preserves.foldlM (fun acc id => ?_) ids _).bind fun r => ?_
  · exact (tidy_load? id).bind fun d => by split <;> exact Preserves.pure _
  · exact Preserves.ite ((tidy_command _ fun _ => orderly_removeMembers _ _).bind fun _ =>
      Preserves.pure _) (Preserves.pure _)

theorem fits_revoked (id user : String) (ttl : Option Nat) : Fits clock n (revokedKey id) ⟨.text user, ttl⟩ :=
  Fits.text (fun u he => userKey_ne_revokedKey u id he.symm)
    (fun id' he => absurd he.symm (sessionKey_ne_revokedKey id' id)) ttl

theorem tidy_revokeFor (user id : String) : Preserves (Tidy clock keep) (revokeFor user id) := by
  refine tidy_command _ fun _ => preserves_batch_of _ fun c hc => ?_
  simp only [List.mem_cons, List.not_mem_nil, or_false] at hc
  rcases hc with rfl | rfl | rfl
  · exact orderly_delete _
  · exact orderly_removeMembers _ _
  · exact orderly_setText (fits_revoked _ _ _)

theorem tidy_trimOldest (user : String) (k : Int) : Preserves (Tidy clock keep) (trimOldest user k) := by
  unfold trimOldest
  refine Preserves.ite (Preserves.pure _) ((tidy_listByUser user).bind fun ds => ?_)
  refine Preserves.ite (Preserves.pure _)
    ((Preserves.forIn (fun d _ => ?_) _ _).bind fun _ => Preserves.pure _)
  exact (tidy_revokeFor user _).bind fun _ => Preserves.pure _

theorem Tidy.save {st : SessionStore} (h : Tidy clock keep st) (user id : String) {data : SessionData}
    (hd : data.lastLogin = clock st.readings) :
    Tidy clock keep ((command "save session" (batch [setText (sessionKey id) data.text (some lifetime),
      addMembers (userKey user) [id], expire (userKey user) lifetime])).run.run st).2 := by
  refine h.after_command _ (preserves_batch_of _ fun c hc => ?_)
  simp only [List.mem_cons, List.not_mem_nil, or_false] at hc
  rcases hc with rfl | rfl | rfl
  · exact orderly_setText (Fits.text (sessionKey_ne_userKey id)
      (fun _ _ => ⟨data, rfl, st.readings, le_rfl, hd⟩) _)
  · exact orderly_addMembers _ _
  · exact orderly_expire _ _

/-- The rest of a recording once its record `data` is built keeps the store tidy, whether the
record marshals or not. -/
theorem tidy_save_trim (user id : String) {data : SessionData} {st : SessionStore} (h : Tidy clock keep st)
    (hd : data.lastLogin = clock st.readings) :
    Tidy clock keep ((do
      let text ← marshal data
      command "save session" (batch [setText (sessionKey id) text (some lifetime),
        addMembers (userKey user) [id], expire (userKey user) lifetime])
      let st ← get
      trimOldest user st.keep
      pure data : SessionM SessionData).run.run st).2 := by
  rcases marshal_bind_run data _ st with ⟨e, hm⟩ | hm
  · rw [hm]
    exact h
  · rw [hm]
    exact Preserves.after_bind (h.save user id hd) fun _ =>
      Preserves.get_bind fun st hst => ((tidy_trimOldest user st.keep).bind fun _ => Preserves.pure data) st hst

theorem tidy_record (user id ip : String) : Preserves (Tidy clock keep) (record user id ip) := by
  unfold record
  dsimp only
  intro st h
  rw [run_bind, now_run]
  dsimp only
  have h₁ : Tidy clock keep { st with readings := st.readings + 1 } := tidy_now st h
  rw [run_bind]
  have hl₁ := load?_state id { st with readings := st.readings + 1 }
  rcases hl : (load? id).run.run { st with readings := st.readings + 1 } with ⟨rl, st₂⟩
  rw [hl] at hl₁
  subst hl₁
  cases rl with
  | error e => exact h₁
  | ok r =>
    dsimp only
    cases r with
    | none =>
      rw [run_bind]
      exact tidy_save_trim user id h₁ (congrFun h.clocked _)
    | some d =>
      dsimp only
      split
      · rw [run_bind]
        exact h₁
      · rw [run_bind]
        exact tidy_save_trim user id h₁ (congrFun h.clocked _)

theorem tidy_revoke (user id : String) : Preserves (Tidy clock keep) (revoke user id) := by
  unfold revoke
  exact (tidy_load id).bind fun _ =>
    Preserves.ite ((Preserves.throw _).bind fun _ => tidy_revokeFor user id) (tidy_revokeFor user id)

theorem StoreCall.tidy (c : StoreCall) : Preserves (Tidy clock keep) c.run := by
  cases c with
  | record u id ip => exact (tidy_record u id ip).map _
  | revoke u id => exact tidy_revoke u id
  | listByUser u => exact (tidy_listByUser u).map _
  | trimOldest u k => exact tidy_trimOldest u k

theorem tidy_fresh (clock : Nat → Instant) (keep : Int) : Tidy clock keep (SessionStore.fresh clock keep) :=
  ⟨rfl, rfl, fun _ _ h => by cases h⟩

theorem Tidy.runCalls {st : SessionStore} (h : Tidy clock keep st) (cs : List StoreCall) :
    Tidy clock keep (runCalls cs st) := by
  induction cs generalizing st with
  | nil => exact h
  | cons c cs ih => exact ih (c.tidy st h)

end Outliner.Session
