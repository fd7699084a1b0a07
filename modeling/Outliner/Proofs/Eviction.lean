import Mathlib
import Outliner.Proofs.SessionRuns
/-!
# Recording a login never evicts it

Recording a login reads the clock, saves the session's record stamped with that reading, lists the
user's sessions newest login first, and revokes every session past the newest `keep`.
-/

set_option autoImplicit false

namespace Outliner.Session

open KeyValue Server Time

variable {st st' : SessionStore} {u s : String} {keep : Int} {clock : Nat → Instant}

/-! ## Stamps read back -/

theorem Advancing.parse_lastLogin (hc : Advancing clock) {d d' : SessionData} {m : Nat}
    (hd : d.lastLogin = clock m) (h : SessionData.parse d.text = .ok d') : d'.lastLogin = d.lastLogin :=
  SessionData.parse_text_lastLogin h fun t ht => by
    rw [hd] at ht ⊢
    exact hc.reads_back m t ht

theorem Tidy.loaded_stamp (ht : Tidy clock keep st) (hc : Advancing clock) {x : String} {a : SessionData}
    (h : Loaded st x a) : ∃ m ≤ st.readings, a.lastLogin = clock m := by
  obtain ⟨t, ttl, hslot, hp⟩ := h
  obtain ⟨e, rfl, m, hm, he⟩ := (ht.orderly _ _ hslot).stamped x t rfl rfl
  exact ⟨m, hm, (hc.parse_lastLogin he hp).trans he⟩

theorem outage_runCalls (calls : List StoreCall) (st : SessionStore) :
    (runCalls calls st).server.outage = st.server.outage := by
  induction calls generalizing st with
  | nil => rfl
  | cons c cs ih => exact (ih _).trans ((c.preserves : Preserves (Sparing "" st.server) _) st ⟨rfl, fun h => h⟩).1

theorem isRevoked_run (hup : st.server.outage = "") (x : String) :
    ((isRevoked x).run.run st).1 = .ok (st.server.slot? (revokedKey x)).isSome := by
  unfold isRevoked
  rw [command_run, exists?_run, if_pos hup]
  rfl

/-! ## Listings -/

section Listings

variable {ds : List SessionData}

theorem Listing.exists_of_index (hL : Listing st u ds) {m : String}
    (hm : m ∈ st.server.setOf (userKey u)) : ∃ a ∈ ds, a.sessionId = m :=
  List.mem_map.mp (hL.perm.mem_iff.mpr hm)

theorem Listing.index_of_mem (hL : Listing st u ds) {a : SessionData} (ha : a ∈ ds) :
    a.sessionId ∈ st.server.setOf (userKey u) :=
  hL.perm.mem_iff.mp (List.mem_map_of_mem ha)

theorem Listing.nodup {n : Nat} (hL : Listing st u ds) (ho : Orderly clock n st.server) :
    (ds.map SessionData.sessionId).Nodup :=
  hL.perm.nodup_iff.mpr ((ho.setOf _).imp ne_of_lt)

theorem Listing.kept_not_before (hL : Listing st u ds) {k : Nat} {a e : SessionData}
    (ha : a ∈ ds.take k) (he : e ∈ ds.drop k) : a.lastLogin.before e.lastLogin = false := by
  have hsorted := hL.sorted
  rw [← List.take_append_drop k ds] at hsorted
  exact (List.pairwise_append.mp hsorted).2.2 a ha e he

theorem Listing.latest_kept (hL : Listing st u ds) (hnd : (ds.map SessionData.sessionId).Nodup)
    {k : Nat} (hk : 1 ≤ k) {b : SessionData}
    (hlate : ∀ a ∈ ds, a.sessionId ≠ b.sessionId → a.lastLogin.before b.lastLogin = true) :
    b ∉ ds.drop k := by
  intro hb
  obtain ⟨a, ha⟩ : ∃ a, a ∈ ds.take k := by
    apply List.exists_mem_of_length_pos
    have := List.length_pos_of_mem hb
    rw [List.length_drop] at this
    rw [List.length_take]
    omega
  have hab := hL.kept_not_before ha hb
  rw [← List.take_append_drop k ds, List.map_append] at hnd
  by_cases hid : a.sessionId = b.sessionId
  · exact (List.nodup_append.mp hnd).2.2 _ (List.mem_map_of_mem ha) _ (List.mem_map_of_mem hb) hid
  · rw [hlate a (List.mem_of_mem_take ha) hid] at hab
    cases hab

end Listings

/-! ## Saving a login -/

theorem mem_insertSorted_self (x : String) (l : List String) : x ∈ insertSorted x l := by
  induction l with
  | nil => exact List.mem_singleton_self x
  | cons y ys ih =>
    unfold insertSorted
    by_cases h₁ : x = y
    · rw [if_pos h₁, h₁]
      exact List.mem_cons_self ..
    rw [if_neg h₁]
    by_cases h₂ : x < y
    · rw [if_pos h₂]
      exact List.mem_cons_self ..
    · rw [if_neg h₂]
      exact List.mem_cons_of_mem _ ih

theorem mem_insertSorted_of_mem (x : String) {m : String} {l : List String} (h : m ∈ l) :
    m ∈ insertSorted x l := by
  induction l with
  | nil => cases h
  | cons y ys ih =>
    unfold insertSorted
    by_cases h₁ : x = y
    · rw [if_pos h₁]
      exact h
    rw [if_neg h₁]
    by_cases h₂ : x < y
    · rw [if_pos h₂]
      exact List.mem_cons_of_mem _ h
    · rw [if_neg h₂]
      rcases List.mem_cons.mp h with rfl | h
      · exact List.mem_cons_self ..
      · exact List.mem_cons_of_mem _ (ih h)

theorem mem_foldl_insertSorted_of {m : String} {ms acc : List String} (h : m ∈ ms ∨ m ∈ acc) :
    m ∈ ms.foldl (fun acc x => insertSorted x acc) acc := by
  induction ms generalizing acc with
  | nil => simpa using h
  | cons x xs ih =>
    refine ih ?_
    rcases h with h | h
    · rcases List.mem_cons.mp h with rfl | h
      · exact .inr (mem_insertSorted_self _ _)
      · exact .inl h
    · exact .inr (mem_insertSorted_of_mem x h)

theorem mem_addMembers_setOf {k m : String} {ms : List String} {s : Server} (hup : s.outage = "")
    (hk : ∀ t ttl, s.slot? k ≠ some ⟨.text t, ttl⟩) (hm : m ∈ ms ∨ m ∈ s.setOf k) :
    m ∈ ((addMembers k ms).run.run s).2.setOf k := by
  unfold addMembers
  rw [available_get_run, if_pos hup]
  split
  · rename_i hs
    have hold : s.setOf k = [] := by rw [Server.setOf, hs]
    rw [run_set]
    simp only [Server.setOf, slot?_put, ↓reduceIte]
    exact mem_foldl_insertSorted_of (by rwa [hold] at hm)
  · rename_i old ttl hs
    have hold : s.setOf k = old := by rw [Server.setOf, hs]
    rw [run_set]
    simp only [Server.setOf, slot?_put, ↓reduceIte]
    exact mem_foldl_insertSorted_of (by rwa [hold] at hm)
  · rename_i v hv hs
    rcases v with ⟨e, ttl⟩
    cases e with
    | text t => exact absurd hs (hk t ttl)
    | members old => exact absurd rfl (hv old ttl)

theorem outage_of_spares {α : Type} {x : ServerM α} (hx : ∀ s₀ : Server, Preserves (Spares "" s₀) x)
    (s : Server) : (x.run.run s).2.outage = s.outage :=
  (hx s s ⟨rfl, fun h => h⟩).1

section Save

variable (user id v : String)

theorem save_listed {st : SessionStore} (hup : st.server.outage = "")
    (hset : ∀ t ttl, st.server.slot? (userKey user) ≠ some ⟨.text t, ttl⟩) {m : String}
    (hm : m = id ∨ m ∈ st.server.setOf (userKey user)) :
    m ∈ ((command "save session" (batch [setText (sessionKey id) v (some lifetime),
      addMembers (userKey user) [id], expire (userKey user) lifetime])).run.run st).2.server.setOf
        (userKey user) := by
  have hkey : (st.server.put (sessionKey id) ⟨.text v, some lifetime⟩).slot? (userKey user) =
      st.server.slot? (userKey user) := by
    rw [slot?_put, if_neg (sessionKey_ne_userKey id user).symm]
  rw [save_server, setOf_expire, setText_state, if_pos hup]
  refine mem_addMembers_setOf (by rw [outage_put]; exact hup) (by rw [hkey]; exact hset) ?_
  rcases hm with rfl | hm
  · exact .inl (List.mem_singleton_self m)
  · exact .inr (by rwa [setOf_of_slot? hkey])

theorem save_mark_slot (y : String) (st : SessionStore) :
    ((command "save session" (batch [setText (sessionKey id) v (some lifetime),
      addMembers (userKey user) [id], expire (userKey user) lifetime])).run.run st).2.server.slot?
        (revokedKey y) = st.server.slot? (revokedKey y) := by
  rw [save_server, expire_slot? (userKey_ne_revokedKey user y).symm,
    addMembers_slot? (userKey_ne_revokedKey user y).symm, setText_slot? (sessionKey_ne_revokedKey id y).symm]

theorem save_outage (st : SessionStore) :
    ((command "save session" (batch [setText (sessionKey id) v (some lifetime),
      addMembers (userKey user) [id], expire (userKey user) lifetime])).run.run st).2.server.outage =
        st.server.outage := by
  rw [save_server, outage_of_spares (fun _ => preserves_expire _ _),
    outage_of_spares (fun _ => preserves_addMembers _ _), outage_of_spares (fun _ => preserves_setText _ _ _)]

end Save

/-- What saving the record `d` of a login of `u` under `s` on server `sv` left in `st₂`: that record
and no other written, the session listed beside those listed before, no mark written, and the
store still sound, tidy and up. -/
structure Saved (clock : Nat → Instant) (keep : Int) (u s : String) (d : SessionData) (sv : Server)
    (st₂ : SessionStore) : Prop where
  record : ∀ y, st₂.server.slot? (sessionKey y) =
    if y = s then some ⟨.text d.text, some lifetime⟩ else sv.slot? (sessionKey y)
  listed : s ∈ st₂.server.setOf (userKey u)
  grows : ∀ m ∈ sv.setOf (userKey u), m ∈ st₂.server.setOf (userKey u)
  marks : ∀ y, st₂.server.slot? (revokedKey y) = sv.slot? (revokedKey y)
  up : st₂.server.outage = ""
  sound : IndexSound st₂
  tidy : Tidy clock keep st₂

theorem Saved.of_save {data : SessionData} (hI : IndexSound st) (ht : Tidy clock keep st)
    (hup : st.server.outage = "") (hc : Claimed u st s) (hu : data.userId = u) (hid : data.sessionId = s)
    (hd : data.lastLogin = clock st.readings) :
    Saved clock keep u s data st.server ((command "save session" (batch [setText (sessionKey s) data.text (some lifetime),
      addMembers (userKey u) [s], expire (userKey u) lifetime])).run.run st).2 where
  record y := by
    rw [save_slot]
    by_cases hy : y = s
    · rw [if_pos ⟨hup, hy⟩, if_pos hy]
    · rw [if_neg fun h => hy h.2, if_neg hy]
  listed := save_listed u s _ hup (fun t ttl => ht.orderly.index u t ttl) (.inl rfl)
  grows _ hm := save_listed u s _ hup (fun t ttl => ht.orderly.index u t ttl) (.inr hm)
  marks y := save_mark_slot u s _ y st
  up := (save_outage u s _ st).trans hup
  sound := (Kept.save (⟨hI, Confined.refl u st⟩ : Kept u st st) hc hu hid).1
  tidy := ht.save u s hd

/-! ## Trimming after the save -/

theorem trimOldest_run (hkeep : 1 ≤ keep) (hI : IndexSound st) (ht : Tidy clock keep st)
    (hup : st.server.outage = "") (h : (trimOldest u keep).run.run st = (.ok (), st')) :
    ∃ ds, Listing st u ds ∧ st' = revokeEach u ((ds.drop keep.toNat).map SessionData.sessionId) st := by
  unfold trimOldest at h
  rw [if_neg (by omega), run_bind] at h
  rcases hl : (listByUser u).run.run st with ⟨r, st₁⟩
  rw [hl] at h
  cases r with
  | error e => cases h
  | ok ds =>
    obtain ⟨rfl, hL⟩ := listByUser_ok hI hl
    refine ⟨ds, hL, ?_⟩
    dsimp only at h
    split at h
    · rename_i hlen
      rw [List.drop_eq_nil_of_le hlen]
      exact (Prod.mk.inj h).2.symm
    · rw [run_bind, forIn_revokeFor_run u _ ht hup] at h
      exact (Prod.mk.inj h).2.symm

/-! ## Recording a login -/

/-- The rest of a recording once its record `data` is built: marshalling it, saving it and trimming
the user's sessions. -/
theorem save_trim_run (hkeep : 1 ≤ keep) {data d : SessionData} (hI : IndexSound st) (ht : Tidy clock keep st)
    (hup : st.server.outage = "")
    (h : (do
        let text ← marshal data
        command "save session" (batch [setText (sessionKey s) text (some lifetime),
          addMembers (userKey u) [s], expire (userKey u) lifetime])
        let st ← get
        trimOldest u st.keep
        pure data : SessionM SessionData).run.run st = (.ok d, st'))
    (hc : Claimed u st s) (hu : data.userId = u) (hid : data.sessionId = s) (hd : data.lastLogin = clock st.readings) :
    d = data ∧ ∃ st₂ ds, Saved clock keep u s data st.server st₂ ∧ Listing st₂ u ds ∧
      st' = revokeEach u ((ds.drop keep.toNat).map SessionData.sessionId) st₂ := by
  have hS := Saved.of_save hI ht hup hc hu hid hd
  rcases marshal_bind_run data _ _ with ⟨e, hm⟩ | hm
  · rw [hm] at h
    cases h
  rw [hm, run_bind] at h
  rcases hs : (command "save session" (batch [setText (sessionKey s) data.text (some lifetime),
    addMembers (userKey u) [s], expire (userKey u) lifetime])).run.run st with ⟨r, st₂⟩
  rw [hs] at h hS
  cases r with
  | error e => cases h
  | ok _ =>
    dsimp only at h
    rw [run_bind, run_get] at h
    dsimp only at h
    rw [run_bind, hS.tidy.keep] at h
    rcases htrim : (trimOldest u keep).run.run st₂ with ⟨rt, st₃⟩
    rw [htrim] at h
    cases rt with
    | error e => cases h
    | ok _ =>
      obtain ⟨ds, hL, rfl⟩ := trimOldest_run hkeep hS.sound hS.tidy hS.up htrim
      cases h
      exact ⟨rfl, st₂, ds, hS, hL, rfl⟩

theorem record_run (hkeep : 1 ≤ keep) {ip : String} {d : SessionData} (hI : IndexSound st)
    (ht : Tidy clock keep st) (hup : st.server.outage = "") (h : (record u s ip).run.run st = (.ok d, st')) :
    d.userId = u ∧ d.sessionId = s ∧ d.ip = ip ∧ d.lastLogin = clock (st.readings + 1) ∧
    (st.server.slot? (sessionKey s) = none ∨ ∃ d₀, Loaded st s d₀) ∧
    ∃ st₂ ds, Saved clock keep u s d st.server st₂ ∧ Listing st₂ u ds ∧
      st' = revokeEach u ((ds.drop keep.toNat).map SessionData.sessionId) st₂ := by
  have hI₁ : IndexSound { st with readings := st.readings + 1 } := ⟨hI.1, hI.2⟩
  have ht₁ := tidy_now st ht
  obtain rfl : st.clock = clock := ht.clocked
  unfold record at h
  rw [run_bind, now_run] at h
  dsimp only at h
  rw [run_bind] at h
  have hl₁ := load?_state s { st with readings := st.readings + 1 }
  rcases hl : (load? s).run.run { st with readings := st.readings + 1 } with ⟨rl, st₁⟩
  rw [hl] at hl₁ h
  subst hl₁
  cases rl with
  | error e => cases h
  | ok r =>
    dsimp only at h
    -- a new session gets a fresh record, a known one of `u` its record with a new login
    cases r with
    | none =>
      have hnone := load?_none (show ((load? s).run.run { st with readings := st.readings + 1 }).1 = .ok none by rw [hl])
      rw [run_bind] at h
      obtain ⟨rfl, hsaved⟩ := save_trim_run hkeep hI₁ ht₁ hup h
        (fun t ttl hs => by rw [hnone] at hs; cases hs) rfl rfl rfl
      exact ⟨rfl, rfl, rfl, rfl, .inl hnone, hsaved⟩
    | some d₀ =>
      have hload := load?_some
        (show ((load? s).run.run { st with readings := st.readings + 1 }).1 = .ok (some d₀) by rw [hl])
      dsimp only at h
      split at h
      · rw [run_bind] at h
        cases h
      · rename_i hd₀
        have hdu : d₀.userId = u := by simpa using hd₀
        rw [run_bind] at h
        have hds : d₀.sessionId = s := hI₁.sessionId hload
        obtain ⟨rfl, hsaved⟩ := save_trim_run hkeep hI₁ ht₁ hup h (hdu ▸ hload.claimed) hdu hds rfl
        exact ⟨hdu, hds, rfl, rfl, .inr ⟨d₀, hload⟩, hsaved⟩

/-! ## What a recording leaves -/

theorem Loaded.of_slot_eq {x : String} {a : SessionData} (h : Loaded st x a)
    (hs : st'.server.slot? (sessionKey x) = st.server.slot? (sessionKey x)) : Loaded st' x a := by
  obtain ⟨t, ttl, hslot, hp⟩ := h
  exact ⟨t, ttl, hs.trans hslot, hp⟩

theorem Tidy.revokeEach (ht : Tidy clock keep st) (user : String) (xs : List String) :
    Tidy clock keep (revokeEach user xs st) := by
  induction xs generalizing st with
  | nil => exact ht
  | cons x xs ih => exact ih (tidy_revokeFor user x st ht)

section Recorded

variable {st₂ : SessionStore} {d : SessionData} {ds : List SessionData}

theorem Listing.mem_of_loaded (hL : Listing st u ds) {x : SessionData}
    (hm : x.sessionId ∈ st.server.setOf (userKey u)) (hx : Loaded st x.sessionId x) : x ∈ ds := by
  obtain ⟨a, ha, hid⟩ := hL.exists_of_index hm
  have hax : a = x := Loaded.unique (hL.loaded a ha) (hid ▸ hx)
  exact hax ▸ ha

theorem Listing.trim (hL : Listing st₂ u ds) (ht : Tidy clock keep st₂) (hup : st₂.server.outage = "")
    (k : Nat) : Listing (revokeEach u ((ds.drop k).map SessionData.sessionId) st₂) u (ds.take k) := by
  have hnd := hL.nodup ht.orderly
  have hdisj : ∀ a ∈ ds.take k, a.sessionId ∉ (ds.drop k).map SessionData.sessionId := by
    intro a ha hx
    rw [← List.take_append_drop k ds, List.map_append] at hnd
    exact (List.nodup_append.mp hnd).2.2 _ (List.mem_map_of_mem ha) _ hx rfl
  refine ⟨?_, fun a ha => ?_, hL.sorted.sublist (List.take_sublist k ds)⟩
  · refine (List.perm_ext_iff_of_nodup (hnd.sublist ((List.take_sublist k ds).map _))
      (((ht.revokeEach u _).orderly.setOf _).imp ne_of_lt)).mpr fun m => ?_
    rw [mem_revokeEach_setOf hup]
    constructor
    · intro hm
      obtain ⟨a, ha, rfl⟩ := List.mem_map.mp hm
      exact ⟨hL.index_of_mem (List.mem_of_mem_take ha), hdisj a ha⟩
    · rintro ⟨hm, hnx⟩
      obtain ⟨a, ha, rfl⟩ := hL.exists_of_index hm
      rw [← List.take_append_drop k ds, List.mem_append] at ha
      exact List.mem_map_of_mem (ha.resolve_right fun hd => hnx (List.mem_map_of_mem hd))
  · exact (hL.loaded a (List.mem_of_mem_take ha)).of_slot_eq (revokeEach_slot (hdisj a ha) st₂)

theorem Saved.loaded_iff (hS : Saved clock keep u s d st.server st₂) {x : String} (hx : x ≠ s)
    {a : SessionData} : Loaded st₂ x a ↔ Loaded st x a := by
  have hslot : st₂.server.slot? (sessionKey x) = st.server.slot? (sessionKey x) := by
    rw [hS.record, if_neg hx]
  exact ⟨fun h => h.of_slot_eq hslot.symm, fun h => h.of_slot_eq hslot⟩

theorem Saved.read_back (hS : Saved clock keep u s d st.server st₂) {b : SessionData}
    (h : Loaded st₂ s b) : SessionData.parse d.text = .ok b := by
  obtain ⟨t, ttl, hslot, hp⟩ := h
  rw [hS.record, if_pos rfl] at hslot
  cases hslot
  exact hp

theorem Saved.newest_kept (hS : Saved clock keep u s d st.server st₂) (ht : Tidy clock keep st)
    (hc : Advancing clock) (hd : d.lastLogin = clock (st.readings + 1)) (hL : Listing st₂ u ds) {k : Nat}
    (hk : 1 ≤ k) :
    ∃ b ∈ ds.take k, b.sessionId = s ∧ s ∉ (ds.drop k).map SessionData.sessionId := by
  obtain ⟨b, hb, hbs⟩ := hL.exists_of_index hS.listed
  have hbload : Loaded st₂ s b := hbs ▸ hL.loaded b hb
  have hbd := hc.parse_lastLogin hd (hS.read_back hbload)
  have hlate : ∀ a ∈ ds, a.sessionId ≠ b.sessionId → a.lastLogin.before b.lastLogin = true := by
    intro a ha hne
    have hold : Loaded st a.sessionId a := (hS.loaded_iff (hbs ▸ hne)).mp (hL.loaded a ha)
    obtain ⟨m, hm, ham⟩ := ht.loaded_stamp hc hold
    rw [ham, hbd, hd]
    exact hc.forward _ _ (by omega)
  have hkept := hL.latest_kept (hL.nodup hS.tidy.orderly) hk hlate
  have hbtake : b ∈ ds.take k := by
    rw [← List.take_append_drop k ds, List.mem_append] at hb
    exact hb.resolve_right hkept
  refine ⟨b, hbtake, hbs, fun hs => ?_⟩
  obtain ⟨c, hc, hcs⟩ := List.mem_map.mp hs
  have hcb : c = b := Loaded.unique (hcs ▸ hL.loaded c (List.mem_of_mem_drop hc)) hbload
  exact hkept (hcb ▸ hc)

end Recorded

/-! ## Recording never evicts the login it records -/

/-- In every run of store calls from a fresh store that keeps `keep ≥ 1` sessions a user and reads
a clock that moves forward, a successful recording of a login of `u` under `s` answers `u`'s record
of `s`, and afterwards: the session loads as `u`'s, with its address and last login; whether it is
revoked is what it was; the user's listing holds it and at most `keep` sessions; and every session
listed before and not after was `u`'s and logged in no later than every session listed after. -/
theorem record_keeps_own_login (hclock : Advancing clock) (hkeep : 1 ≤ keep) (calls : List StoreCall)
    {ip : String} {d : SessionData}
    (h : (record u s ip).run.run (runCalls calls (.fresh clock keep)) = (.ok d, st')) :
    d.userId = u ∧ d.sessionId = s ∧ d.ip = ip ∧
    (∃ a, (load s).run.run st' = (.ok a, st') ∧ a.userId = u ∧ a.ip = ip ∧ a.lastLogin = d.lastLogin) ∧
    ((isRevoked s).run.run st').1 = ((isRevoked s).run.run (runCalls calls (.fresh clock keep))).1 ∧
    ∃ before after,
      (listByUser u).run.run (runCalls calls (.fresh clock keep)) =
        (.ok before, runCalls calls (.fresh clock keep)) ∧
      (listByUser u).run.run st' = (.ok after, st') ∧
      s ∈ after.map SessionData.sessionId ∧ after.length ≤ keep.toNat ∧
      ∀ e ∈ before, e.sessionId ∉ after.map SessionData.sessionId →
        e.userId = u ∧ ∀ a ∈ after, a.lastLogin.before e.lastLogin = false := by
  have hI := (indexSound_fresh clock keep).runCalls calls
  have ht := (tidy_fresh clock keep).runCalls calls
  have hup : (runCalls calls (.fresh clock keep)).server.outage = "" := outage_runCalls calls _
  generalize runCalls calls (.fresh clock keep) = st at h hI ht hup ⊢
  have hI' : IndexSound st' := by simpa only [h] using (kept_record u s ip st ⟨hI, Confined.refl u st⟩).1
  have ht' : Tidy clock keep st' := by simpa only [h] using tidy_record u s ip st ht
  obtain ⟨hu, hid, hip, hd, hprior, st₂, ds, hS, hL, rfl⟩ := record_run hkeep hI ht hup h
  have hk : 1 ≤ keep.toNat := by omega
  have hup' : (revokeEach u ((ds.drop keep.toNat).map SessionData.sessionId) st₂).server.outage = "" :=
    (revokeEach_outage _ st₂).trans hS.up
  have hLT := hL.trim hS.tidy hS.up keep.toNat
  obtain ⟨b, hb, hbs, hkept⟩ := hS.newest_kept ht hclock hd hL hk
  have hread := hS.read_back (hbs ▸ hL.loaded b (List.mem_of_mem_take hb))
  -- the listing after the call answers, and is a listing of the first `keep` of the trim's listing
  obtain ⟨after, hLa, hafter⟩ := listByUser_run hI' hup' (fun t ttl => ht'.orderly.index u t ttl)
    fun x hx => (hLT.exists_of_index hx).elim fun a ha => ⟨a, ha.2 ▸ hLT.loaded a ha.1⟩
  have hsa : s ∈ after.map SessionData.sessionId :=
    hLa.perm.mem_iff.mpr (hbs ▸ hLT.index_of_mem hb)
  have hload : ∀ x ∈ st.server.setOf (userKey u), ∃ a, Loaded st x a := by
    intro x hx
    by_cases hxs : x = s
    · subst hxs
      refine hprior.resolve_left fun hnone => ?_
      obtain ⟨d₀, ttl, hslot, -⟩ := hI.indexed u x hx
      rw [hnone] at hslot
      cases hslot
    · obtain ⟨a, ha, hax⟩ := hL.exists_of_index (hS.grows x hx)
      exact ⟨a, (hS.loaded_iff hxs).mp (hax ▸ hL.loaded a ha)⟩
  obtain ⟨before, hLb, hbefore⟩ := listByUser_run hI hup (fun t ttl => ht.orderly.index u t ttl) hload
  refine ⟨hu, hid, hip, ⟨b, load_run hup' (hbs ▸ hLT.loaded b hb), ?_, ?_, ?_⟩, ?_,
    before, after, hbefore, hafter, hsa, ?_, fun e he hea => ⟨hI.userId (hLb.index_of_mem he) (hLb.loaded e he), fun a ha => ?_⟩⟩
  · exact (SessionData.parse_text hread).2.2.trans hu
  · exact (SessionData.parse_text hread).1.trans hip
  · exact hclock.parse_lastLogin hd hread
  · rw [isRevoked_run hup', isRevoked_run hup, revokeEach_mark_slot hkept, hS.marks]
  · calc after.length = (after.map SessionData.sessionId).length := (List.length_map _).symm
      _ = ((ds.take keep.toNat).map SessionData.sessionId).length := hLa.perm.length_eq.trans hLT.perm.length_eq.symm
      _ ≤ keep.toNat := by rw [List.length_map, List.length_take]; exact Nat.min_le_left _ _
  · -- `a` is among the first `keep` of the trim's listing, `e` among the rest
    have hak : a ∈ ds.take keep.toNat := hLT.mem_of_loaded (hLa.index_of_mem ha) (hLa.loaded a ha)
    have hes : e.sessionId ≠ s := fun hes => hea (hes ▸ hsa)
    have hed : e ∈ ds := hL.mem_of_loaded (hS.grows _ (hLb.index_of_mem he))
      ((hS.loaded_iff hes).mpr (hLb.loaded e he))
    have hek : e ∈ ds.drop keep.toNat := by
      rw [← List.take_append_drop keep.toNat ds, List.mem_append] at hed
      exact hed.resolve_left fun het => hea (hLa.perm.mem_iff.mpr (hLT.index_of_mem het))
    exact hL.kept_not_before hak hek

deriving instance DecidableEq for SessionData

/-- Alice's first login, on a fresh store that keeps one session a user. -/
theorem first_login_kept :
    Advancing clockAt ∧ 1 ≤ (1 : Int) ∧
    (record "alice" "s1" "10.0.0.1").run.run (runCalls [] (.fresh clockAt 1)) =
      (.ok ⟨"10.0.0.1", "s1", clockAt 1, clockAt 1, "alice"⟩,
        ((record "alice" "s1" "10.0.0.1").run.run (runCalls [] (.fresh clockAt 1))).2) ∧
    ("alice" = "alice" ∧ "s1" = "s1" ∧ "10.0.0.1" = "10.0.0.1" ∧
    (∃ a, (load "s1").run.run ((record "alice" "s1" "10.0.0.1").run.run (runCalls [] (.fresh clockAt 1))).2 =
        (.ok a, ((record "alice" "s1" "10.0.0.1").run.run (runCalls [] (.fresh clockAt 1))).2) ∧
      a.userId = "alice" ∧ a.ip = "10.0.0.1" ∧ a.lastLogin = clockAt 1) ∧
    ((isRevoked "s1").run.run ((record "alice" "s1" "10.0.0.1").run.run (runCalls [] (.fresh clockAt 1))).2).1 =
      ((isRevoked "s1").run.run (runCalls [] (.fresh clockAt 1))).1 ∧
    ∃ before after,
      (listByUser "alice").run.run (runCalls [] (.fresh clockAt 1)) = (.ok before, runCalls [] (.fresh clockAt 1)) ∧
      (listByUser "alice").run.run ((record "alice" "s1" "10.0.0.1").run.run (runCalls [] (.fresh clockAt 1))).2 =
        (.ok after, ((record "alice" "s1" "10.0.0.1").run.run (runCalls [] (.fresh clockAt 1))).2) ∧
      "s1" ∈ after.map SessionData.sessionId ∧ after.length ≤ (1 : Int).toNat ∧
      ∀ e ∈ before, e.sessionId ∉ after.map SessionData.sessionId →
        e.userId = "alice" ∧ ∀ a ∈ after, a.lastLogin.before e.lastLogin = false) := by
  have hrun : ((record "alice" "s1" "10.0.0.1").run.run (runCalls [] (.fresh clockAt 1))).1 =
      .ok ⟨"10.0.0.1", "s1", clockAt 1, clockAt 1, "alice"⟩ := by
    decide +kernel
  exact ⟨advancing_clockAt, by decide, Prod.ext hrun rfl,
    record_keeps_own_login advancing_clockAt (by decide) [] (Prod.ext hrun rfl)⟩

/-- A clock that answers the same reading every time. -/
def stuckClock (_ : Nat) : Instant := epoch

/-- Alice logged in once under `s1` on a store that keeps one session a user and whose clock is
stuck. -/
def stuckStore : SessionStore :=
  runCalls [.record "alice" "s1" "10.0.0.1"] (.fresh stuckClock 1)

/-- With a clock that does not move, recording a second login of Alice succeeds and evicts it: the
listing ties the two sessions and keeps the one listed first, so the new session ends revoked. -/
theorem stuck_clock_evicts_new_login :
    ((record "alice" "s2" "10.0.0.1").run.run stuckStore).1 = .ok ⟨"10.0.0.1", "s2", epoch, epoch, "alice"⟩ ∧
    ((isRevoked "s2").run.run stuckStore).1 = .ok false ∧
    ((isRevoked "s2").run.run ((record "alice" "s2" "10.0.0.1").run.run stuckStore).2).1 = .ok true ∧
    ((load "s2").run.run ((record "alice" "s2" "10.0.0.1").run.run stuckStore).2).1.isOk = false := by
  decide +kernel

end Outliner.Session
