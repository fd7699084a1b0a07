import Outliner.Proofs.ReadBack
import Outliner.Proofs.SignOut
import Outliner.Proofs.InstantText

/-! The per-user session indexes of the key-value store. `IndexSound` says every session
record is kept under its own id and every index entry names a live record of the index's
user; every call of the store keeps it, and a call made for one user changes only records
that user claims. So, in every run of calls, a listing answers only the user's own sessions
and no call touches another user's record. Expiry breaks the invariant: a stale index entry
can come to name another user's session. -/

set_option autoImplicit false

namespace Outliner.Session

open KeyValue Server

/-! ## The three kinds of keys -/

theorem sessionKey_ne_userKey (id u : String) : sessionKey id ≠ userKey u := by
  unfold sessionKey userKey
  intro h
  have h9 := congrArg (fun t : String => t.toList[9]?) h
  rw [getElem?_toList_append _ _ (by decide), getElem?_toList_append _ _ (by decide)] at h9
  exact absurd h9 (by decide)

theorem sessionKey_inj {a b : String} (h : sessionKey a = sessionKey b) : a = b :=
  (String.append_right_inj _).1 h

theorem userKey_inj {a b : String} (h : userKey a = userKey b) : a = b :=
  (String.append_right_inj _).1 h

/-! ## Steps of the store -/

theorem command_run {α : Type} (step : String) (x : ServerM α) (st : SessionStore) :
    (command step x).run.run st =
      ((x.run.run st.server).1.mapError
        (fun e => Failure.storage (if step.isEmpty then e else step ++ ": " ++ e)),
        { st with server := (x.run.run st.server).2 }) := by
  unfold command
  rw [run_bind, run_get]
  dsimp only
  generalize x.run.run st.server = p
  rcases p with ⟨r, sv⟩
  dsimp only
  rw [run_bind, run_set]
  cases r <;> rfl

theorem getText_some {k v : String} {s : Server} (h : ((getText k).run.run s).1 = .ok (some v)) :
    ∃ ttl, s.slot? k = some ⟨.text v, ttl⟩ := by
  unfold getText at h
  rw [available_get_run] at h
  split at h
  · split at h
    · cases h
    · rename_i v' ttl hslot
      cases h
      exact ⟨ttl, hslot⟩
    · cases h
  · cases h

theorem getText_none {k : String} {s : Server} (h : ((getText k).run.run s).1 = .ok none) :
    s.slot? k = none := by
  unfold getText at h
  rw [available_get_run] at h
  split at h
  · split at h
    · assumption
    · cases h
    · cases h
  · cases h

/-- The session record kept for `id` is a text that reads back as `d`. -/
def Loaded (st : SessionStore) (id : String) (d : SessionData) : Prop :=
  ∃ t ttl, st.server.slot? (sessionKey id) = some ⟨.text t, ttl⟩ ∧ SessionData.parse t = .ok d

theorem load_state (id : String) (st : SessionStore) : ((load id).run.run st).2 = st := by
  unfold load
  rw [run_bind, command_run, getText_state]
  cases ((getText (sessionKey id)).run.run st.server).1 with
  | error e => rfl
  | ok r =>
    dsimp only [Except.mapError]
    split
    · rfl
    · split <;> rfl

theorem load_ok {id : String} {st : SessionStore} {d : SessionData}
    (h : ((load id).run.run st).1 = .ok d) : Loaded st id d := by
  unfold load at h
  rw [run_bind, command_run] at h
  cases hr : ((getText (sessionKey id)).run.run st.server).1 with
  | error e =>
    rw [hr] at h
    cases h
  | ok r =>
    rw [hr] at h
    dsimp only [Except.mapError] at h
    cases r with
    | none => cases h
    | some v =>
      obtain ⟨ttl, hslot⟩ := getText_some hr
      dsimp only at h
      cases hp : SessionData.parse v with
      | error e =>
        rw [hp] at h
        cases h
      | ok d' =>
        rw [hp] at h
        cases h
        exact ⟨v, ttl, hslot, hp⟩

theorem load_notFound {id : String} {st : SessionStore} {f : Failure}
    (h : ((load id).run.run st).1 = .error f) (hf : f.meets .notFound = true) :
    st.server.slot? (sessionKey id) = none := by
  unfold load at h
  rw [run_bind, command_run] at h
  cases hr : ((getText (sessionKey id)).run.run st.server).1 with
  | error e =>
    rw [hr] at h
    cases h
    cases hf
  | ok r =>
    rw [hr] at h
    dsimp only [Except.mapError] at h
    cases r with
    | none => exact getText_none hr
    | some v =>
      dsimp only at h
      cases hp : SessionData.parse v with
      | error e =>
        rw [hp] at h
        cases h
        cases hf
      | ok d' =>
        rw [hp] at h
        cases h

theorem load?_state (id : String) (st : SessionStore) : ((load? id).run.run st).2 = st := by
  unfold load?
  rw [run_tryCatch', run_map, load_state]
  cases ((load id).run.run st).1 with
  | ok d => rfl
  | error f =>
    dsimp only [Except.map]
    split <;> rfl

theorem load?_some {id : String} {st : SessionStore} {d : SessionData}
    (h : ((load? id).run.run st).1 = .ok (some d)) : Loaded st id d := by
  unfold load? at h
  rw [run_tryCatch', run_map] at h
  cases hl : ((load id).run.run st).1 with
  | ok d' =>
    rw [hl] at h
    cases h
    exact load_ok hl
  | error f =>
    rw [hl] at h
    dsimp only [Except.map] at h
    split at h <;> cases h

theorem load?_none {id : String} {st : SessionStore} (h : ((load? id).run.run st).1 = .ok none) :
    st.server.slot? (sessionKey id) = none := by
  unfold load? at h
  rw [run_tryCatch', run_map] at h
  cases hl : ((load id).run.run st).1 with
  | ok d' =>
    rw [hl] at h
    cases h
  | error f =>
    rw [hl] at h
    dsimp only [Except.map] at h
    split at h
    · rename_i hf
      exact load_notFound hl hf
    · cases h

/-! ## The invariant of the indexes -/

/-- The record kept for session `id`, if it is a text, reads back as one of `u`'s sessions. -/
def Claimed (u : String) (st : SessionStore) (id : String) : Prop :=
  ∀ t ttl, st.server.slot? (sessionKey id) = some ⟨.text t, ttl⟩ →
    ∃ d, SessionData.parse t = .ok d ∧ d.userId = u

/-- Every session record was written for the session it is kept under, and every entry of a
user's index names a live record written for that user. -/
structure IndexSound (st : SessionStore) : Prop where
  named : ∀ id t ttl, st.server.slot? (sessionKey id) = some ⟨.text t, ttl⟩ →
    ∃ d : SessionData, t = d.text ∧ d.sessionId = id
  indexed : ∀ u id, id ∈ st.server.setOf (userKey u) →
    ∃ (d : SessionData) (ttl : Option Nat),
      st.server.slot? (sessionKey id) = some ⟨.text d.text, ttl⟩ ∧ d.userId = u

/-- From `st₀` to `st` no session record changed and no index gained an entry. -/
def Shrinks (st₀ st : SessionStore) : Prop :=
  (∀ id, st.server.slot? (sessionKey id) = st₀.server.slot? (sessionKey id)) ∧
    ∀ u id, id ∈ st.server.setOf (userKey u) → id ∈ st₀.server.setOf (userKey u)

variable {st₀ st st' : SessionStore} {u id : String} {d : SessionData}

theorem IndexSound.sessionId (hI : IndexSound st) (h : Loaded st id d) : d.sessionId = id := by
  obtain ⟨t, ttl, hslot, hp⟩ := h
  obtain ⟨d₀, rfl, hid⟩ := hI.named id t ttl hslot
  exact (SessionData.parse_text hp).2.1.trans hid

theorem IndexSound.userId (hI : IndexSound st) (hm : id ∈ st.server.setOf (userKey u))
    (h : Loaded st id d) : d.userId = u := by
  obtain ⟨t, ttl, hslot, hp⟩ := h
  obtain ⟨d₀, ttl₀, hslot₀, hu⟩ := hI.indexed u id hm
  rw [hslot₀] at hslot
  cases hslot
  exact (SessionData.parse_text hp).2.2.trans hu

theorem IndexSound.owner {v : String} (hI : IndexSound st) (hm : id ∈ st.server.setOf (userKey v))
    (hc : Claimed u st id) : v = u := by
  obtain ⟨d₀, ttl₀, hslot₀, hv⟩ := hI.indexed v id hm
  obtain ⟨d, hp, hu⟩ := hc _ _ hslot₀
  rw [← hv, ← hu, (SessionData.parse_text hp).2.2]

theorem Shrinks.refl (st : SessionStore) : Shrinks st st := ⟨fun _ => rfl, fun _ _ h => h⟩

theorem Shrinks.trans (h₁ : Shrinks st₀ st) (h₂ : Shrinks st st') : Shrinks st₀ st' :=
  ⟨fun id => (h₂.1 id).trans (h₁.1 id), fun u id h => h₁.2 u id (h₂.2 u id h)⟩

theorem Loaded.of_shrinks (h : Loaded st id d) (hs : Shrinks st₀ st) : Loaded st₀ id d := by
  obtain ⟨t, ttl, hslot, hp⟩ := h
  exact ⟨t, ttl, (hs.1 id).symm.trans hslot, hp⟩

theorem Loaded.unique {d' : SessionData} (h : Loaded st id d) (h' : Loaded st id d') : d = d' := by
  obtain ⟨t, ttl, hslot, hp⟩ := h
  obtain ⟨t', ttl', hslot', hp'⟩ := h'
  rw [hslot] at hslot'
  cases hslot'
  rw [hp] at hp'
  exact Except.ok.inj hp'

theorem IndexSound.of_shrinks (hI : IndexSound st₀) (hs : Shrinks st₀ st) : IndexSound st where
  named id t ttl h := hI.named id t ttl ((hs.1 id).symm.trans h)
  indexed u id hm := by
    obtain ⟨d, ttl, hslot, hu⟩ := hI.indexed u id (hs.2 u id hm)
    exact ⟨d, ttl, (hs.1 id).trans hslot, hu⟩

/-! ## Reading steps shrink -/

theorem answers_members (u : String) :
    Answers (Shrinks st₀) (command "list sessions" (members (userKey u)))
      (fun ids => ∀ id ∈ ids, id ∈ st₀.server.setOf (userKey u)) := by
  intro st h
  rw [command_run, members_state]
  refine ⟨h, fun ids hids id hid => ?_⟩
  cases hm : ((members (userKey u)).run.run st.server).1 with
  | error e =>
    rw [hm] at hids
    cases hids
  | ok ms =>
    rw [hm] at hids
    cases hids
    exact h.2 u id (members_ok hm ▸ hid)

theorem shrinks_removeMembers (step u : String) (ms : List String) :
    Preserves (Shrinks st₀) (command step (removeMembers (userKey u) ms)) := by
  intro st h
  rw [command_run]
  refine h.trans ⟨fun id => removeMembers_slot? (sessionKey_ne_userKey _ _) _ _, fun v id hid => ?_⟩
  by_cases hv : v = u
  · subst hv
    exact (mem_setOf_removeMembers hid).1
  · rwa [setOf_of_slot? (removeMembers_slot? (fun he => hv (userKey_inj he)) _ _)] at hid

theorem answers_load? (id : String) :
    Answers (Shrinks st₀) (load? id) (fun r => ∀ d, r = some d ↔ Loaded st₀ id d) := by
  intro st h
  rw [load?_state]
  refine ⟨h, fun r hr d => ⟨fun hd => ?_, fun hl => ?_⟩⟩
  · subst hd
    exact (load?_some hr).of_shrinks h
  · cases r with
    | none =>
      obtain ⟨t, ttl, hslot, -⟩ := hl
      rw [← h.1 id, load?_none hr] at hslot
      cases hslot
    | some d' => rw [((load?_some hr).of_shrinks h).unique hl]

theorem answers_listByUser (u : String) :
    Answers (Shrinks st₀) (listByUser u)
      (fun ds => ∀ d ∈ ds, ∃ id ∈ st₀.server.setOf (userKey u), Loaded st₀ id d) := by
  unfold listByUser
  dsimp only
  refine (answers_members u).bind fun ids hids => ?_
  refine (Answers.foldlM (fun acc => ∀ d ∈ acc.1, ∃ id ∈ st₀.server.setOf (userKey u), Loaded st₀ id d)
    ids (fun acc id hid hacc => ?_) _ (by simp)).bind fun r hr => ?_
  · refine (answers_load? id).bind fun r hl => ?_
    split
    · rename_i d
      refine Answers.pure fun d' hd' => ?_
      rcases List.mem_append.1 hd' with h | h
      · exact hacc d' h
      · rw [List.mem_singleton.1 h]
        exact ⟨id, hids id hid, (hl d).1 rfl⟩
    · exact Answers.pure hacc
  · rcases r with ⟨found, stale⟩
    have hsorted : ∀ d ∈ Time.newestFirst SessionData.lastLogin found, ∃ id ∈ st₀.server.setOf (userKey u), Loaded st₀ id d :=
      fun d hd => hr d ((Time.mem_newestFirst _).1 hd)
    exact Answers.ite ((Answers.of_preserves (shrinks_removeMembers _ u _)).bind fun _ _ =>
      Answers.pure hsorted) (Answers.pure hsorted)

theorem listByUser_complete {ds : List SessionData} (h : ((listByUser u).run.run st).1 = .ok ds)
    (hm : id ∈ st.server.setOf (userKey u)) (hd : Loaded st id d) : d ∈ ds := by
  unfold listByUser at h
  dsimp only at h
  rw [run_bind, command_run, members_state] at h
  cases hms : ((members (userKey u)).run.run st.server).1 with
  | error e =>
    rw [hms] at h
    cases h
  | ok ms =>
    rw [hms] at h
    -- the fold keeps, for the entries read so far, every record they load as
    refine ((?_ : Answers (Shrinks st) _ (fun ds => ∀ id ∈ ms, ∀ d, Loaded st id d → d ∈ ds))
      _ (Shrinks.refl st)).2 ds h id (members_ok hms ▸ hm) d hd
    refine (Answers.foldlM_prefix (fun pre acc => ∀ id ∈ pre, ∀ d, Loaded st id d → d ∈ acc.1) ms
      (fun pre a _ acc _ hacc => ?_) _ (by simp)).bind fun r hr => ?_
    · refine (answers_load? a).bind fun r hl => ?_
      split
      · rename_i d'
        refine Answers.pure fun id hid d hd => ?_
        rcases List.mem_append.1 hid with hid | hid
        · exact List.mem_append_left _ (hacc id hid d hd)
        · rw [List.mem_singleton.1 hid] at hd
          rw [Option.some.inj ((hl d).2 hd)]
          exact List.mem_append_right _ (List.mem_singleton_self d)
      · refine Answers.pure fun id hid d hd => ?_
        rcases List.mem_append.1 hid with hid | hid
        · exact hacc id hid d hd
        · rw [List.mem_singleton.1 hid] at hd
          cases (hl d).2 hd
    · rcases r with ⟨found, stale⟩
      have hsorted : ∀ id ∈ ms, ∀ d, Loaded st id d → d ∈ Time.newestFirst SessionData.lastLogin found :=
        fun id hid d hd => (Time.mem_newestFirst _).2 (hr id hid d hd)
      exact Answers.ite ((Answers.of_preserves (shrinks_removeMembers _ u _)).bind fun _ _ =>
        Answers.pure hsorted) (Answers.pure hsorted)

/-! ## Revoking a session -/

theorem revokeFor_server (user x : String) (st : SessionStore) :
    ((revokeFor user x).run.run st).2.server =
      ((setText (revokedKey x) user (some lifetime)).run.run
        ((removeMembers (userKey user) [x]).run.run
          ((delete (sessionKey x)).run.run st.server).2).2).2 := by
  unfold revokeFor
  rw [command_run]
  dsimp only
  rw [batch_state]
  rfl

theorem revokeFor_slot (user x y : String) (st : SessionStore) :
    ((revokeFor user x).run.run st).2.server.slot? (sessionKey y) = st.server.slot? (sessionKey y) ∨
      (y = x ∧ ((revokeFor user x).run.run st).2.server.slot? (sessionKey y) = none) := by
  rw [revokeFor_server, setText_slot? (sessionKey_ne_revokedKey _ _),
    removeMembers_slot? (sessionKey_ne_userKey _ _), delete_slot?]
  by_cases h : st.server.outage = "" ∧ sessionKey y = sessionKey x
  · rw [if_pos h]
    exact .inr ⟨sessionKey_inj h.2, rfl⟩
  · rw [if_neg h]
    exact .inl rfl

theorem revokeFor_setOf {user x v m : String} {st : SessionStore}
    (h : m ∈ ((revokeFor user x).run.run st).2.server.setOf (userKey v)) :
    m ∈ st.server.setOf (userKey v) := by
  rw [revokeFor_server, setOf_of_slot? (setText_slot? (userKey_ne_revokedKey _ _) _ _ _)] at h
  have hdel : ((delete (sessionKey x)).run.run st.server).2.setOf (userKey v) =
      st.server.setOf (userKey v) := by
    apply setOf_of_slot?
    rw [delete_slot?, if_neg fun h => sessionKey_ne_userKey _ _ h.2.symm]
  by_cases hv : v = user
  · subst hv
    rw [← hdel]
    exact (mem_setOf_removeMembers h).1
  · rwa [setOf_of_slot? (removeMembers_slot? (fun he => hv (userKey_inj he)) _ _), hdel] at h

theorem revokeFor_listed {user x : String} {st : SessionStore}
    (h : x ∈ ((revokeFor user x).run.run st).2.server.setOf (userKey user)) :
    ((revokeFor user x).run.run st).2.server.slot? (sessionKey x) = st.server.slot? (sessionKey x) := by
  rw [revokeFor_server] at h ⊢
  rw [setOf_of_slot? (setText_slot? (userKey_ne_revokedKey _ _) _ _ _)] at h
  rw [setText_slot? (sessionKey_ne_revokedKey _ _), removeMembers_slot? (sessionKey_ne_userKey _ _),
    delete_slot?]
  by_cases hup : st.server.outage = ""
  · have hup' : ((delete (sessionKey x)).run.run st.server).2.outage = "" := by
      rw [delete_state, if_pos hup]
      exact hup
    exact absurd (List.mem_singleton_self x) ((mem_setOf_removeMembers h).2 hup')
  · rw [if_neg fun h => hup h.1]

/-! ## Calls for a user change only records the user claims -/

/-- From `st₀` to `st`, the only session records that changed were claimed by `u` in `st₀`. -/
def Confined (u : String) (st₀ st : SessionStore) : Prop :=
  ∀ id, st.server.slot? (sessionKey id) = st₀.server.slot? (sessionKey id) ∨ Claimed u st₀ id

/-- What calls for `u` keep from `st₀`: the invariant, and every record `u` does not claim. -/
def Kept (u : String) (st₀ st : SessionStore) : Prop := IndexSound st ∧ Confined u st₀ st

theorem Claimed.of_slot {v x : String}
    (h : st'.server.slot? (sessionKey x) = st.server.slot? (sessionKey x)) (hc : Claimed v st x) :
    Claimed v st' x :=
  fun t ttl hs => hc t ttl (h.symm.trans hs)

theorem Loaded.claimed (h : Loaded st id d) : Claimed d.userId st id := by
  obtain ⟨t, ttl, hslot, hp⟩ := h
  intro t' ttl' hs
  rw [hslot] at hs
  cases hs
  exact ⟨d, hp, rfl⟩

theorem Confined.refl (u : String) (st : SessionStore) : Confined u st st := fun _ => .inl rfl

theorem Confined.trans (h₁ : Confined u st₀ st) (h₂ : Confined u st st') : Confined u st₀ st' := by
  intro id
  rcases h₂ id with h | h <;> rcases h₁ id with h' | h'
  · exact .inl (h.trans h')
  · exact .inr h'
  · exact .inr (h.of_slot h'.symm)
  · exact .inr h'

theorem Shrinks.of_server (hs : st'.server = st.server) : Shrinks st st' :=
  ⟨fun id => by rw [hs], fun u id h => by rwa [hs] at h⟩

theorem Kept.of_shrinks (hk : Kept u st₀ st) (hs : Shrinks st st') : Kept u st₀ st' :=
  ⟨hk.1.of_shrinks hs, hk.2.trans fun id => .inl (hs.1 id)⟩

theorem Kept.revokeFor {x : String} (hk : Kept u st₀ st) (hc : Claimed u st x) :
    Kept u st₀ ((revokeFor u x).run.run st).2 := by
  refine ⟨⟨fun id t ttl h => ?_, fun v id hm => ?_⟩, hk.2.trans fun id => ?_⟩
  · rcases revokeFor_slot u x id st with hs | ⟨-, hs⟩
    · exact hk.1.named id t ttl (hs ▸ h)
    · rw [hs] at h
      cases h
  · have hm₀ := revokeFor_setOf hm
    obtain ⟨d, ttl, hslot, hv⟩ := hk.1.indexed v id hm₀
    rcases revokeFor_slot u x id st with hs | ⟨rfl, hs⟩
    · exact ⟨d, ttl, hs.trans hslot, hv⟩
    · -- the deleted record was `u`'s own, and `u`'s index no longer lists it
      obtain rfl : v = u := hk.1.owner hm₀ hc
      rw [revokeFor_listed hm, hslot] at hs
      cases hs
  · rcases revokeFor_slot u x id st with hs | ⟨rfl, -⟩
    · exact .inl hs
    · exact .inr hc

theorem Claimed.revokeFor {v y x : String} (hc : Claimed v st y) :
    Claimed v ((revokeFor u x).run.run st).2 y := by
  rcases revokeFor_slot u x y st with hs | ⟨-, hs⟩
  · exact hc.of_slot hs
  · intro t ttl h
    rw [hs] at h
    cases h

theorem listByUser_own {u : String} {st : SessionStore} (hI : IndexSound st) {ds : List SessionData}
    (h : ((listByUser u).run.run st).1 = .ok ds) :
    ∀ d ∈ ds, d.userId = u ∧ Claimed u ((listByUser u).run.run st).2 d.sessionId := by
  intro d hd
  have hl := answers_listByUser u st (Shrinks.refl st)
  obtain ⟨id, hm, hload⟩ := hl.2 ds h d hd
  have hu := hI.userId hm hload
  refine ⟨hu, ?_⟩
  rw [hI.sessionId hload]
  exact (hu ▸ hload.claimed).of_slot (hl.1.1 id)

theorem kept_trimOldest (u : String) (keep : Int) : Preserves (Kept u st₀) (trimOldest u keep) := by
  unfold trimOldest
  refine Preserves.ite (Preserves.pure _) fun st hst => ?_
  rw [run_bind]
  have hshr := (answers_listByUser u st (Shrinks.refl st)).1
  rcases hr : (listByUser u).run.run st with ⟨r, st₁⟩
  rw [hr] at hshr
  have hk₁ : Kept u st₀ st₁ := hst.of_shrinks hshr
  cases r with
  | error e => exact hk₁
  | ok ds =>
    have hown := listByUser_own hst.1 (show ((listByUser u).run.run st).1 = .ok ds by rw [hr])
    rw [hr] at hown
    dsimp only
    have hstep : ∀ old ∈ ds, Preserves (fun s => Kept u st₀ s ∧ ∀ d ∈ ds, Claimed u s d.sessionId)
        (revokeFor u old.sessionId) :=
      fun old hold s hs => ⟨hs.1.revokeFor (hs.2 old hold), fun d hd => (hs.2 d hd).revokeFor⟩
    refine ((?_ : Preserves (fun s => Kept u st₀ s ∧ ∀ d ∈ ds, Claimed u s d.sessionId) _) st₁
      ⟨hk₁, fun d hd => (hown d hd).2⟩).1
    exact Preserves.ite (Preserves.pure _) ((Preserves.forIn_mem _ (fun old hold _ =>
      (hstep old (List.mem_of_mem_drop hold)).bind fun _ => Preserves.pure _) _).bind
        fun _ => Preserves.pure _)

/-! ## Recording a login -/

theorem now_server (st : SessionStore) : (now.run.run st).2.server = st.server := by
  unfold now
  rw [run_bind, run_get]
  rfl

theorem save_server (user id v : String) (st : SessionStore) :
    ((command "save session" (batch [setText (sessionKey id) v (some lifetime),
        addMembers (userKey user) [id], expire (userKey user) lifetime])).run.run st).2.server =
      ((expire (userKey user) lifetime).run.run ((addMembers (userKey user) [id]).run.run
        ((setText (sessionKey id) v (some lifetime)).run.run st.server).2).2).2 := by
  rw [command_run]
  dsimp only
  rw [batch_state]
  rfl

theorem save_slot (user id v y : String) (st : SessionStore) :
    ((command "save session" (batch [setText (sessionKey id) v (some lifetime),
        addMembers (userKey user) [id], expire (userKey user) lifetime])).run.run st).2.server.slot?
        (sessionKey y) =
      if st.server.outage = "" ∧ y = id then some ⟨.text v, some lifetime⟩
      else st.server.slot? (sessionKey y) := by
  rw [save_server, expire_slot? (sessionKey_ne_userKey _ _), addMembers_slot? (sessionKey_ne_userKey _ _),
    setText_state]
  by_cases hup : st.server.outage = ""
  · rw [if_pos hup, slot?_put]
    by_cases hy : y = id
    · rw [if_pos (congrArg sessionKey hy), if_pos ⟨hup, hy⟩]
    · rw [if_neg fun h => hy (sessionKey_inj h), if_neg fun h => hy h.2]
  · rw [if_neg hup, if_neg fun h => hup h.1]

theorem save_setOf {user id v w m : String} {st : SessionStore}
    (h : m ∈ ((command "save session" (batch [setText (sessionKey id) v (some lifetime),
        addMembers (userKey user) [id], expire (userKey user) lifetime])).run.run st).2.server.setOf
        (userKey w)) :
    m ∈ st.server.setOf (userKey w) ∨ (w = user ∧ m = id ∧ st.server.outage = "") := by
  rw [save_server] at h
  by_cases hup : st.server.outage = ""
  · have h₁ : ((setText (sessionKey id) v (some lifetime)).run.run st.server).2.setOf (userKey w) =
        st.server.setOf (userKey w) :=
      setOf_of_slot? (setText_slot? (fun he => sessionKey_ne_userKey _ _ he.symm) _ _ _)
    by_cases hw : w = user
    · subst hw
      rw [setOf_expire] at h
      rcases mem_setOf_addMembers h with h | h
      · exact .inl (h₁ ▸ h)
      · exact .inr ⟨rfl, List.mem_singleton.1 h, hup⟩
    · have hne : userKey w ≠ userKey user := fun he => hw (userKey_inj he)
      rw [setOf_of_slot? (expire_slot? hne _ _), setOf_of_slot? (addMembers_slot? hne _ _), h₁] at h
      exact .inl h
  · have hdown : ((setText (sessionKey id) v (some lifetime)).run.run st.server).2 = st.server := by
      rw [setText_state, if_neg hup]
    rw [hdown, addMembers_down _ _ hup, expire_down _ _ hup] at h
    exact .inl h

theorem Kept.save {data : SessionData} (hk : Kept u st₀ st) (hc : Claimed u st id)
    (hu : data.userId = u) (hid : data.sessionId = id) :
    Kept u st₀ ((command "save session" (batch [setText (sessionKey id) data.text (some lifetime),
      addMembers (userKey u) [id], expire (userKey u) lifetime])).run.run st).2 := by
  refine ⟨⟨fun y t ttl h => ?_, fun w m hm => ?_⟩, hk.2.trans fun y => ?_⟩
  · rw [save_slot] at h
    split at h
    · rename_i hy
      cases h
      exact ⟨data, rfl, hid.trans hy.2.symm⟩
    · exact hk.1.named y t ttl h
  · rw [save_slot]
    rcases save_setOf hm with hm₀ | ⟨rfl, rfl, hup⟩
    · obtain ⟨d, ttl, hslot, hw⟩ := hk.1.indexed w m hm₀
      split
      · rename_i hy
        obtain rfl : w = u := hk.1.owner hm₀ (hy.2 ▸ hc)
        exact ⟨data, some lifetime, rfl, hu⟩
      · exact ⟨d, ttl, hslot, hw⟩
    · exact ⟨data, some lifetime, by rw [if_pos ⟨hup, rfl⟩], hu⟩
  · rw [save_slot]
    split
    · rename_i hy
      exact .inr (hy.2 ▸ hc)
    · exact .inl rfl

theorem kept_record (u id ip : String) : Preserves (Kept u st₀) (record u id ip) := by
  unfold record
  dsimp only
  have save : ∀ (data : SessionData) (s : SessionStore), data.userId = u → data.sessionId = id →
      Kept u st₀ s → Claimed u s id →
      Kept u st₀ ((do
        let text ← marshal data
        command "save session" (batch [setText (sessionKey id) text (some lifetime),
          addMembers (userKey u) [id], expire (userKey u) lifetime])
        let st ← get
        trimOldest u st.keep
        pure data : SessionM SessionData).run.run s).2 := by
    intro data s hu hid hk hc
    rcases marshal_bind_run data _ s with ⟨e, h⟩ | h
    · rw [h]
      exact hk
    · rw [h]
      exact Preserves.after_bind (hk.save hc hu hid) fun _ =>
        Preserves.get_bind fun st hst => ((kept_trimOldest u st.keep).bind fun _ => Preserves.pure data) st hst
  intro st hst
  rw [run_bind]
  have hk₁ : Kept u st₀ (now.run.run st).2 := hst.of_shrinks (Shrinks.of_server (now_server st))
  rcases hn : now.run.run st with ⟨rn, st₁⟩
  rw [hn] at hk₁
  cases rn with
  | error e => exact hk₁
  | ok t =>
    dsimp only
    rw [run_bind]
    have hl₁ := load?_state id st₁
    rcases hl : (load? id).run.run st₁ with ⟨rl, st₂⟩
    rw [hl] at hl₁
    subst hl₁
    cases rl with
    | error e => exact hk₁
    | ok r =>
      dsimp only
      cases r with
      | none =>
        -- a new session: nothing is kept under its key
        have hnone := load?_none (show ((load? id).run.run st₂).1 = .ok none by rw [hl])
        rw [run_bind]
        exact save _ _ rfl rfl hk₁ fun t ttl h => by rw [hnone] at h; cases h
      | some d =>
        have hload := load?_some (show ((load? id).run.run st₂).1 = .ok (some d) by rw [hl])
        dsimp only
        split
        · -- another user's session: refused before anything is written
          rw [run_bind]
          exact hk₁
        · rename_i hd
          have hdu : d.userId = u := by simpa using hd
          rw [run_bind]
          exact save _ _ hdu (hk₁.1.sessionId hload : d.sessionId = id) hk₁ (hdu ▸ hload.claimed)

theorem kept_revoke (u id : String) : Preserves (Kept u st₀) (revoke u id) := by
  unfold revoke
  intro st hst
  rw [run_bind]
  have hl₁ := load_state id st
  rcases hl : (load id).run.run st with ⟨rl, st₁⟩
  rw [hl] at hl₁
  subst hl₁
  cases rl with
  | error e => exact hst
  | ok d =>
    have hload := load_ok (show ((load id).run.run st₁).1 = .ok d by rw [hl])
    dsimp only
    split
    · rw [run_bind]
      exact hst
    · rename_i hd
      have hdu : d.userId = u := by simpa using hd
      exact hst.revokeFor (hdu ▸ hload.claimed)

/-! ## Runs of store calls -/

/-- The user a call of the store is made for. -/
def StoreCall.user : StoreCall → String
  | .record user _ _ => user
  | .revoke user _ => user
  | .listByUser user => user
  | .trimOldest user _ => user

theorem kept_listByUser (u v : String) : Preserves (Kept u st₀) (listByUser v) :=
  fun s hs => hs.of_shrinks (answers_listByUser v s (Shrinks.refl s)).1

theorem StoreCall.kept (c : StoreCall) : Preserves (Kept c.user st₀) c.run := by
  cases c with
  | record u id ip => exact (kept_record u id ip).map _
  | revoke u id => exact kept_revoke u id
  | listByUser u => exact (kept_listByUser u u).map _
  | trimOldest u keep => exact kept_trimOldest u keep

/-- Runs calls of the store one after the other. -/
def runCalls : List StoreCall → SessionStore → SessionStore
  | [], st => st
  | c :: cs, st => runCalls cs (c.run.run.run st).2

theorem IndexSound.runCalls (hI : IndexSound st) (cs : List StoreCall) : IndexSound (runCalls cs st) := by
  induction cs generalizing st with
  | nil => exact hI
  | cons c cs ih => exact ih (c.kept st ⟨hI, Confined.refl _ _⟩).1

theorem indexSound_fresh (clock : Nat → Time.Instant) (keep : Int) :
    IndexSound (SessionStore.fresh clock keep) where
  named _ _ _ h := by cases h
  indexed _ _ h := by cases h

/-- In every run of store calls from a fresh store, in which no key expires, a listing for a
user answers only that user's sessions, and a call made for a user leaves every session record
of another user as it was. -/
theorem session_index_owned (clock : Nat → Time.Instant) (keep : Int) (calls : List StoreCall) :
    (∀ (u : String) (ds : List SessionData),
      ((listByUser u).run.run (runCalls calls (SessionStore.fresh clock keep))).1 = .ok ds →
        ∀ d ∈ ds, d.userId = u) ∧
    ∀ (c : StoreCall) (id t : String) (ttl : Option Nat) (d : SessionData),
      (runCalls calls (SessionStore.fresh clock keep)).server.slot? (sessionKey id) = some ⟨.text t, ttl⟩ →
      SessionData.parse t = .ok d → d.userId ≠ c.user →
      (c.run.run.run (runCalls calls (SessionStore.fresh clock keep))).2.server.slot? (sessionKey id) =
        some ⟨.text t, ttl⟩ := by
  have hI := (indexSound_fresh clock keep).runCalls calls
  refine ⟨fun u ds h d hd => (listByUser_own hI h d hd).1, fun c id t ttl d hslot hp hne => ?_⟩
  rcases (c.kept _ ⟨hI, Confined.refl _ _⟩).2 id with hs | hc
  · rw [hs, hslot]
  · obtain ⟨d', hp', hu⟩ := hc t ttl hslot
    rw [hp] at hp'
    cases hp'
    exact absurd hu hne

/-! ## Expiry

A session key expires on its own clock, while the user's index has its time to live refreshed
by every login; an entry can then outlive its record and later name a record written for
someone else under the same id. -/

/-- One moment of a run of the store: a call, or time passing on the server. -/
inductive StoreStep where
  | call (c : StoreCall)
  | wait (seconds : Nat)

/-- Runs the steps one after the other; waiting lets keys whose time to live ran out expire. -/
def runSteps : List StoreStep → SessionStore → SessionStore
  | [], st => st
  | .call c :: steps, st => runSteps steps (c.run.run.run st).2
  | .wait n :: steps, st => runSteps steps { st with server := st.server.advance n }

/-- 2026-01-01T00:00:00Z. -/
def epoch : Time.Instant := Time.Instant.ofCivil 2026 1 1 0 0 0

/-- A clock that moves one second at each reading, starting one second after `epoch`. -/
def clockAt (n : Nat) : Time.Instant := { epoch with seconds := epoch.seconds + n }

/-- Alice's first session expires while her index, refreshed by a second login, lives on; then
Bob signs in under the expired session's id. -/
def staleIndexStore : SessionStore :=
  runSteps [.call (.record "alice" "s1" "10.0.0.1"), .wait 1728000,
    .call (.record "alice" "s2" "10.0.0.1"), .wait 1296000,
    .call (.record "bob" "s1" "10.0.0.2")] (SessionStore.fresh clockAt 0)

/-- Once a session key expires, a user's index can name another user's session: listing
Alice's sessions answers Bob's record. -/
theorem stale_index_lists_foreign_session :
    ∃ ds, ((listByUser "alice").run.run staleIndexStore).1 = .ok ds ∧ ∃ d ∈ ds, d.userId = "bob" := by
  have hlist : ((listByUser "alice").run.run staleIndexStore).1.isOk = true := by decide +kernel
  have hidx : "s1" ∈ staleIndexStore.server.setOf (userKey "alice") := by decide +kernel
  have hbob : ((load "s1").run.run staleIndexStore).1.toOption.map SessionData.userId = some "bob" := by
    decide +kernel
  cases hl : ((listByUser "alice").run.run staleIndexStore).1 with
  | error e =>
    rw [hl] at hlist
    cases hlist
  | ok ds =>
    cases hd : ((load "s1").run.run staleIndexStore).1 with
    | error f =>
      rw [hd] at hbob
      cases hbob
    | ok d =>
      rw [hd] at hbob
      exact ⟨ds, rfl, d, listByUser_complete hl hidx (load_ok hd), Option.some.inj hbob⟩

end Outliner.Session
