import Outliner.KeyValue.Server

/-!
# Steps on a state, and the keys of the key-value server

Login sessions, the key-value server and the deployment all run steps that read and write a
state and may fail: `ExceptT ε (StateM σ)`. This module gives the equations of running such
steps and `Preserves I x`, which says that `x` keeps a property `I` of the state whatever its
outcome, and `Answers I x Q`, which adds that every answer of `x` has `Q`, with the rules that
combine them.

For the key-value server it says which commands keep which keys. Only `delete` and
`removeMembers` ever take a key away, and only the key they name; no command changes whether
the server is up. Every command leaves the slots of the keys it does not name as they were,
and `Server.setOf` reads the members of a set: removing members leaves a subset without them,
adding members only adds those named. `Server.Spares k s₀` is the property "as up as `s₀`, and holding `k` if `s₀`
held it", which every command that does not name `k` for removal keeps. A batch runs every
command from where the one before it left the server, failed or not (`batch_state`).
-/

set_option autoImplicit false

namespace Outliner

section Running

variable {ε σ α β : Type}

theorem run_bind (x : ExceptT ε (StateM σ) α) (f : α → ExceptT ε (StateM σ) β) (s : σ) :
    (x >>= f).run.run s = match x.run.run s with
      | (.ok a, s') => (f a).run.run s'
      | (.error e, s') => (.error e, s') := by
  simp only [ExceptT.run_bind, StateT.run_bind]
  rcases x.run.run s with ⟨r, s'⟩
  cases r <;> rfl

@[simp] theorem run_get (s : σ) : (get : ExceptT ε (StateM σ) σ).run.run s = (.ok s, s) := rfl

@[simp] theorem run_set (s s' : σ) :
    (set s' : ExceptT ε (StateM σ) PUnit).run.run s = (.ok ⟨⟩, s') := rfl

@[simp] theorem run_modify (f : σ → σ) (s : σ) :
    (modify f : ExceptT ε (StateM σ) PUnit).run.run s = (.ok ⟨⟩, f s) := rfl

@[simp] theorem run_pure (a : α) (s : σ) :
    (pure a : ExceptT ε (StateM σ) α).run.run s = (.ok a, s) := rfl

@[simp] theorem run_throw (e : ε) (s : σ) :
    (throw e : ExceptT ε (StateM σ) α).run.run s = (.error e, s) := rfl

theorem run_tryCatch (x : ExceptT ε (StateM σ) α) (h : ε → ExceptT ε (StateM σ) α) (s : σ) :
    (tryCatchThe ε x h).run.run s = match x.run.run s with
      | (.ok a, s') => (.ok a, s')
      | (.error e, s') => (h e).run.run s' := by
  simp only [tryCatchThe, MonadExceptOf.tryCatch, ExceptT.tryCatch, ExceptT.run_mk, StateT.run_bind]
  change (do let p ← StateT.run (ExceptT.run x) s; _) = _
  rcases x.run.run s with ⟨r, s'⟩
  cases r <;> rfl

theorem run_tryCatch' (x : ExceptT ε (StateM σ) α) (h : ε → ExceptT ε (StateM σ) α) (s : σ) :
    (tryCatch x h).run.run s = match x.run.run s with
      | (.ok a, s') => (.ok a, s')
      | (.error e, s') => (h e).run.run s' :=
  run_tryCatch x h s

theorem run_map (g : α → β) (x : ExceptT ε (StateM σ) α) (s : σ) :
    (g <$> x).run.run s = ((x.run.run s).1.map g, (x.run.run s).2) := by
  rw [← bind_pure_comp, run_bind]
  rcases x.run.run s with ⟨r, s'⟩
  cases r <;> rfl

end Running

section Preserving

variable {ε σ α β : Type}

/-- `x` keeps the property `I` of the state, whatever its outcome. -/
def Preserves (I : σ → Prop) (x : ExceptT ε (StateM σ) α) : Prop := ∀ s, I s → I (x.run.run s).2

variable {I : σ → Prop}

theorem Preserves.pure (a : α) : Preserves I (Pure.pure a : ExceptT ε (StateM σ) α) := fun _ h => h

theorem Preserves.throw (e : ε) : Preserves I (MonadExcept.throw e : ExceptT ε (StateM σ) α) :=
  fun _ h => h

theorem Preserves.bind {x : ExceptT ε (StateM σ) α} {f : α → ExceptT ε (StateM σ) β}
    (hx : Preserves I x) (hf : ∀ a, Preserves I (f a)) : Preserves I (x >>= f) := by
  intro s hs
  rw [run_bind]
  rcases h : x.run.run s with ⟨r, s'⟩
  have hs' : I s' := by simpa [h] using hx s hs
  cases r with
  | ok a => exact hf a s' hs'
  | error e => exact hs'

theorem Preserves.after_bind {x : ExceptT ε (StateM σ) α} {f : α → ExceptT ε (StateM σ) β} {s : σ}
    (hx : I (x.run.run s).2) (hf : ∀ a, Preserves I (f a)) : I ((x >>= f).run.run s).2 := by
  rw [run_bind]
  rcases h : x.run.run s with ⟨r, s'⟩
  rw [h] at hx
  cases r with
  | ok a => exact hf a s' hx
  | error e => exact hx

theorem Preserves.get_bind {g : σ → ExceptT ε (StateM σ) α} (h : ∀ s, I s → I ((g s).run.run s).2) :
    Preserves I (get >>= g) := by
  intro s hs
  rw [run_bind]
  exact h s hs

theorem Preserves.tryCatch {x : ExceptT ε (StateM σ) α} {h : ε → ExceptT ε (StateM σ) α}
    (hx : Preserves I x) (hh : ∀ e, Preserves I (h e)) : Preserves I (tryCatchThe ε x h) := by
  intro s hs
  rw [run_tryCatch]
  rcases hr : x.run.run s with ⟨r, s'⟩
  have hs' : I s' := by simpa [hr] using hx s hs
  cases r with
  | ok a => exact hs'
  | error e => exact hh e s' hs'

theorem Preserves.map {x : ExceptT ε (StateM σ) α} (hx : Preserves I x) (g : α → β) :
    Preserves I (g <$> x) := by
  intro s hs
  rw [run_map]
  exact hx s hs

theorem Preserves.ite {c : Prop} [Decidable c] {x y : ExceptT ε (StateM σ) α} (hx : Preserves I x)
    (hy : Preserves I y) : Preserves I (if c then x else y) := by
  split <;> assumption

theorem Preserves.forIn_mem {γ : Type} {f : α → γ → ExceptT ε (StateM σ) (ForInStep γ)}
    (xs : List α) (hf : ∀ a ∈ xs, ∀ b, Preserves I (f a b)) (b : γ) :
    Preserves I (ForIn.forIn xs b f) := by
  induction xs generalizing b with
  | nil => exact Preserves.pure b
  | cons x xs ih =>
    rw [List.forIn_cons]
    refine (hf x (List.mem_cons_self ..) b).bind fun s => ?_
    cases s with
    | done b' => exact Preserves.pure b'
    | yield b' => exact ih (fun a ha => hf a (List.mem_cons_of_mem _ ha)) b'

theorem Preserves.forIn {γ : Type} {f : α → γ → ExceptT ε (StateM σ) (ForInStep γ)}
    (hf : ∀ a b, Preserves I (f a b)) (xs : List α) (b : γ) : Preserves I (ForIn.forIn xs b f) :=
  Preserves.forIn_mem xs (fun a _ => hf a) b

theorem Preserves.foldlM {γ : Type} {f : γ → α → ExceptT ε (StateM σ) γ}
    (hf : ∀ b a, Preserves I (f b a)) (xs : List α) (b : γ) : Preserves I (xs.foldlM f b) := by
  induction xs generalizing b with
  | nil => exact Preserves.pure b
  | cons x xs ih =>
    rw [List.foldlM_cons]
    exact (hf b x).bind fun b' => ih b'

/-- From a state with `P`, `x` ends in a state with `P`, and every answer it gives has `Q`. -/
def Answers (P : σ → Prop) (x : ExceptT ε (StateM σ) α) (Q : α → Prop) : Prop :=
  ∀ s, P s → P (x.run.run s).2 ∧ ∀ a, (x.run.run s).1 = .ok a → Q a

variable {Q : α → Prop} {R : β → Prop}

theorem Answers.preserves {x : ExceptT ε (StateM σ) α} (h : Answers I x Q) : Preserves I x :=
  fun s hs => (h s hs).1

theorem Answers.of_preserves {x : ExceptT ε (StateM σ) α} (h : Preserves I x) :
    Answers I x fun _ => True :=
  fun s hs => ⟨h s hs, fun _ _ => trivial⟩

theorem Answers.mono {x : ExceptT ε (StateM σ) α} {Q' : α → Prop} (h : Answers I x Q)
    (hQ : ∀ a, Q a → Q' a) : Answers I x Q' :=
  fun s hs => ⟨(h s hs).1, fun a ha => hQ a ((h s hs).2 a ha)⟩

theorem Answers.pure {a : α} (ha : Q a) : Answers I (Pure.pure a : ExceptT ε (StateM σ) α) Q :=
  fun _ hs => ⟨hs, fun _ h => by cases h; exact ha⟩

theorem Answers.throw (e : ε) : Answers I (MonadExcept.throw e : ExceptT ε (StateM σ) α) Q :=
  fun _ hs => ⟨hs, fun _ h => by cases h⟩

theorem Answers.bind {x : ExceptT ε (StateM σ) α} {f : α → ExceptT ε (StateM σ) β}
    (hx : Answers I x Q) (hf : ∀ a, Q a → Answers I (f a) R) : Answers I (x >>= f) R := by
  intro s hs
  rw [run_bind]
  rcases h : x.run.run s with ⟨r, s'⟩
  have hx' := hx s hs
  rw [h] at hx'
  cases r with
  | ok a => exact hf a (hx'.2 a rfl) s' hx'.1
  | error e => exact ⟨hx'.1, fun _ h => by cases h⟩

theorem Answers.map {x : ExceptT ε (StateM σ) α} (hx : Answers I x Q) {g : α → β}
    (hg : ∀ a, Q a → R (g a)) : Answers I (g <$> x) R := by
  intro s hs
  rw [run_map]
  refine ⟨(hx s hs).1, fun b hb => ?_⟩
  cases h : (x.run.run s).1 with
  | ok a =>
    rw [h] at hb
    cases hb
    exact hg a ((hx s hs).2 a h)
  | error e =>
    rw [h] at hb
    cases hb

theorem Answers.ite {c : Prop} [Decidable c] {x y : ExceptT ε (StateM σ) α} (hx : Answers I x Q)
    (hy : Answers I y Q) : Answers I (if c then x else y) Q := by
  split <;> assumption

theorem Answers.tryCatch {x : ExceptT ε (StateM σ) α} {h : ε → ExceptT ε (StateM σ) α}
    (hx : Answers I x Q) (hh : ∀ e, Answers I (h e) Q) : Answers I (tryCatchThe ε x h) Q := by
  intro s hs
  rw [run_tryCatch]
  rcases hr : x.run.run s with ⟨r, s'⟩
  have hx' := hx s hs
  rw [hr] at hx'
  cases r with
  | ok a => exact ⟨hx'.1, fun _ h => by cases h; exact hx'.2 a rfl⟩
  | error e => exact hh e s' hx'.1

theorem Answers.foldlM {γ : Type} {f : γ → α → ExceptT ε (StateM σ) γ} (Q : γ → Prop)
    (xs : List α) (hf : ∀ b, ∀ a ∈ xs, Q b → Answers I (f b a) Q) (b : γ) (hb : Q b) :
    Answers I (xs.foldlM f b) Q := by
  induction xs generalizing b with
  | nil => exact Answers.pure hb
  | cons x xs ih =>
    rw [List.foldlM_cons]
    exact (hf b x (List.mem_cons_self ..) hb).bind fun b' hb' =>
      ih (fun b a ha => hf b a (List.mem_cons_of_mem _ ha)) b' hb'

theorem Answers.foldlM_prefix {γ : Type} {f : γ → α → ExceptT ε (StateM σ) γ}
    (Q : List α → γ → Prop) (xs : List α)
    (hf : ∀ pre a post b, xs = pre ++ a :: post → Q pre b → Answers I (f b a) (Q (pre ++ [a])))
    (b : γ) (hb : Q [] b) : Answers I (xs.foldlM f b) (Q xs) := by
  have key : ∀ rest pre b, xs = pre ++ rest → Q pre b → Answers I (rest.foldlM f b) (Q xs) := by
    intro rest
    induction rest with
    | nil =>
      intro pre b h hb
      rw [List.append_nil] at h
      subst h
      exact Answers.pure hb
    | cons a rest ih =>
      intro pre b h hb
      rw [List.foldlM_cons]
      exact (hf pre a rest b h hb).bind fun b' hb' => ih (pre ++ [a]) b' (by simp [h]) hb'
  exact key xs [] b rfl hb

end Preserving

namespace KeyValue

namespace Server

/-- The keys the server holds. -/
def keys (s : Server) : List String := s.slots.map (·.1)

theorem slot?_isSome_iff (s : Server) (k : String) : (s.slot? k).isSome ↔ k ∈ s.keys := by
  simp [slot?, keys, List.find?_isSome]

theorem mem_keys_put {s : Server} {k k' : String} {v : Slot} :
    k' ∈ (s.put k v).keys ↔ k' = k ∨ k' ∈ s.keys := by
  unfold put keys
  split
  · rename_i hk
    have hfst : (Prod.fst ∘ fun e : String × Slot => if (e.1 == k) = true then (k, v) else e) =
        Prod.fst := by
      funext e
      by_cases he : e.1 = k <;> simp [he]
    rw [List.map_map, hfst]
    constructor
    · exact .inr
    · rintro (rfl | h)
      · simpa using hk
      · exact h
  · simp [or_comm]

theorem mem_keys_remove {s : Server} {k k' : String} :
    k' ∈ (s.remove k).keys ↔ k' ≠ k ∧ k' ∈ s.keys := by
  simp [remove, keys, and_comm]

@[simp] theorem outage_put (s : Server) (k : String) (v : Slot) : (s.put k v).outage = s.outage := by
  unfold put
  split <;> rfl

@[simp] theorem outage_remove (s : Server) (k : String) : (s.remove k).outage = s.outage := rfl

/-- From `s₀` to `s`, the server stayed as up as it was and kept the key `k` if it held it. -/
def Spares (k : String) (s₀ s : Server) : Prop := s.outage = s₀.outage ∧ (k ∈ s₀.keys → k ∈ s.keys)

variable {k : String} {s₀ s : Server}

theorem Spares.put (h : Spares k s₀ s) (k' : String) (v : Slot) : Spares k s₀ (s.put k' v) :=
  ⟨(outage_put s k' v).trans h.1, fun hk => mem_keys_put.2 (.inr (h.2 hk))⟩

theorem Spares.remove (h : Spares k s₀ s) {k' : String} (hk' : k' ≠ k) : Spares k s₀ (s.remove k') :=
  ⟨h.1, fun hk => mem_keys_remove.2 ⟨fun he => hk' he.symm, h.2 hk⟩⟩

/-! ### Slots after a write -/

theorem find?_replace_ne (l : List (String × Slot)) {k k' : String} (v : Slot) (hk : k' ≠ k) :
    ((l.map fun e => if e.1 == k then (k, v) else e).find? (·.1 == k')).map (·.2) =
      (l.find? (·.1 == k')).map (·.2) := by
  induction l with
  | nil => rfl
  | cons e l ih =>
    rw [List.map_cons, List.find?_cons, List.find?_cons]
    by_cases he : e.1 = k
    · have h1 : (e.1 == k) = true := beq_iff_eq.2 he
      have h2 : (k == k') = false := beq_false_of_ne (Ne.symm hk)
      have h3 : (e.1 == k') = false := beq_false_of_ne fun h => hk (h ▸ he)
      simp only [h1, h2, h3, ↓reduceIte, ih]
    · have h1 : (e.1 == k) = false := beq_false_of_ne he
      simp only [h1, Bool.false_eq_true, ↓reduceIte]
      cases e.1 == k' with
      | true => rfl
      | false => exact ih

theorem find?_replace_eq (l : List (String × Slot)) (k : String) (v : Slot)
    (hany : l.any (·.1 == k) = true) :
    ((l.map fun e => if e.1 == k then (k, v) else e).find? (·.1 == k)).map (·.2) = some v := by
  induction l with
  | nil => simp at hany
  | cons e l ih =>
    rw [List.map_cons, List.find?_cons]
    by_cases he : e.1 = k
    · have h1 : (e.1 == k) = true := beq_iff_eq.2 he
      simp only [h1, ↓reduceIte, beq_self_eq_true, Option.map_some]
    · have h1 : (e.1 == k) = false := beq_false_of_ne he
      simp only [h1, Bool.false_eq_true, ↓reduceIte]
      exact ih (by simpa [he] using hany)

theorem slot?_put (s : Server) (k k' : String) (v : Slot) :
    (s.put k v).slot? k' = if k' = k then some v else s.slot? k' := by
  unfold put slot?
  by_cases hk : k' = k
  · subst hk
    split
    · rename_i hany
      rw [if_pos rfl, find?_replace_eq _ _ _ hany]
    · rename_i hany
      rw [if_pos rfl, List.find?_append]
      have hnone : s.slots.find? (·.1 == k') = none :=
        List.find?_eq_none.2 fun e he hek => hany (List.any_eq_true.2 ⟨e, he, hek⟩)
      simp [hnone]
  · rw [if_neg hk]
    split
    · exact find?_replace_ne _ _ hk
    · rw [List.find?_append]
      have hkk : ((k, v).1 == k') = false := beq_false_of_ne (Ne.symm hk)
      cases s.slots.find? (·.1 == k') with
      | some e => rfl
      | none => simp [List.find?, hkk]

theorem slot?_remove (s : Server) (k k' : String) :
    (s.remove k).slot? k' = if k' = k then none else s.slot? k' := by
  unfold remove slot?
  by_cases hk : k' = k
  · subst hk
    simp [List.find?_filter]
  · rw [if_neg hk, List.find?_filter]
    congr 2
    funext e
    by_cases he : e.1 = k'
    · simp [he, hk]
    · simp [he]

/-- The members of the set a key holds; none when the key holds no set. -/
def setOf (s : Server) (k : String) : List String :=
  match s.slot? k with
  | some ⟨.members ms, _⟩ => ms
  | _ => []

theorem setOf_of_slot? {s s' : Server} {k : String} (h : s'.slot? k = s.slot? k) :
    s'.setOf k = s.setOf k := by
  unfold Server.setOf
  rw [h]

end Server

open Server

/-! ## Commands -/

theorem available_run (s : Server) :
    available.run.run s = (if s.outage = "" then .ok () else .error s.outage, s) := by
  unfold available
  rw [run_bind, run_get]
  by_cases h : s.outage = ""
  · simp only [h, ↓reduceIte]
    rfl
  · have hb : (s.outage != "") = true := bne_iff_ne.2 h
    simp only [h, hb, ↓reduceIte]
    rfl

theorem available_bind_down {α : Type} (f : Unit → ServerM α) {s : Server} (hup : s.outage ≠ "") :
    ((available >>= f).run.run s).2 = s := by
  rw [run_bind, available_run, if_neg hup]

theorem available_get_run {α : Type} (f : Server → ServerM α) (s : Server) :
    (available >>= fun _ => get >>= f).run.run s =
      if s.outage = "" then (f s).run.run s else (.error s.outage, s) := by
  rw [run_bind, available_run]
  by_cases hup : s.outage = ""
  · rw [if_pos hup, if_pos hup]
    dsimp only
    rw [run_bind, run_get]
  · rw [if_neg hup, if_neg hup]

theorem setText_state (k v : String) (ttl : Option Nat) (s : Server) :
    ((setText k v ttl).run.run s).2 = if s.outage = "" then s.put k ⟨.text v, ttl⟩ else s := by
  unfold setText
  rw [run_bind, available_run]
  by_cases h : s.outage = ""
  · simp only [h, ↓reduceIte, run_modify]
  · simp only [h, ↓reduceIte]

theorem exists?_run (k : String) (s : Server) :
    (KeyValue.exists? k).run.run s =
      (if s.outage = "" then .ok (s.slot? k).isSome else .error s.outage, s) := by
  unfold KeyValue.exists?
  rw [run_bind, available_run]
  by_cases h : s.outage = ""
  · simp only [h, ↓reduceIte]
    rfl
  · simp only [h, ↓reduceIte]

/-! ## What a command leaves of the other keys and of a set -/

theorem getText_state (k : String) (s : Server) : ((getText k).run.run s).2 = s := by
  unfold getText
  rw [available_get_run]
  split
  · split <;> rfl
  · rfl

theorem members_state (k : String) (s : Server) : ((members k).run.run s).2 = s := by
  unfold members
  rw [available_get_run]
  split
  · split <;> rfl
  · rfl

theorem members_ok {k : String} {s : Server} {ms : List String}
    (h : ((members k).run.run s).1 = .ok ms) : ms = s.setOf k := by
  unfold members at h
  rw [available_get_run] at h
  split at h
  · split at h
    · rename_i hslot
      cases h
      simp [Server.setOf, hslot]
    · rename_i ms' ttl hslot
      cases h
      simp [Server.setOf, hslot]
    · cases h
  · cases h

theorem delete_state (k : String) (s : Server) :
    ((delete k).run.run s).2 = if s.outage = "" then s.remove k else s := by
  unfold delete
  rw [run_bind, available_run]
  by_cases hup : s.outage = ""
  · rw [if_pos hup, if_pos hup]
    rfl
  · rw [if_neg hup, if_neg hup]

theorem setText_slot? {k k' : String} (hk : k' ≠ k) (v : String) (ttl : Option Nat) (s : Server) :
    ((setText k v ttl).run.run s).2.slot? k' = s.slot? k' := by
  rw [setText_state]
  split
  · rw [slot?_put, if_neg hk]
  · rfl

theorem delete_slot? (k k' : String) (s : Server) :
    ((delete k).run.run s).2.slot? k' = if s.outage = "" ∧ k' = k then none else s.slot? k' := by
  rw [delete_state]
  by_cases hup : s.outage = ""
  · rw [if_pos hup, slot?_remove]
    by_cases hk : k' = k
    · rw [if_pos hk, if_pos ⟨hup, hk⟩]
    · rw [if_neg hk, if_neg fun h => hk h.2]
  · rw [if_neg hup, if_neg fun h => hup h.1]

theorem removeMembers_slot? {k k' : String} (hk : k' ≠ k) (ms : List String) (s : Server) :
    ((removeMembers k ms).run.run s).2.slot? k' = s.slot? k' := by
  unfold removeMembers
  rw [available_get_run]
  split
  · split
    · rfl
    · rw [run_set]
      dsimp only
      split
      · rw [slot?_remove, if_neg hk]
      · rw [slot?_put, if_neg hk]
    · rfl
  · rfl

theorem mem_setOf_removeMembers {k m : String} {ms : List String} {s : Server}
    (h : m ∈ ((removeMembers k ms).run.run s).2.setOf k) :
    m ∈ s.setOf k ∧ (s.outage = "" → m ∉ ms) := by
  unfold removeMembers at h
  rw [available_get_run] at h
  split at h
  · split at h
    · rename_i hslot
      change m ∈ s.setOf k at h
      simp [Server.setOf, hslot] at h
    · rename_i old ttl hslot
      rw [run_set] at h
      dsimp only at h
      split at h
      · simp [Server.setOf, slot?_remove] at h
      · simp [Server.setOf, slot?_put] at h
        exact ⟨by simp [Server.setOf, hslot, h.1], fun _ => h.2⟩
    · rename_i v hv hslot
      change m ∈ s.setOf k at h
      rw [Server.setOf, hslot] at h
      rcases v with ⟨e, ttl⟩
      cases e with
      | text => simp at h
      | members old => exact absurd rfl (hv old ttl)
  · rename_i hup
    exact ⟨h, fun h' => absurd h' hup⟩

theorem mem_insertSorted {x m : String} {l : List String} (h : m ∈ insertSorted x l) :
    m = x ∨ m ∈ l := by
  induction l with
  | nil => simpa [insertSorted] using h
  | cons y ys ih =>
    unfold insertSorted at h
    by_cases h1 : x = y
    · rw [if_pos h1] at h
      exact .inr h
    rw [if_neg h1] at h
    by_cases h2 : x < y
    · rw [if_pos h2] at h
      simpa using h
    rw [if_neg h2] at h
    simp only [List.mem_cons] at h
    rcases h with rfl | h
    · exact .inr (List.mem_cons_self ..)
    · rcases ih h with h | h
      · exact .inl h
      · exact .inr (List.mem_cons_of_mem _ h)

theorem mem_foldl_insertSorted {m : String} {ms acc : List String}
    (h : m ∈ ms.foldl (fun acc x => insertSorted x acc) acc) : m ∈ acc ∨ m ∈ ms := by
  induction ms generalizing acc with
  | nil => exact .inl h
  | cons x xs ih =>
    rcases ih h with h | h
    · rcases mem_insertSorted h with rfl | h
      · exact .inr (List.mem_cons_self ..)
      · exact .inl h
    · exact .inr (List.mem_cons_of_mem _ h)

theorem addMembers_slot? {k k' : String} (hk : k' ≠ k) (ms : List String) (s : Server) :
    ((addMembers k ms).run.run s).2.slot? k' = s.slot? k' := by
  unfold addMembers
  rw [available_get_run]
  split
  · split
    · rw [run_set]
      exact (slot?_put ..).trans (if_neg hk)
    · rw [run_set]
      exact (slot?_put ..).trans (if_neg hk)
    · rfl
  · rfl

theorem mem_setOf_addMembers {k m : String} {ms : List String} {s : Server}
    (h : m ∈ ((addMembers k ms).run.run s).2.setOf k) : m ∈ s.setOf k ∨ m ∈ ms := by
  unfold addMembers at h
  rw [available_get_run] at h
  split at h
  · split at h
    · rw [run_set] at h
      simp only [Server.setOf, slot?_put, ↓reduceIte] at h
      rcases mem_foldl_insertSorted h with h | h
      · simp at h
      · exact .inr h
    · rename_i old ttl hslot
      rw [run_set] at h
      simp only [Server.setOf, slot?_put, ↓reduceIte] at h
      rcases mem_foldl_insertSorted h with h | h
      · exact .inl (by simp [Server.setOf, hslot, h])
      · exact .inr h
    · exact .inl h
  · exact .inl h

theorem expire_slot? {k k' : String} (hk : k' ≠ k) (ttl : Nat) (s : Server) :
    ((expire k ttl).run.run s).2.slot? k' = s.slot? k' := by
  unfold expire
  rw [available_get_run]
  split
  · split
    · rw [run_set]
      exact (slot?_put ..).trans (if_neg hk)
    · rfl
  · rfl

theorem addMembers_down (k : String) (ms : List String) {s : Server} (hup : s.outage ≠ "") :
    ((addMembers k ms).run.run s).2 = s := by
  unfold addMembers
  exact available_bind_down _ hup

theorem expire_down (k : String) (ttl : Nat) {s : Server} (hup : s.outage ≠ "") :
    ((expire k ttl).run.run s).2 = s := by
  unfold expire
  exact available_bind_down _ hup

theorem setOf_expire (k : String) (ttl : Nat) (s : Server) :
    ((expire k ttl).run.run s).2.setOf k = s.setOf k := by
  unfold expire
  rw [available_get_run]
  split
  · split
    · rename_i v hslot
      rw [run_set]
      simp only [Server.setOf, slot?_put, hslot, ↓reduceIte]
      rcases v with ⟨e, t⟩
      cases e <;> rfl
    · rfl
  · rfl

/-! ## Commands spare a key they do not delete -/

variable {k : String} {s₀ : Server}

theorem preserves_available : Preserves (Spares k s₀) available := by
  intro s hs
  rw [available_run]
  exact hs

theorem preserves_getText (k' : String) : Preserves (Spares k s₀) (getText k') :=
  preserves_available.bind fun _ => Preserves.get_bind fun _ hs => by
    split <;> simpa

theorem preserves_setText (k' v : String) (ttl : Option Nat) :
    Preserves (Spares k s₀) (setText k' v ttl) :=
  preserves_available.bind fun _ _ hs => by
    simpa using hs.put k' _

theorem preserves_addMembers (k' : String) (ms : List String) :
    Preserves (Spares k s₀) (addMembers k' ms) :=
  preserves_available.bind fun _ => Preserves.get_bind fun _ hs => by
    split
    · exact hs.put _ _
    · exact hs.put _ _
    · exact hs

theorem preserves_removeMembers {k' : String} (hk : k' ≠ k) (ms : List String) :
    Preserves (Spares k s₀) (removeMembers k' ms) :=
  preserves_available.bind fun _ => Preserves.get_bind fun _ hs => by
    split
    · exact hs
    · simp only [run_set]
      split
      · exact hs.remove hk
      · exact hs.put _ _
    · exact hs

theorem preserves_members (k' : String) : Preserves (Spares k s₀) (members k') :=
  preserves_available.bind fun _ => Preserves.get_bind fun _ hs => by
    split <;> simpa

theorem preserves_expire (k' : String) (ttl : Nat) : Preserves (Spares k s₀) (expire k' ttl) :=
  preserves_available.bind fun _ => Preserves.get_bind fun _ hs => by
    split
    · exact hs.put _ _
    · exact hs

theorem preserves_delete {k' : String} (hk : k' ≠ k) : Preserves (Spares k s₀) (delete k') :=
  preserves_available.bind fun _ _ hs => by
    simpa using hs.remove hk

theorem preserves_exists? (k' : String) : Preserves (Spares k s₀) (KeyValue.exists? k') :=
  preserves_available.bind fun _ => Preserves.get_bind fun _ hs => hs

theorem preserves_batch : ∀ cs : List (ServerM Unit), (∀ c ∈ cs, Preserves (Spares k s₀) c) →
    Preserves (Spares k s₀) (batch cs)
  | [], _ => Preserves.pure ()
  | c :: cs, h => by
    unfold batch
    refine (Preserves.tryCatch ((h c (List.mem_cons_self ..)).bind fun _ => Preserves.pure _)
      fun _ => Preserves.pure _).bind fun r => ?_
    have hcs := preserves_batch cs fun c' hc' => h c' (List.mem_cons_of_mem _ hc')
    cases r with
    | none => exact hcs
    | some e => exact (Preserves.tryCatch hcs fun _ => Preserves.pure _).bind fun _ => Preserves.throw e

theorem batch_state : ∀ (cs : List (ServerM Unit)) (s : Server),
    ((batch cs).run.run s).2 = cs.foldl (fun s c => (c.run.run s).2) s
  | [], _ => rfl
  | c :: cs, s => by
    unfold batch
    rw [run_bind, run_tryCatch', run_bind]
    rcases hc : c.run.run s with ⟨r, s'⟩
    cases r with
    | ok u =>
      simp only [run_pure, List.foldl_cons, hc]
      exact batch_state cs s'
    | error e =>
      simp only [run_pure, List.foldl_cons, hc]
      rw [run_bind, run_tryCatch', ← batch_state cs s']
      rcases (batch cs).run.run s' with ⟨r', s''⟩
      cases r' <;> rfl

end KeyValue

end Outliner
