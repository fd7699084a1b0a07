import Outliner.Store.Memory

/-!
# Running store steps

A store step runs from a store and gives its outcome and the store after it (`exec`). This
module gives the equations of running for the monad's own operations, for failures named by
a step and for transactions, and the properties of steps that the store's theorems are built
from, each with the rules that combine them:

* `ReadsOnly x`: `x` leaves the store as it found it;
* `Advances x`: ids are only ever minted, and a step begun outside a transaction ends outside;
* `Keeps I x`: `x` keeps a property `I` of the store, whatever its outcome;
* `Triple P x Q`: when `x` succeeds from a store with `P`, its answer and the store after it
  satisfy `Q`;
* `Atomic x`: when `x` fails from outside a transaction, the tables are as they were.
-/

set_option autoImplicit false

namespace Outliner.Memory

/-- Runs a store step from a store: its outcome and the store after it. -/
def exec {α : Type} (x : MemoryM α) (m : Memory) : Except Failure α × Memory := x.run.run m

section Exec

variable {α β : Type}

@[simp] theorem exec_pure (a : α) (m : Memory) : exec (pure a) m = (.ok a, m) := rfl

theorem exec_bind (x : MemoryM α) (f : α → MemoryM β) (m : Memory) :
    exec (x >>= f) m = match exec x m with
      | (.ok a, m') => exec (f a) m'
      | (.error e, m') => (.error e, m') := by
  simp only [exec, ExceptT.run_bind, StateT.run_bind]
  rcases x.run.run m with ⟨r, m'⟩
  cases r <;> rfl

theorem exec_bind_ok {x : MemoryM α} {m m' : Memory} {a : α} (h : exec x m = (.ok a, m'))
    (f : α → MemoryM β) : exec (x >>= f) m = exec (f a) m' := by
  rw [exec_bind, h]

theorem exec_bind_error {x : MemoryM α} {m m' : Memory} {e : Failure}
    (h : exec x m = (.error e, m')) (f : α → MemoryM β) : exec (x >>= f) m = (.error e, m') := by
  rw [exec_bind, h]

@[simp] theorem exec_throw (e : Failure) (m : Memory) :
    exec (throw e : MemoryM α) m = (.error e, m) := rfl

@[simp] theorem exec_raise (e : Failure) (m : Memory) :
    exec (Failure.raise e : MemoryM α) m = (.error e, m) := rfl

@[simp] theorem exec_get (m : Memory) : exec (get : MemoryM Memory) m = (.ok m, m) := rfl

@[simp] theorem exec_set (m m' : Memory) : exec (set m' : MemoryM PUnit) m = (.ok ⟨⟩, m') := rfl

@[simp] theorem exec_modify (f : Memory → Memory) (m : Memory) :
    exec (modify f : MemoryM PUnit) m = (.ok ⟨⟩, f m) := rfl

@[simp] theorem exec_modifyTables (f : Tables → Tables) (m : Memory) :
    exec (modifyTables f) m = (.ok (), { m with tables := f m.tables }) := rfl

@[simp] theorem exec_tablesNow (m : Memory) : exec tablesNow m = (.ok m.tables, m) := rfl

theorem exec_tryCatch (x : MemoryM α) (h : Failure → MemoryM α) (m : Memory) :
    exec (tryCatchThe Failure x h) m = match exec x m with
      | (.ok a, m') => (.ok a, m')
      | (.error e, m') => exec (h e) m' := by
  simp only [exec, tryCatchThe, MonadExceptOf.tryCatch, ExceptT.tryCatch, ExceptT.run_mk,
    StateT.run_bind]
  change (do let p ← StateT.run (ExceptT.run x) m; _) = _
  rcases x.run.run m with ⟨r, m'⟩
  cases r <;> rfl

theorem exec_tryCatch' (x : MemoryM α) (h : Failure → MemoryM α) (m : Memory) :
    exec (tryCatch x h) m = match exec x m with
      | (.ok a, m') => (.ok a, m')
      | (.error e, m') => exec (h e) m' :=
  exec_tryCatch x h m

theorem exec_during (s : String) (x : MemoryM α) (m : Memory) :
    exec (Failure.during s x) m = ((exec x m).1.mapError (Failure.wrap s), (exec x m).2) := by
  rw [Failure.during, exec_tryCatch]
  rcases exec x m with ⟨r, m'⟩
  cases r <;> rfl

theorem exec_map (g : α → β) (x : MemoryM α) (m : Memory) :
    exec (g <$> x) m = ((exec x m).1.map g, (exec x m).2) := by
  rw [← bind_pure_comp, exec_bind]
  rcases exec x m with ⟨r, m'⟩
  cases r <;> rfl

theorem exec_atomically {body : MemoryM α} {m : Memory} (h : m.inTransaction = false) :
    exec (atomically body) m = match exec body { m with inTransaction := true } with
      | (.ok a, m') => (.ok a, { m' with inTransaction := false })
      | (.error e, m') => (.error e, { m' with tables := m.tables, inTransaction := false }) := by
  simp only [atomically, atomicallyVia, id]
  rw [exec_bind_ok (exec_get m)]
  simp only [h, Bool.false_eq_true, ↓reduceIte]
  rw [exec_bind_ok (exec_set _ _), exec_tryCatch', exec_bind]
  rcases exec body { m with inTransaction := true } with ⟨r, m'⟩
  cases r <;> rfl

theorem exec_atomically_inside {body : MemoryM α} {m : Memory} (h : m.inTransaction = true) :
    exec (atomically body) m = exec body m := by
  simp only [atomically, atomicallyVia, id]
  rw [exec_bind_ok (exec_get m)]
  simp [h]

end Exec

section Properties

variable {α β : Type}

/-- `x` leaves the store as it found it. -/
def ReadsOnly (x : MemoryM α) : Prop := ∀ m, (exec x m).2 = m

/-- From `m` to `m'` no id was given back, and a store outside a transaction stayed outside. -/
def Advanced (m m' : Memory) : Prop :=
  m.minted ≤ m'.minted ∧ (m.inTransaction = false → m'.inTransaction = false)

/-- Every run of `x` advances the store. -/
def Advances (x : MemoryM α) : Prop := ∀ m, Advanced m (exec x m).2

/-- `x` keeps the property `I`, whatever its outcome. -/
def Keeps (I : Memory → Prop) (x : MemoryM α) : Prop := ∀ m, I m → I (exec x m).2

/-- When `x` succeeds from a store with `P`, its answer and the store after it have `Q`. -/
def Triple (P : Memory → Prop) (x : MemoryM α) (Q : α → Memory → Prop) : Prop :=
  ∀ m a m', P m → exec x m = (.ok a, m') → Q a m'

/-- When `x` fails from a store outside a transaction, its tables are as they were. -/
def Atomic (x : MemoryM α) : Prop :=
  ∀ m e m', m.inTransaction = false → exec x m = (.error e, m') → m'.tables = m.tables

theorem Advanced.refl (m : Memory) : Advanced m m := ⟨Nat.le_refl _, id⟩

theorem Advanced.trans {m₁ m₂ m₃ : Memory} (h₁ : Advanced m₁ m₂) (h₂ : Advanced m₂ m₃) :
    Advanced m₁ m₃ :=
  ⟨Nat.le_trans h₁.1 h₂.1, h₂.2 ∘ h₁.2⟩

/-! ### Reading only -/

theorem ReadsOnly.pure (a : α) : ReadsOnly (pure a : MemoryM α) := fun _ => rfl

theorem ReadsOnly.raise (e : Failure) : ReadsOnly (Failure.raise e : MemoryM α) := fun _ => rfl

theorem ReadsOnly.bind {x : MemoryM α} {f : α → MemoryM β} (hx : ReadsOnly x)
    (hf : ∀ a, ReadsOnly (f a)) : ReadsOnly (x >>= f) := by
  intro m
  rw [exec_bind]
  rcases h : exec x m with ⟨r, m'⟩
  have hm : m' = m := by simpa [h] using hx m
  cases r with
  | ok a => simpa [hm] using hf a m
  | error e => exact hm

theorem ReadsOnly.during (s : String) {x : MemoryM α} (hx : ReadsOnly x) :
    ReadsOnly (Failure.during s x) := by
  intro m
  rw [exec_during]
  exact hx m

theorem ReadsOnly.tryCatch {x : MemoryM α} {h : Failure → MemoryM α} (hx : ReadsOnly x)
    (hh : ∀ e, ReadsOnly (h e)) : ReadsOnly (tryCatchThe Failure x h) := by
  intro m
  rw [exec_tryCatch]
  rcases hr : exec x m with ⟨r, m'⟩
  have hm : m' = m := by simpa [hr] using hx m
  cases r with
  | ok a => exact hm
  | error e => simpa [hm] using hh e m

theorem ReadsOnly.ite {c : Prop} [Decidable c] {x y : MemoryM α} (hx : ReadsOnly x)
    (hy : ReadsOnly y) : ReadsOnly (if c then x else y) := by
  split <;> assumption

theorem ReadsOnly.advances {x : MemoryM α} (hx : ReadsOnly x) : Advances x := by
  intro m
  rw [hx m]
  exact Advanced.refl m

theorem ReadsOnly.keeps {x : MemoryM α} (hx : ReadsOnly x) (I : Memory → Prop) : Keeps I x := by
  intro m hm
  rwa [hx m]

theorem ReadsOnly.triple {x : MemoryM α} (hx : ReadsOnly x) (P : Memory → Prop) :
    Triple P x (fun _ => P) := by
  intro m a m' hm h
  have hm' : m' = m := by simpa [h] using hx m
  rwa [hm']

theorem ReadsOnly.atomic {x : MemoryM α} (hx : ReadsOnly x) : Atomic x := by
  intro m e m' _ h
  have hm' : m' = m := by simpa [h] using hx m
  rw [hm']

/-! ### Advancing -/

theorem Advances.pure (a : α) : Advances (pure a : MemoryM α) := (ReadsOnly.pure a).advances

theorem Advances.raise (e : Failure) : Advances (Failure.raise e : MemoryM α) :=
  (ReadsOnly.raise e).advances

theorem Advances.bind {x : MemoryM α} {f : α → MemoryM β} (hx : Advances x)
    (hf : ∀ a, Advances (f a)) : Advances (x >>= f) := by
  intro m
  rw [exec_bind]
  rcases h : exec x m with ⟨r, m'⟩
  have hm : Advanced m m' := by simpa [h] using hx m
  cases r with
  | ok a => exact hm.trans (hf a m')
  | error e => exact hm

theorem Advances.during (s : String) {x : MemoryM α} (hx : Advances x) :
    Advances (Failure.during s x) := by
  intro m
  rw [exec_during]
  exact hx m

theorem Advances.tryCatch {x : MemoryM α} {h : Failure → MemoryM α} (hx : Advances x)
    (hh : ∀ e, Advances (h e)) : Advances (tryCatchThe Failure x h) := by
  intro m
  rw [exec_tryCatch]
  rcases hr : exec x m with ⟨r, m'⟩
  have hm : Advanced m m' := by simpa [hr] using hx m
  cases r with
  | ok a => exact hm
  | error e => exact hm.trans (hh e m')

theorem Advances.ite {c : Prop} [Decidable c] {x y : MemoryM α} (hx : Advances x)
    (hy : Advances y) : Advances (if c then x else y) := by
  split <;> assumption

theorem Advances.atomically {body : MemoryM α} (hb : Advances body) : Advances (atomically body) := by
  intro m
  cases ht : m.inTransaction with
  | true =>
    rw [exec_atomically_inside ht]
    exact hb m
  | false =>
    rw [exec_atomically ht]
    have hm := (hb { m with inTransaction := true }).1
    rcases hr : exec body { m with inTransaction := true } with ⟨r, m'⟩
    rw [hr] at hm
    cases r with
    | ok a => exact ⟨hm, fun _ => rfl⟩
    | error e => exact ⟨hm, fun _ => rfl⟩

/-! ### Keeping a property -/

theorem Keeps.bind {I : Memory → Prop} {x : MemoryM α} {f : α → MemoryM β} (hx : Keeps I x)
    (hf : ∀ a, Keeps I (f a)) : Keeps I (x >>= f) := by
  intro m hm
  rw [exec_bind]
  rcases h : exec x m with ⟨r, m'⟩
  have hm' : I m' := by simpa [h] using hx m hm
  cases r with
  | ok a => exact hf a m' hm'
  | error e => exact hm'

theorem Keeps.during {I : Memory → Prop} (s : String) {x : MemoryM α} (hx : Keeps I x) :
    Keeps I (Failure.during s x) := by
  intro m hm
  rw [exec_during]
  exact hx m hm

theorem Keeps.ite {I : Memory → Prop} {c : Prop} [Decidable c] {x y : MemoryM α} (hx : Keeps I x)
    (hy : Keeps I y) : Keeps I (if c then x else y) := by
  split <;> assumption

theorem Keeps.and {I J : Memory → Prop} {x : MemoryM α} (hI : Keeps I x) (hJ : Keeps J x) :
    Keeps (fun m => I m ∧ J m) x :=
  fun m hm => ⟨hI m hm.1, hJ m hm.2⟩

/-! ### Triples -/

theorem Triple.pure {Q : α → Memory → Prop} (a : α) : Triple (Q a) (pure a : MemoryM α) Q := by
  intro m b m' hm h
  simp only [exec_pure, Prod.mk.injEq, Except.ok.injEq] at h
  obtain ⟨rfl, rfl⟩ := h
  exact hm

theorem Triple.raise (P : Memory → Prop) (Q : α → Memory → Prop) (e : Failure) :
    Triple P (Failure.raise e : MemoryM α) Q := by
  intro m a m' _ h
  simp at h

theorem Triple.bind {P : Memory → Prop} {R : α → Memory → Prop} {Q : β → Memory → Prop}
    {x : MemoryM α} {f : α → MemoryM β} (hx : Triple P x R) (hf : ∀ a, Triple (R a) (f a) Q) :
    Triple P (x >>= f) Q := by
  intro m b m'' hm h
  rw [exec_bind] at h
  rcases hr : exec x m with ⟨r, m'⟩
  rw [hr] at h
  cases r with
  | ok a => exact hf a m' b m'' (hx m a m' hm hr) h
  | error e => cases h

theorem Triple.during {P : Memory → Prop} {Q : α → Memory → Prop} (s : String) {x : MemoryM α}
    (hx : Triple P x Q) : Triple P (Failure.during s x) Q := by
  intro m a m' hm h
  rw [exec_during] at h
  rcases hr : exec x m with ⟨r, m''⟩
  rw [hr] at h
  cases r with
  | ok b =>
    cases h
    exact hx m _ _ hm hr
  | error e => cases h

theorem Triple.ite {P : Memory → Prop} {Q : α → Memory → Prop} {c : Prop} [Decidable c]
    {x y : MemoryM α} (hx : Triple P x Q) (hy : Triple P y Q) : Triple P (if c then x else y) Q := by
  split <;> assumption

theorem Triple.mono {P P' : Memory → Prop} {Q Q' : α → Memory → Prop} {x : MemoryM α}
    (hx : Triple P x Q) (hP : ∀ m, P' m → P m) (hQ : ∀ a m, Q a m → Q' a m) : Triple P' x Q' :=
  fun m a m' hm h => hQ a m' (hx m a m' (hP m hm) h)

theorem Keeps.triple {I : Memory → Prop} {x : MemoryM α} (hx : Keeps I x) :
    Triple I x (fun _ => I) := by
  intro m a m' hm h
  simpa [h] using hx m hm

/-! ### Failing without a trace -/

theorem Atomic.raise (e : Failure) : Atomic (Failure.raise e : MemoryM α) :=
  (ReadsOnly.raise e).atomic

theorem Atomic.ite {c : Prop} [Decidable c] {x y : MemoryM α} (hx : Atomic x) (hy : Atomic y) :
    Atomic (if c then x else y) := by
  split <;> assumption

theorem Atomic.bind {x : MemoryM α} {f : α → MemoryM β} (hx : ReadsOnly x)
    (hf : ∀ a, Atomic (f a)) : Atomic (x >>= f) := by
  intro m e m'' hin h
  rw [exec_bind] at h
  rcases hr : exec x m with ⟨r, m'⟩
  have hm : m' = m := by simpa [hr] using hx m
  rw [hr] at h
  subst hm
  cases r with
  | ok a => exact hf a m' e m'' hin h
  | error e' =>
    simp only [Prod.mk.injEq] at h
    rw [h.2]

theorem Atomic.bind_pure {x : MemoryM α} (hx : Atomic x) (g : α → β) :
    Atomic (x >>= fun a => pure (g a)) := by
  intro m e m' hin h
  rw [exec_bind] at h
  rcases hr : exec x m with ⟨r, m''⟩
  rw [hr] at h
  cases r with
  | ok a => cases h
  | error e' =>
    simp only [Prod.mk.injEq] at h
    rw [← h.2]
    exact hx m e' m'' hin hr

theorem Atomic.atomically (body : MemoryM α) : Atomic (atomically body) := by
  intro m e m' hin h
  rw [exec_atomically hin] at h
  rcases hr : exec body { m with inTransaction := true } with ⟨r, m''⟩
  rw [hr] at h
  cases r with
  | ok a => cases h
  | error e' =>
    simp only [Prod.mk.injEq] at h
    rw [← h.2]

end Properties

end Outliner.Memory
