import Outliner.Style.CatalogText

/-!
# Which style edits a catalog accepts

An edit goes through eight checks in a fixed order (`StyleCheck.order`): the property is known,
a unit given is declared and taken by the property, the value is of the property's kind, a text
fits the length in bytes and the closed list of values, a number lies within the bounds. Each
check is stated on its own (`StyleCheck.Passes`), without the order the catalog makes them in.
Validation accepts exactly the edits that pass them all, and refuses the others as invalid with
the text of the first check that fails (`validate_eq_ok_iff`, `validate_eq_error_iff`).

A catalog read from YAML is built exactly when every property has a definition, a kind that is
`string` or `number`, and only declared units (`build_ok_iff`). So every unit a property of
such a catalog takes is declared, and the check that a unit is declared follows from the one
that the property takes it: validation accepts an edit exactly when the property is known, the
unit is absent or taken, and the value suits the property's kind and bounds
(`style_catalog_accepts_well_formed_edits`).
-/

set_option autoImplicit false

namespace Outliner

/-- The checks a style edit goes through, in the order the catalog makes them. -/
inductive StyleCheck where
  | property
  | unitKnown
  | unitAllowed
  | kind
  | length
  | values
  | lowerBound
  | upperBound
  deriving DecidableEq, Repr

namespace StyleCheck

/-- The checks in the order they are made. -/
def order : List StyleCheck :=
  [property, unitKnown, unitAllowed, kind, length, values, lowerBound, upperBound]

variable (c : Catalog) (e : StyleEdit)

/-- `k.Passes c e`: the edit passes check `k` of the catalog. The checks after the first speak of
the property's spec and hold when there is none; the checks of a text speak only of text
properties, those of a number only of number properties. -/
def Passes : StyleCheck → Prop
  | property => (c.property? e.property).isSome
  | unitKnown => ∀ u, e.unit = some u → u ∈ c.units
  | unitAllowed => ∀ p u, c.property? e.property = some p → e.unit = some u → u ∈ p.units
  | kind => ∀ p, c.property? e.property = some p →
      (p.kind = .text → e.valueNumber = none) ∧ (p.kind = .number → e.valueString = none)
  | length => ∀ p v, c.property? e.property = some p → p.kind = .text → e.valueString = some v →
      p.maxLength ≤ 0 ∨ (v.utf8ByteSize : Int) ≤ p.maxLength
  | values => ∀ p v, c.property? e.property = some p → p.kind = .text → e.valueString = some v →
      p.values = [] ∨ v ∈ p.values
  | lowerBound => ∀ p v lo, c.property? e.property = some p → p.kind = .number →
      e.valueNumber = some v → p.min = some lo → lo ≤ v
  | upperBound => ∀ p v hi, c.property? e.property = some p → p.kind = .number →
      e.valueNumber = some v → p.max = some hi → v ≤ hi

/-- The text a failed check reports of an edit to a property with spec `p`. -/
def report (e : StyleEdit) (p : PropertySpec) : StyleCheck → String
  | property => "unknown style property " ++ Text.quoted e.property
  | unitKnown => "unknown style unit " ++ Text.quoted (e.unit.getD "")
  | unitAllowed => p.name ++ " does not take unit " ++ Text.quoted (e.unit.getD "")
  | kind => s!"{p.name} takes a {p.kind.name} value"
  | length => s!"{p.name} value longer than {p.maxLength}"
  | values => p.name ++ " must be one of " ++ Catalog.bracketed p.values
  | lowerBound => s!"{p.name} below {p.min.getD 0}"
  | upperBound => s!"{p.name} above {p.max.getD 0}"

/-- The text a failed check reports, naming the property or unit it concerns. -/
def message (k : StyleCheck) : String := report e ((c.property? e.property).getD default) k

/-- `k.FirstFailing c e`: the edit fails check `k` and passes every check made before it. -/
def FirstFailing (k : StyleCheck) : Prop :=
  ∃ pre post, order = pre ++ k :: post ∧ (∀ k' ∈ pre, k'.Passes c e) ∧ ¬ k.Passes c e

variable {c e}

theorem FirstFailing.unique {k k' : StyleCheck} (h : k.FirstFailing c e) (h' : k'.FirstFailing c e) :
    k = k' := by
  classical
  obtain ⟨pre, post, hsplit, hpre, hk⟩ := h
  obtain ⟨pre', post', hsplit', hpre', hk'⟩ := h'
  have h₁ : order.find? (fun x => !decide (x.Passes c e)) = some k :=
    List.find?_eq_some_iff_append.mpr ⟨by simpa using hk, pre, post, hsplit, fun a ha => by simpa using hpre a ha⟩
  have h₂ : order.find? (fun x => !decide (x.Passes c e)) = some k' :=
    List.find?_eq_some_iff_append.mpr ⟨by simpa using hk', pre', post', hsplit', fun a ha => by simpa using hpre' a ha⟩
  exact Option.some.inj (h₁.symm.trans h₂)

theorem firstFailing_property (hp : c.property? e.property = none) : property.FirstFailing c e :=
  ⟨[], _, rfl, by simp, by simp [Passes, hp]⟩

section Report

variable (p : PropertySpec)

@[simp] theorem report_property : report e p property = "unknown style property " ++ Text.quoted e.property :=
  rfl

@[simp] theorem report_unitKnown : report e p unitKnown = "unknown style unit " ++ Text.quoted (e.unit.getD "") :=
  rfl

@[simp] theorem report_unitAllowed :
    report e p unitAllowed = p.name ++ " does not take unit " ++ Text.quoted (e.unit.getD "") :=
  rfl

@[simp] theorem report_kind : report e p kind = s!"{p.name} takes a {p.kind.name} value" := rfl

@[simp] theorem report_length : report e p length = s!"{p.name} value longer than {p.maxLength}" := rfl

@[simp] theorem report_values :
    report e p values = p.name ++ " must be one of " ++ Catalog.bracketed p.values :=
  rfl

@[simp] theorem report_lowerBound : report e p lowerBound = s!"{p.name} below {p.min.getD 0}" := rfl

@[simp] theorem report_upperBound : report e p upperBound = s!"{p.name} above {p.max.getD 0}" := rfl

end Report

theorem kind_message_text (n : String) :
    s!"{n} takes a {ValueKind.text.name} value" = s!"{n} takes a string value" := by
  simp only [ValueKind.name, toString, String.append_assoc]
  rfl

theorem kind_message_number (n : String) :
    s!"{n} takes a {ValueKind.number.name} value" = s!"{n} takes a number value" := by
  simp only [ValueKind.name, toString, String.append_assoc]
  rfl

/-! ## The checks of a known property -/

section Known

variable {p : PropertySpec} (hp : c.property? e.property = some p)
include hp

theorem passes_property : property.Passes c e := by simp [Passes, hp]

theorem message_eq_report (k : StyleCheck) : k.message c e = report e p k := by
  unfold message
  rw [hp]
  rfl

theorem passes_bounds_of_text (hkind : p.kind = .text) :
    lowerBound.Passes c e ∧ upperBound.Passes c e := by
  constructor <;>
  · simp only [Passes, hp, Option.some.injEq]
    rintro _ _ _ rfl hk
    simp [hkind] at hk

theorem passes_text_of_number (hkind : p.kind = .number) :
    length.Passes c e ∧ values.Passes c e := by
  constructor <;>
  · simp only [Passes, hp, Option.some.injEq]
    rintro _ _ rfl hk
    simp [hkind] at hk

theorem checkText_outcome (hu : unitKnown.Passes c e ∧ unitAllowed.Passes c e)
    (hkind : p.kind = .text) (hnum : e.valueNumber = none) {v : String} (hv : e.valueString = some v) :
    (Catalog.checkText p v = .ok () ∧ ∀ k : StyleCheck, k.Passes c e) ∨
      ∃ k : StyleCheck, k.FirstFailing c e ∧
        Catalog.checkText p v = .error (Failure.invalid (k.message c e)) := by
  have hkindP : kind.Passes c e := by simp [Passes, hp, hkind, hnum]
  have hbefore : ∀ k' ∈ [property, unitKnown, unitAllowed, kind], k'.Passes c e := by
    simp [passes_property hp, hu.1, hu.2, hkindP]
  unfold Catalog.checkText
  split
  · -- longer than the bound
    rename_i hlong
    refine .inr ⟨length, ⟨[property, unitKnown, unitAllowed, kind], [values, lowerBound, upperBound],
      rfl, hbefore, fun h => ?_⟩,
      by rw [message_eq_report hp]; rfl⟩
    have := h p v hp hkind hv
    simp at hlong
    omega
  have hlen : length.Passes c e := by
    rename_i hlong
    simp only [Passes, hp, hv, Option.some.injEq]
    rintro _ _ rfl - rfl
    simp at hlong
    omega
  split
  · -- not among the values listed
    rename_i hvals
    refine .inr ⟨values, ⟨[property, unitKnown, unitAllowed, kind, length], [lowerBound, upperBound],
      rfl, by simp [hbefore, hlen], fun h => ?_⟩,
      by rw [message_eq_report hp]; rfl⟩
    simp at hvals
    rcases h p v hp hkind hv with h | h
    · exact hvals.1 h
    · exact hvals.2 h
  · -- every check passes; those of a number say nothing of a text property
    rename_i hvals
    refine .inl ⟨rfl, fun k => ?_⟩
    cases k with
    | property => exact passes_property hp
    | unitKnown => exact hu.1
    | unitAllowed => exact hu.2
    | kind => exact hkindP
    | length => exact hlen
    | values =>
      simp only [Passes, hp, hv, Option.some.injEq]
      rintro _ _ rfl - rfl
      simp at hvals
      by_cases hnil : p.values = []
      · exact .inl hnil
      · exact .inr (hvals hnil)
    | lowerBound => exact (passes_bounds_of_text hp hkind).1
    | upperBound => exact (passes_bounds_of_text hp hkind).2

theorem checkNumber_outcome (hu : unitKnown.Passes c e ∧ unitAllowed.Passes c e)
    (hkind : p.kind = .number) (hstr : e.valueString = none) {v : Int} (hv : e.valueNumber = some v) :
    (Catalog.checkNumber p v = .ok () ∧ ∀ k : StyleCheck, k.Passes c e) ∨
      ∃ k : StyleCheck, k.FirstFailing c e ∧
        Catalog.checkNumber p v = .error (Failure.invalid (k.message c e)) := by
  have hkindP : kind.Passes c e := by simp [Passes, hp, hkind, hstr]
  obtain ⟨hlen, hvals⟩ := passes_text_of_number hp hkind
  have hbefore : ∀ k' ∈ [property, unitKnown, unitAllowed, kind, length, values], k'.Passes c e := by
    simp [passes_property hp, hu.1, hu.2, hkindP, hlen, hvals]
  -- what each bound decides
  have hlow : (∀ lo, p.min = some lo → lo ≤ v) → lowerBound.Passes c e := by
    intro h
    simp only [Passes, hp, hv, Option.some.injEq]
    rintro _ _ lo rfl - rfl hlo
    exact h lo hlo
  have hall : (∀ lo, p.min = some lo → lo ≤ v) → (∀ hi, p.max = some hi → v ≤ hi) →
      ∀ k : StyleCheck, k.Passes c e := by
    intro hmin hmax k
    cases k with
    | property => exact passes_property hp
    | unitKnown => exact hu.1
    | unitAllowed => exact hu.2
    | kind => exact hkindP
    | length => exact hlen
    | values => exact hvals
    | lowerBound => exact hlow hmin
    | upperBound =>
      simp only [Passes, hp, hv, Option.some.injEq]
      rintro _ _ hi rfl - rfl hhi
      exact hmax hi hhi
  have hbelow : ∀ lo, p.min = some lo → v < lo →
      lowerBound.FirstFailing c e ∧ lowerBound.message c e = s!"{p.name} below {lo}" := by
    intro lo hlo hlt
    refine ⟨⟨[property, unitKnown, unitAllowed, kind, length, values], [upperBound], rfl, hbefore,
      fun h => ?_⟩, ?_⟩
    · have := h p v lo hp hkind hv hlo
      omega
    · rw [message_eq_report hp, report_lowerBound, hlo, Option.getD_some]
  have habove : (∀ lo, p.min = some lo → lo ≤ v) → ∀ hi, p.max = some hi → hi < v →
      upperBound.FirstFailing c e ∧ upperBound.message c e = s!"{p.name} above {hi}" := by
    intro hmin hi hhi hlt
    refine ⟨⟨[property, unitKnown, unitAllowed, kind, length, values, lowerBound], [], rfl,
      by simp [hbefore, hlow hmin], fun h => ?_⟩, ?_⟩
    · have := h p v hi hp hkind hv hhi
      omega
    · rw [message_eq_report hp, report_upperBound, hhi, Option.getD_some]
  unfold Catalog.checkNumber
  cases hmin : p.min with
  | none =>
    have hnone : ∀ lo, p.min = some lo → lo ≤ v := by simp [hmin]
    cases hmax : p.max with
    | none => exact .inl ⟨rfl, hall hnone (by simp [hmax])⟩
    | some hi =>
      dsimp only
      split
      · rename_i hgt
        obtain ⟨hf, hm⟩ := habove hnone hi hmax (by simpa using hgt)
        exact .inr ⟨upperBound, hf, by rw [hm]⟩
      · rename_i hle
        exact .inl ⟨rfl, hall hnone fun hi' h => by simp [hmax] at h; subst h; simpa using hle⟩
  | some lo =>
    dsimp only
    split
    · rename_i hlt
      obtain ⟨hf, hm⟩ := hbelow lo hmin (by simpa using hlt)
      exact .inr ⟨lowerBound, hf, by rw [hm]⟩
    rename_i hge
    have hlo : ∀ lo', p.min = some lo' → lo' ≤ v := fun lo' h => by
      simp [hmin] at h
      subst h
      simpa using hge
    cases hmax : p.max with
    | none => exact .inl ⟨rfl, hall hlo (by simp [hmax])⟩
    | some hi =>
      dsimp only
      split
      · rename_i hgt
        obtain ⟨hf, hm⟩ := habove hlo hi hmax (by simpa using hgt)
        exact .inr ⟨upperBound, hf, by rw [hm]⟩
      · rename_i hle
        exact .inl ⟨rfl, hall hlo fun hi' h => by simp [hmax] at h; subst h; simpa using hle⟩

end Known

theorem validate_outcome (c : Catalog) (e : StyleEdit) :
    (c.validate e = .ok () ∧ ∀ k : StyleCheck, k.Passes c e) ∨
      ∃ k : StyleCheck, k.FirstFailing c e ∧ c.validate e = .error (Failure.invalid (k.message c e)) := by
  unfold Catalog.validate
  cases hp : c.property? e.property with
  | none =>
    refine .inr ⟨property, firstFailing_property hp, ?_⟩
    unfold message
    rw [hp]
    rfl
  | some p =>
    have hprop := passes_property hp
    dsimp only
    split
    · -- a unit the catalog does not declare, or one the property does not take
      rename_i f hunit
      cases hu : e.unit with
      | none =>
        rw [hu] at hunit
        cases hunit
      | some u =>
        rw [hu] at hunit
        dsimp only at hunit
        split at hunit
        · rename_i hunknown
          obtain rfl := (Except.error.inj hunit).symm
          have hout : u ∉ c.units := by simpa [Catalog.isUnit] using hunknown
          refine .inr ⟨unitKnown, ⟨[property], _, rfl, by simp [hprop], fun h => hout (h u hu)⟩, ?_⟩
          rw [message_eq_report hp, report_unitKnown, hu, Option.getD_some]
        split at hunit
        · rename_i hknown hnotTaken
          obtain rfl := (Except.error.inj hunit).symm
          have hin : u ∈ c.units := by simpa [Catalog.isUnit] using hknown
          have hout : u ∉ p.units := by simpa using hnotTaken
          have hk : unitKnown.Passes c e := by
            simp only [Passes, hu, Option.some.injEq]
            rintro _ rfl
            exact hin
          refine .inr ⟨unitAllowed, ⟨[property, unitKnown], _, rfl, by simp [hprop, hk],
            fun h => hout (h p u hp hu)⟩, ?_⟩
          rw [message_eq_report hp, report_unitAllowed, hu, Option.getD_some]
        · cases hunit
    rename_i hunit
    -- the unit is absent, or declared and taken
    have hu : unitKnown.Passes c e ∧ unitAllowed.Passes c e := by
      cases hu : e.unit with
      | none => simp [Passes, hu]
      | some u =>
        rw [hu] at hunit
        dsimp only at hunit
        split at hunit
        · cases hunit
        split at hunit
        · cases hunit
        rename_i hknown htaken
        constructor
        · simp only [Passes, hu, Option.some.injEq]
          rintro _ rfl
          simpa [Catalog.isUnit] using hknown
        · simp only [Passes, hu, hp, Option.some.injEq]
          rintro _ _ rfl rfl
          simpa using htaken
    cases hkind : p.kind with
    | text =>
      dsimp only
      split
      · -- a number for a text property
        rename_i hnum
        obtain ⟨n, hn⟩ := Option.isSome_iff_exists.mp hnum
        refine .inr ⟨kind, ⟨[property, unitKnown, unitAllowed], _, rfl, by simp [hprop, hu.1, hu.2],
          fun h => by simp [(h p hp).1 hkind] at hn⟩, ?_⟩
        rw [message_eq_report hp, report_kind, hkind, kind_message_text]
      rename_i hnum
      have hnum' : e.valueNumber = none := by simpa using hnum
      cases hv : e.valueString with
      | none =>
        refine .inl ⟨rfl, fun k => ?_⟩
        cases k with
        | property => exact hprop
        | unitKnown => exact hu.1
        | unitAllowed => exact hu.2
        | kind => simp [Passes, hp, hkind, hnum']
        | length => simp [Passes, hv]
        | values => simp [Passes, hv]
        | lowerBound => exact (passes_bounds_of_text hp hkind).1
        | upperBound => exact (passes_bounds_of_text hp hkind).2
      | some v => exact checkText_outcome hp hu hkind hnum' hv
    | number =>
      dsimp only
      split
      · -- a text for a number property
        rename_i hstr
        obtain ⟨t, ht⟩ := Option.isSome_iff_exists.mp hstr
        refine .inr ⟨kind, ⟨[property, unitKnown, unitAllowed], _, rfl, by simp [hprop, hu.1, hu.2],
          fun h => by simp [(h p hp).2 hkind] at ht⟩, ?_⟩
        rw [message_eq_report hp, report_kind, hkind, kind_message_number]
      rename_i hstr
      have hstr' : e.valueString = none := by simpa using hstr
      cases hv : e.valueNumber with
      | none =>
        refine .inl ⟨rfl, fun k => ?_⟩
        cases k with
        | property => exact hprop
        | unitKnown => exact hu.1
        | unitAllowed => exact hu.2
        | kind => simp [Passes, hp, hkind, hstr']
        | length => exact (passes_text_of_number hp hkind).1
        | values => exact (passes_text_of_number hp hkind).2
        | lowerBound => simp [Passes, hv]
        | upperBound => simp [Passes, hv]
      | some v => exact checkNumber_outcome hp hu hkind hstr' hv

theorem validate_eq_ok_iff (c : Catalog) (e : StyleEdit) :
    c.validate e = .ok () ↔ ∀ k : StyleCheck, k.Passes c e := by
  rcases validate_outcome c e with ⟨h, hall⟩ | ⟨k, ⟨_, _, _, _, hfail⟩, h⟩
  · exact iff_of_true h hall
  · rw [h]
    exact iff_of_false (by simp) fun hall => hfail (hall k)

theorem validate_eq_error_iff (c : Catalog) (e : StyleEdit) (f : Failure) :
    c.validate e = .error f ↔ ∃ k : StyleCheck, k.FirstFailing c e ∧ f = Failure.invalid (k.message c e) := by
  rcases validate_outcome c e with ⟨h, hall⟩ | ⟨k, hk, h⟩
  · rw [h]
    refine iff_of_false (by simp) ?_
    rintro ⟨k, ⟨_, _, _, _, hfail⟩, -⟩
    exact hfail (hall k)
  · rw [h, Except.error.injEq]
    constructor
    · rintro rfl
      exact ⟨k, hk, rfl⟩
    · rintro ⟨k', hk', rfl⟩
      rw [hk.unique hk']

end StyleCheck

section MapM

variable {ε α β : Type} (f : α → Except ε β)

theorem exists_mapM_except_eq_ok_iff :
    ∀ l : List α, (∃ r, l.mapM f = .ok r) ↔ ∀ a ∈ l, ∃ b, f a = .ok b
  | [] => by simp [pure, Except.pure]
  | a :: l => by
    rw [List.mapM_cons, List.forall_mem_cons, ← exists_mapM_except_eq_ok_iff l]
    cases f a with
    | error e => simp [bind, Except.bind]
    | ok b =>
      cases l.mapM f with
      | error e => simp [bind, Except.bind]
      | ok bs => simp [bind, Except.bind, pure, Except.pure]

theorem mem_of_mapM_except_eq_ok {b : β} :
    ∀ {l : List α} {r : List β}, l.mapM f = .ok r → b ∈ r → ∃ a ∈ l, f a = .ok b
  | [], r, h, hb => by
    obtain rfl : r = [] := (Except.ok.inj h).symm
    cases hb
  | a :: l, r, h, hb => by
    rw [List.mapM_cons] at h
    cases ha : f a with
    | error e => simp [ha, bind, Except.bind] at h
    | ok b' =>
      cases hl : l.mapM f with
      | error e => simp [ha, hl, bind, Except.bind] at h
      | ok bs =>
        simp only [ha, hl, bind, Except.bind, pure, Except.pure, Except.ok.injEq] at h
        subst h
        rcases List.mem_cons.mp hb with rfl | hb
        · exact ⟨a, List.mem_cons_self, ha⟩
        · obtain ⟨a', ha', hf⟩ := mem_of_mapM_except_eq_ok hl hb
          exact ⟨a', List.mem_cons_of_mem a ha', hf⟩

end MapM

deriving instance DecidableEq for Catalog.Definition

namespace Catalog

theorem ofName?_isSome_iff (s : String) :
    (ValueKind.ofName? s).isSome ↔ s = "string" ∨ s = "number" := by
  unfold ValueKind.ofName?
  split <;> simp_all

theorem exists_checkProperty_eq_ok_iff (units : List String) (name : String) (d? : Option Definition) :
    (∃ p, checkProperty units name d? = .ok p) ↔
      ∃ d, d? = some d ∧ (d.kindName = "string" ∨ d.kindName = "number") ∧ ∀ u ∈ d.units, u ∈ units := by
  cases d? with
  | none => simp [checkProperty]
  | some d =>
    simp only [checkProperty, Option.some.injEq, exists_eq_left', ← ofName?_isSome_iff]
    cases hk : ValueKind.ofName? d.kindName with
    | none => simp
    | some kind =>
      cases hf : d.units.find? (fun u => !units.contains u) with
      | some u =>
        have hout : u ∉ units := by simpa using List.find?_some hf
        simp only [Option.isSome_some, true_and, reduceCtorEq, exists_false, false_iff]
        exact fun hall => hout (hall u (List.mem_of_find?_eq_some hf))
      | none =>
        simp only [Option.isSome_some, true_and]
        refine iff_of_true ⟨_, rfl⟩ fun u hu => ?_
        simpa using List.find?_eq_none.mp hf u hu

theorem checkProperty_eq_ok {units : List String} {name : String} {d? : Option Definition}
    {p : PropertySpec} (h : checkProperty units name d? = .ok p) :
    p.name = name ∧ ∀ u ∈ p.units, u ∈ units := by
  cases d? with
  | none => cases h
  | some d =>
    simp only [checkProperty] at h
    cases hk : ValueKind.ofName? d.kindName with
    | none => simp [hk] at h
    | some kind =>
      cases hf : d.units.find? (fun u => !units.contains u) with
      | some u => simp only [hk, hf, reduceCtorEq] at h
      | none =>
        simp only [hk, hf, Except.ok.injEq] at h
        subst h
        refine ⟨rfl, fun u hu => ?_⟩
        simpa using List.find?_eq_none.mp hf u hu

theorem build_eq (units : List String) (defs : List (String × Option Definition)) :
    build units defs = (fun specs => ⟨specs, units⟩) <$>
      (defs.mergeSort fun a b => a.1 ≤ b.1).mapM fun nd => checkProperty units nd.1 nd.2 := rfl

theorem build_ok_iff (units : List String) (defs : List (String × Option Definition)) :
    (∃ c, build units defs = .ok c) ↔ ∀ nd ∈ defs, ∃ d, nd.2 = some d ∧
      (d.kindName = "string" ∨ d.kindName = "number") ∧ ∀ u ∈ d.units, u ∈ units := by
  have hmapM : (∃ c, build units defs = .ok c) ↔ ∃ specs,
      ((defs.mergeSort fun a b => a.1 ≤ b.1).mapM fun nd => checkProperty units nd.1 nd.2) = .ok specs := by
    rw [build_eq]
    cases (defs.mergeSort fun a b => a.1 ≤ b.1).mapM fun nd => checkProperty units nd.1 nd.2 with
    | error e => simp [Functor.map, Except.map]
    | ok specs => simp [Functor.map, Except.map]
  rw [hmapM, exists_mapM_except_eq_ok_iff]
  simp only [List.mem_mergeSort, exists_checkProperty_eq_ok_iff]

theorem build_eq_ok {units : List String} {defs : List (String × Option Definition)} {c : Catalog}
    (h : build units defs = .ok c) : c.units = units ∧ ∀ p ∈ c.properties, ∀ u ∈ p.units, u ∈ units := by
  rw [build_eq] at h
  cases hm : (defs.mergeSort fun a b => a.1 ≤ b.1).mapM fun nd => checkProperty units nd.1 nd.2 with
  | error e => simp [hm, Functor.map, Except.map] at h
  | ok specs =>
    simp only [hm, Functor.map, Except.map, Except.ok.injEq] at h
    subst h
    refine ⟨rfl, fun p hp u hu => ?_⟩
    obtain ⟨nd, -, hnd⟩ := mem_of_mapM_except_eq_ok _ hm hp
    exact (checkProperty_eq_ok hnd).2 u hu

/-- The units and the definitions, by name, a catalog text decodes into; none for a text that
is not YAML of the catalog's shape. An empty text decodes into no units and no properties. -/
def decodeFile (text : String) : Option (List String × List (String × Option Definition)) :=
  match Yaml.readDocument text with
  | .error _ => none
  | .ok none => some ([], [])
  | .ok (some doc) =>
    match Yaml.decodeDocument doc fileShape with
    | .ok (.ok v) =>
      let f (k : String) : Yaml.Value := (v.fields.lookup k).getD .nil
      some (textsOf (f "units"), (f "properties").entries.map fun (k, d) => (k, definitionOf d))
    | _ => none

theorem parse_eq_build {text : String} {units : List String} {defs : List (String × Option Definition)}
    (h : decodeFile text = some (units, defs)) : parse text = build units defs := by
  unfold decodeFile at h
  unfold parse
  cases hr : Yaml.readDocument text with
  | error p => simp [hr] at h
  | ok doc? =>
    cases doc? with
    | none =>
      simp only [hr, Option.some.injEq, Prod.mk.injEq] at h
      obtain ⟨rfl, rfl⟩ := h
      simp [build_eq, Functor.map, Except.map, pure, Except.pure]
    | some doc =>
      simp only [hr] at h ⊢
      cases hd : Yaml.decodeDocument doc fileShape with
      | error msg => simp [hd] at h
      | ok r =>
        cases r with
        | error errs => simp [hd] at h
        | ok v =>
          simp only [hd, Option.some.injEq, Prod.mk.injEq] at h ⊢
          obtain ⟨rfl, rfl⟩ := h
          rfl

/-- The edits a catalog admits: the property is known, a unit given is one it takes, and the
value suits its kind: for a text, no number and a string within the length and the values
listed; for a number, no string and a number within the bounds. -/
def Admits (c : Catalog) (e : StyleEdit) : Prop :=
  ∃ p, c.property? e.property = some p ∧ (∀ u, e.unit = some u → u ∈ p.units) ∧
    ((p.kind = .text ∧ e.valueNumber = none ∧ ∀ v, e.valueString = some v →
        (p.maxLength ≤ 0 ∨ (v.utf8ByteSize : Int) ≤ p.maxLength) ∧ (p.values = [] ∨ v ∈ p.values)) ∨
      (p.kind = .number ∧ e.valueString = none ∧ ∀ v, e.valueNumber = some v →
        (∀ lo, p.min = some lo → lo ≤ v) ∧ (∀ hi, p.max = some hi → v ≤ hi)))

theorem admits_iff_passes {c : Catalog} (hunits : ∀ p ∈ c.properties, ∀ u ∈ p.units, u ∈ c.units)
    (e : StyleEdit) : c.Admits e ↔ ∀ k : StyleCheck, k.Passes c e := by
  cases hp : c.property? e.property with
  | none =>
    refine iff_of_false (by simp [Admits, hp]) fun hall => ?_
    simpa [StyleCheck.Passes, hp] using hall .property
  | some p =>
    have hmem : p ∈ c.properties := List.mem_of_find?_eq_some hp
    constructor
    · rintro ⟨p', hp', hunit, hval⟩
      obtain rfl : p' = p := Option.some.inj (hp'.symm.trans hp)
      -- the unit checks: a unit the property takes is declared
      have hu : StyleCheck.unitKnown.Passes c e ∧ StyleCheck.unitAllowed.Passes c e := by
        refine ⟨fun u he => hunits p' hmem u (hunit u he), ?_⟩
        simp only [StyleCheck.Passes, hp, Option.some.injEq]
        rintro _ u rfl he
        exact hunit u he
      intro k
      rcases hval with ⟨hkind, hnum, htext⟩ | ⟨hkind, hstr, hnumber⟩
      · cases k with
        | property => exact StyleCheck.passes_property hp
        | unitKnown => exact hu.1
        | unitAllowed => exact hu.2
        | kind => simp [StyleCheck.Passes, hp, hkind, hnum]
        | length =>
          simp only [StyleCheck.Passes, hp, Option.some.injEq]
          rintro _ v rfl - hv
          exact (htext v hv).1
        | values =>
          simp only [StyleCheck.Passes, hp, Option.some.injEq]
          rintro _ v rfl - hv
          exact (htext v hv).2
        | lowerBound => exact (StyleCheck.passes_bounds_of_text hp hkind).1
        | upperBound => exact (StyleCheck.passes_bounds_of_text hp hkind).2
      · cases k with
        | property => exact StyleCheck.passes_property hp
        | unitKnown => exact hu.1
        | unitAllowed => exact hu.2
        | kind => simp [StyleCheck.Passes, hp, hkind, hstr]
        | length => exact (StyleCheck.passes_text_of_number hp hkind).1
        | values => exact (StyleCheck.passes_text_of_number hp hkind).2
        | lowerBound =>
          simp only [StyleCheck.Passes, hp, Option.some.injEq]
          rintro _ v lo rfl - hv hlo
          exact (hnumber v hv).1 lo hlo
        | upperBound =>
          simp only [StyleCheck.Passes, hp, Option.some.injEq]
          rintro _ v hi rfl - hv hhi
          exact (hnumber v hv).2 hi hhi
    · intro hall
      refine ⟨p, hp, fun u hu => hall .unitAllowed p u hp hu, ?_⟩
      have hk := hall .kind p hp
      cases hkind : p.kind with
      | text =>
        exact .inl ⟨rfl, hk.1 hkind, fun v hv =>
          ⟨hall .length p v hp hkind hv, hall .values p v hp hkind hv⟩⟩
      | number =>
        exact .inr ⟨rfl, hk.2 hkind, fun v hv =>
          ⟨fun lo hlo => hall .lowerBound p v lo hp hkind hv hlo,
            fun hi hhi => hall .upperBound p v hi hp hkind hv hhi⟩⟩

end Catalog

/-- A style catalog read from YAML accepts exactly the well-formed edits. For a text that decodes
into units and property definitions, reading it succeeds exactly when every property has a
definition, of kind string or number, taking only declared units. Of a catalog so read,
validation accepts exactly the edits it admits, and refuses the others with a validation
failure that reports the first check, in their order, the edit fails. -/
theorem style_catalog_accepts_well_formed_edits (text : String) (units : List String)
    (defs : List (String × Option Catalog.Definition))
    (hdecode : Catalog.decodeFile text = some (units, defs)) :
    ((∃ c, Catalog.parse text = .ok c) ↔ ∀ nd ∈ defs, ∃ d, nd.2 = some d ∧
      (d.kindName = "string" ∨ d.kindName = "number") ∧ ∀ u ∈ d.units, u ∈ units) ∧
    ∀ c, Catalog.parse text = .ok c → ∀ e : StyleEdit,
      (c.validate e = .ok () ↔ c.Admits e) ∧
      ∀ f, c.validate e = .error f ↔ f.meets .validation ∧
        ∃ k : StyleCheck, k.FirstFailing c e ∧ f = Failure.invalid (k.message c e) := by
  rw [Catalog.parse_eq_build hdecode]
  refine ⟨Catalog.build_ok_iff units defs, fun c hc e => ⟨?_, fun f => ?_⟩⟩
  · -- the properties of a built catalog take only its declared units
    obtain ⟨hcu, hprops⟩ := Catalog.build_eq_ok hc
    rw [StyleCheck.validate_eq_ok_iff, Catalog.admits_iff_passes (hcu ▸ hprops)]
  · rw [StyleCheck.validate_eq_error_iff]
    constructor
    · rintro ⟨k, hk, rfl⟩
      exact ⟨rfl, k, hk, rfl⟩
    · rintro ⟨-, hk⟩
      exact hk

/-- A catalog text whose one property takes a unit the catalog does not declare. -/
def undeclaredUnitText : String :=
  "units: [px]\nproperties:\n  font-size:\n    kind: number\n    units: [em]\n"

/-- A catalog whose property takes a unit it does not declare is refused. -/
theorem undeclared_unit_catalog_refused :
    Catalog.decodeFile undeclaredUnitText =
        some (["px"], [("font-size", some ⟨"number", ["em"], [], 0, none, none⟩)]) ∧
      ¬ ∃ c, Catalog.parse undeclaredUnitText = .ok c := by
  have hdecode : Catalog.decodeFile undeclaredUnitText =
      some (["px"], [("font-size", some ⟨"number", ["em"], [], 0, none, none⟩)]) := by
    decide +kernel
  refine ⟨hdecode, fun hc => ?_⟩
  obtain ⟨d, hd, -, hunits⟩ :=
    (style_catalog_accepts_well_formed_edits _ _ _ hdecode).1.mp hc _ List.mem_cons_self
  obtain rfl := Option.some.inj hd
  simp at hunits

end Outliner
