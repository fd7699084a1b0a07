import Mathlib
import Outliner.Text.Case
import Outliner.Text.Blank
/-!
# Laws of the simple case mappings

Lowering twice is lowering once, raising a lowered character and doing it again changes nothing, and
neither mapping makes a blank out of a character that is not blank.
-/

set_option autoImplicit false

namespace Outliner.Text

/-- A row of a case table: the code points `lo, lo + step, …` up to `hi` move by `delta`. -/
abbrev CaseRow := Nat × Nat × Nat × Int

namespace CaseRow

variable (r : CaseRow) (n : Nat)

/-- The code points of a row. -/
def points : List Nat :=
  (List.range ((r.2.1 - r.1) / r.2.2.1 + 1)).map fun k => r.1 + k * r.2.2.1

/-- Where a row moves a code point. -/
def image : Nat := (n + r.2.2.2).toNat

/-- The test `mapByRows` applies to a row. -/
def Holds : Prop := r.1 ≤ n ∧ n ≤ r.2.1 ∧ (n - r.1) % r.2.2.1 = 0

instance : Decidable (r.Holds n) := inferInstanceAs (Decidable (_ ∧ _))

variable {r n}

theorem mem_points (hs : 0 < r.2.2.1) (hle : r.1 ≤ r.2.1) : n ∈ r.points ↔ r.Holds n := by
  obtain ⟨lo, hi, s, d⟩ := r
  simp only [points, Holds, List.mem_map, List.mem_range] at hs hle ⊢
  constructor
  · rintro ⟨k, hk, rfl⟩
    have hks : k * s ≤ hi - lo :=
      (Nat.mul_le_mul_right s (Nat.le_of_lt_succ hk)).trans (Nat.div_mul_le_self _ s)
    refine ⟨Nat.le_add_right _ _, by omega, ?_⟩
    rw [Nat.add_sub_cancel_left, Nat.mul_mod_left]
  · rintro ⟨hlo, hhi, hmod⟩
    have hdvd : s ∣ n - lo := Nat.dvd_of_mod_eq_zero hmod
    refine ⟨(n - lo) / s, Nat.lt_succ_of_le (Nat.div_le_div_right (by omega)), ?_⟩
    rw [Nat.div_mul_cancel hdvd]
    omega

end CaseRow

/-- The rows ascend, each ending before the next begins, and every row has a positive step
and ends no earlier than it begins. -/
def Separated (rows : List CaseRow) : Prop :=
  rows.IsChain (fun a b => a.2.1 < b.1) ∧ ∀ r ∈ rows, 0 < r.2.2.1 ∧ r.1 ≤ r.2.1

instance (rows : List CaseRow) : Decidable (Separated rows) := inferInstanceAs (Decidable (_ ∧ _))

/-- A mask with the bit of every number of a list set. -/
def maskOf (ps : List Nat) : Nat := ps.foldl (fun acc p => acc ||| 2 ^ p) 0

/-- A mask with the bit of every code point of a table set. -/
def pointMask (rows : List CaseRow) : Nat := maskOf (rows.flatMap CaseRow.points)

theorem testBit_foldl_or (ps : List Nat) (acc n : Nat) :
    (ps.foldl (fun acc p => acc ||| 2 ^ p) acc).testBit n = (acc.testBit n || decide (n ∈ ps)) := by
  induction ps generalizing acc with
  | nil => simp
  | cons p ps ih =>
    rw [List.foldl_cons, ih, Nat.testBit_or, Nat.testBit_two_pow]
    by_cases h : n = p <;> simp [h, eq_comm]

theorem testBit_maskOf {ps : List Nat} {n : Nat} : (maskOf ps).testBit n = true ↔ n ∈ ps := by
  simp [maskOf, testBit_foldl_or]

theorem testBit_pointMask {rows : List CaseRow} {n : Nat} :
    (pointMask rows).testBit n = true ↔ ∃ r ∈ rows, n ∈ r.points := by
  simp [pointMask, testBit_maskOf]

section Lookup

variable {rows : List CaseRow} {r : CaseRow} {n : Nat}

theorem mapByRows_of_find (h : rows.find? (fun r => decide (r.Holds n)) = some r) :
    mapByRows rows n = r.image n := by
  unfold mapByRows CaseRow.image
  rw [show (fun r : CaseRow => decide (r.1 ≤ n ∧ n ≤ r.2.1 ∧ (n - r.1) % r.2.2.1 = 0)) =
    fun r => decide (r.Holds n) from rfl, h]

theorem mapByRows_of_forall (h : ∀ r ∈ rows, ¬ r.Holds n) : mapByRows rows n = n := by
  unfold mapByRows
  rw [show (fun r : CaseRow => decide (r.1 ≤ n ∧ n ≤ r.2.1 ∧ (n - r.1) % r.2.2.1 = 0)) =
    fun r => decide (r.Holds n) from rfl, List.find?_eq_none.mpr (fun r hr => by simpa using h r hr)]

theorem Separated.tail {r₀ : CaseRow} {rs : List CaseRow} (hs : Separated (r₀ :: rs)) :
    Separated rs :=
  ⟨hs.1.tail, fun r hr => hs.2 r (List.mem_cons_of_mem _ hr)⟩

theorem Separated.before {r₀ : CaseRow} {rs : List CaseRow} (hs : Separated (r₀ :: rs)) :
    ∀ r ∈ rs, r₀.2.1 < r.1 := by
  induction rs generalizing r₀ with
  | nil => simp
  | cons r₁ rs ih =>
    intro r hr
    have h₀₁ : r₀.2.1 < r₁.1 := by
      have := List.rel_of_isChain_cons_cons hs.1
      exact this
    rcases List.mem_cons.mp hr with rfl | hr
    · exact h₀₁
    · have h₁ := hs.2 r₁ (by simp)
      have h₁r := ih hs.tail r hr
      omega

theorem find?_of_separated (hs : Separated rows) (hr : r ∈ rows) (hn : r.Holds n) :
    rows.find? (fun r => decide (r.Holds n)) = some r := by
  induction rows with
  | nil => cases hr
  | cons r₀ rs ih =>
    rcases List.mem_cons.mp hr with rfl | hr
    · simp [hn]
    · -- `r` begins after `r₀` ends, so `r₀` does not hold `n`
      have hr₀ : ¬ r₀.Holds n := fun h₀ => by
        have := hs.before r hr
        have := h₀.2.1
        have := hn.1
        omega
      rw [List.find?_cons_of_neg (by simpa using hr₀)]
      exact ih hs.tail hr

theorem mapByRows_of_mem (hs : Separated rows) (hr : r ∈ rows) (hn : n ∈ r.points) :
    mapByRows rows n = r.image n :=
  mapByRows_of_find (find?_of_separated hs hr ((CaseRow.mem_points (hs.2 r hr).1 (hs.2 r hr).2).mp hn))

theorem mapByRows_of_testBit (hs : Separated rows) (h : (pointMask rows).testBit n = false) :
    mapByRows rows n = n := by
  refine mapByRows_of_forall fun r hr hn => ?_
  have : (pointMask rows).testBit n = true :=
    testBit_pointMask.mpr ⟨r, hr, (CaseRow.mem_points (hs.2 r hr).1 (hs.2 r hr).2).mpr hn⟩
  simp_all

theorem mapByRows_cases (hs : Separated rows) (n : Nat) :
    mapByRows rows n = n ∨ ∃ r ∈ rows, n ∈ r.points ∧ mapByRows rows n = r.image n := by
  by_cases h : ∃ r ∈ rows, n ∈ r.points
  · obtain ⟨r, hr, hn⟩ := h
    exact .inr ⟨r, hr, hn, mapByRows_of_mem hs hr hn⟩
  · exact .inl (mapByRows_of_testBit hs (Bool.eq_false_iff.mpr fun ht => h (testBit_pointMask.mp ht)))

end Lookup

/-! ## The checks on the two tables -/

theorem lowerRows_separated : Separated lowerRows := by decide +kernel

theorem upperRows_separated : Separated upperRows := by decide +kernel

/-- What the checks ask of each row's images: a scalar value, not blank. -/
def ImagesPlain (rows : List CaseRow) : Prop :=
  ∀ r ∈ rows, ∀ n ∈ CaseRow.points r,
    (CaseRow.image r n).isValidChar ∧ (maskOf blankCodes).testBit (CaseRow.image r n) = false

instance (rows : List CaseRow) : Decidable (ImagesPlain rows) :=
  inferInstanceAs (Decidable (∀ r ∈ rows, _))

theorem lowerRows_plain : ImagesPlain lowerRows := by decide +kernel

theorem upperRows_plain : ImagesPlain upperRows := by decide +kernel

theorem lower_images_stay :
    ∀ r ∈ lowerRows, ∀ n ∈ CaseRow.points r, (pointMask lowerRows).testBit (CaseRow.image r n) = false := by
  decide +kernel

/-- The first row of the lowercase table whose span covers the image of a row's first code
point. -/
def partner (r : CaseRow) : Option CaseRow :=
  lowerRows.find? fun l : CaseRow => Nat.ble l.1 (r.image r.1) && Nat.ble (r.image r.1) l.2.1

/-- Where the uppercase row `r` moves the code point `y`, lowering and raising again comes back:
the image is in no row of either table, or the row `l` (the partner of `r`) holds it and
moves it back to `y`, or (for the few characters that have no such pair) the two mappings say so
outright. -/
def ComesBack (r : CaseRow) (l : Option CaseRow) (y : Nat) : Prop :=
  ((pointMask lowerRows).testBit (r.image y) = false ∧
      (pointMask upperRows).testBit (r.image y) = false) ∨
    (l.any fun l : CaseRow => decide (l.Holds (r.image y) ∧ l.image (r.image y) = y)) = true ∨
    mapByRows upperRows (mapByRows lowerRows (r.image y)) = r.image y

instance (r : CaseRow) (l : Option CaseRow) (y : Nat) : Decidable (ComesBack r l y) :=
  inferInstanceAs (Decidable (_ ∨ _))

theorem upper_images_come_back :
    ∀ r ∈ upperRows, ∀ y ∈ CaseRow.points r, ComesBack r (partner r) y := by
  decide +kernel

/-! ## The laws on code points -/

section CodePoints

theorem lower_lower (n : Nat) :
    mapByRows lowerRows (mapByRows lowerRows n) = mapByRows lowerRows n := by
  rcases mapByRows_cases lowerRows_separated n with h | ⟨r, hr, hn, h⟩
  · rw [h, h]
  · rw [h]
    exact mapByRows_of_testBit lowerRows_separated (lower_images_stay r hr n hn)

theorem mapByRows_plain {rows : List CaseRow} (hs : Separated rows) (hp : ImagesPlain rows)
    {n : Nat} (hv : n.isValidChar) (hb : n ∉ blankCodes) :
    (mapByRows rows n).isValidChar ∧ mapByRows rows n ∉ blankCodes := by
  rcases mapByRows_cases hs n with h | ⟨r, hr, hn, h⟩
  · rw [h]
    exact ⟨hv, hb⟩
  · obtain ⟨hv', hb'⟩ := hp r hr n hn
    rw [h]
    exact ⟨hv', fun hmem => by simp [testBit_maskOf.mpr hmem] at hb'⟩

theorem mapByRows_valid {rows : List CaseRow} (hs : Separated rows) (hp : ImagesPlain rows)
    {n : Nat} (hv : n.isValidChar) : (mapByRows rows n).isValidChar := by
  rcases mapByRows_cases hs n with h | ⟨r, hr, hn, h⟩
  · rw [h]
    exact hv
  · rw [h]
    exact (hp r hr n hn).1

theorem upper_lower_upper {y : Nat} (hy : mapByRows lowerRows y = y) :
    mapByRows upperRows (mapByRows lowerRows (mapByRows upperRows y)) = mapByRows upperRows y := by
  rcases mapByRows_cases upperRows_separated y with h | ⟨r, hr, hn, h⟩
  · rw [h, hy, h]
  · rw [h]
    rcases upper_images_come_back r hr y hn with ⟨hl, hu⟩ | hpair | hdirect
    · rw [mapByRows_of_testBit lowerRows_separated hl, mapByRows_of_testBit upperRows_separated hu]
    · -- the partner row holds the image and lowers it back to `y`, which `r` raises
      obtain ⟨l, hfound, hcheck⟩ := (Option.any_eq_true _ _).mp hpair
      obtain ⟨hholds, hback⟩ := of_decide_eq_true hcheck
      have hl : l ∈ lowerRows := List.mem_of_find?_eq_some hfound
      rw [mapByRows_of_find (find?_of_separated lowerRows_separated hl hholds), hback, h]
    · exact hdirect

end CodePoints

/-! ## The laws on characters -/

section Characters

theorem toNat_isValidChar (c : Char) : c.toNat.isValidChar := c.valid

@[simp] theorem lowerChar_toNat (c : Char) : (lowerChar c).toNat = mapByRows lowerRows c.toNat := by
  have hv := mapByRows_valid lowerRows_separated lowerRows_plain (toNat_isValidChar c)
  rw [lowerChar, charOr, if_pos hv, Char.toNat_ofNat, if_pos hv]

@[simp] theorem upperChar_toNat (c : Char) : (upperChar c).toNat = mapByRows upperRows c.toNat := by
  have hv := mapByRows_valid upperRows_separated upperRows_plain (toNat_isValidChar c)
  rw [upperChar, charOr, if_pos hv, Char.toNat_ofNat, if_pos hv]

theorem lowerChar_lowerChar (c : Char) : lowerChar (lowerChar c) = lowerChar c :=
  Char.toNat_inj.mp (by simp [lower_lower])

theorem upperChar_lowerChar_idem (c : Char) :
    upperChar (lowerChar (upperChar (lowerChar c))) = upperChar (lowerChar c) :=
  Char.toNat_inj.mp (by simpa using upper_lower_upper (lower_lower c.toNat))

theorem isBlank_upperChar_lowerChar {c : Char} (hc : isBlank c = false) :
    isBlank (upperChar (lowerChar c)) = false := by
  have hb : c.toNat ∉ blankCodes := by simpa [isBlank] using hc
  have hl := mapByRows_plain lowerRows_separated lowerRows_plain (toNat_isValidChar c) hb
  have hu := mapByRows_plain upperRows_separated upperRows_plain hl.1 hl.2
  simpa [isBlank] using hu.2

end Characters

end Outliner.Text
