import Mathlib
import Outliner.Time.Read
/-!
# An instant in UTC reads back from its text

The text of an instant with a zero offset and no fraction is its civil date and time, each field
zero-padded, then `Z`. Reading that text back gives the instant again whenever the reading succeeds,
for every instant from 1970 on (`Instant.read_text`).
-/

set_option autoImplicit false

namespace Outliner.Time

/-! ## Civil dates -/

theorem yearOfEra_bounds (doe : Int) (h0 : 0 ≤ doe) (h1 : doe ≤ 146096) :
    0 ≤ (doe - doe / 1460 + doe / 36524 - doe / 146096) / 365 ∧
    (doe - doe / 1460 + doe / 36524 - doe / 146096) / 365 ≤ 399 ∧
    0 ≤ doe - (365 * ((doe - doe / 1460 + doe / 36524 - doe / 146096) / 365) +
      ((doe - doe / 1460 + doe / 36524 - doe / 146096) / 365) / 4 -
      ((doe - doe / 1460 + doe / 36524 - doe / 146096) / 365) / 100) ∧
    doe - (365 * ((doe - doe / 1460 + doe / 36524 - doe / 146096) / 365) +
      ((doe - doe / 1460 + doe / 36524 - doe / 146096) / 365) / 4 -
      ((doe - doe / 1460 + doe / 36524 - doe / 146096) / 365) / 100) ≤ 365 := by
  rcases lt_or_eq_of_le h1 with hlt | heq
  · obtain ⟨c, r, hr0, hr1, hc0, hc1, rfl⟩ : ∃ c r, 0 ≤ r ∧ r < 36524 ∧ 0 ≤ c ∧ c ≤ 3 ∧ doe = 36524 * c + r :=
      ⟨doe / 36524, doe % 36524, by omega, by omega, by omega, by omega, by omega⟩
    obtain ⟨q, s, hs0, hs1, hq0, hq1, rfl⟩ : ∃ q s, 0 ≤ s ∧ s < 1461 ∧ 0 ≤ q ∧ q ≤ 24 ∧ r = 1461 * q + s :=
      ⟨r / 1461, r % 1461, by omega, by omega, by omega, by omega, by omega⟩
    have h146 : (36524 * c + (1461 * q + s)) / 146096 = 0 := by omega
    have h365 : (36524 * c + (1461 * q + s)) / 36524 = c := by omega
    have h14 : (36524 * c + (1461 * q + s)) / 1460 = 25 * c + q + (24 * c + q + s) / 1460 := by omega
    have hδ : (24 * c + q + s) / 1460 ≤ 1 := by omega
    rw [h146, h365, h14]
    have hy : (36524 * c + (1461 * q + s) - (25 * c + q + (24 * c + q + s) / 1460) + c - 0) / 365 =
        100 * c + 4 * q + (s - (24 * c + q + s) / 1460) / 365 := by omega
    rw [hy]
    have ha : (s - (24 * c + q + s) / 1460) / 365 ≤ 3 := by omega
    have ha0 : 0 ≤ (s - (24 * c + q + s) / 1460) / 365 := by omega
    have h4 : (100 * c + 4 * q + (s - (24 * c + q + s) / 1460) / 365) / 4 = 25 * c + q := by omega
    have h100 : (100 * c + 4 * q + (s - (24 * c + q + s) / 1460) / 365) / 100 = c := by omega
    rw [h4, h100]
    omega
  · subst heq
    norm_num

theorem daysFromCivil_of_parts (era yoe doy : Int) (hyoe0 : 0 ≤ yoe) (hyoe1 : yoe ≤ 399)
    (hdoy0 : 0 ≤ doy) (hdoy1 : doy ≤ 365) :
    daysFromCivil
      (if (if (5 * doy + 2) / 153 < 10 then (5 * doy + 2) / 153 + 3 else (5 * doy + 2) / 153 - 9) ≤ 2
        then yoe + era * 400 + 1 else yoe + era * 400)
      (if (5 * doy + 2) / 153 < 10 then (5 * doy + 2) / 153 + 3 else (5 * doy + 2) / 153 - 9)
      (doy - (153 * ((5 * doy + 2) / 153) + 2) / 5 + 1) =
      era * 146097 + (yoe * 365 + yoe / 4 - yoe / 100 + doy) - 719468 := by
  have hmp0 : 0 ≤ (5 * doy + 2) / 153 := by omega
  have hmp1 : (5 * doy + 2) / 153 ≤ 11 := by omega
  generalize hmp : (5 * doy + 2) / 153 = mp at hmp0 hmp1 ⊢
  have hday : (153 * mp + 2) / 5 ≤ doy := by omega
  simp only [daysFromCivil]
  split_ifs <;> omega

theorem daysFromCivil_civilFromDays (z : Int) :
    daysFromCivil (civilFromDays z).1 (civilFromDays z).2.1 (civilFromDays z).2.2 = z := by
  have hdoe0 : 0 ≤ z + 719468 - (z + 719468) / 146097 * 146097 := by omega
  have hdoe1 : z + 719468 - (z + 719468) / 146097 * 146097 ≤ 146096 := by omega
  obtain ⟨hy0, hy1, hd0, hd1⟩ := yearOfEra_bounds _ hdoe0 hdoe1
  have := daysFromCivil_of_parts ((z + 719468) / 146097) _ _ hy0 hy1 hd0 hd1
  simp only [civilFromDays]
  rw [this]
  omega

theorem civilFromDays_bounds (z : Int) :
    1 ≤ (civilFromDays z).2.1 ∧ (civilFromDays z).2.1 ≤ 12 ∧
    1 ≤ (civilFromDays z).2.2 ∧ (civilFromDays z).2.2 ≤ 31 ∧
    (0 ≤ z → 0 ≤ (civilFromDays z).1) := by
  have hdoe0 : 0 ≤ z + 719468 - (z + 719468) / 146097 * 146097 := by omega
  have hdoe1 : z + 719468 - (z + 719468) / 146097 * 146097 ≤ 146096 := by omega
  obtain ⟨hy0, hy1, hd0, hd1⟩ := yearOfEra_bounds _ hdoe0 hdoe1
  simp only [civilFromDays]
  generalize (z + 719468 - (z + 719468) / 146097 * 146097 -
    (z + 719468 - (z + 719468) / 146097 * 146097) / 1460 +
    (z + 719468 - (z + 719468) / 146097 * 146097) / 36524 -
    (z + 719468 - (z + 719468) / 146097 * 146097) / 146096) / 365 = yoe at *
  have hera : 0 ≤ z → 0 ≤ (z + 719468) / 146097 := fun hz => by omega
  generalize z + 719468 - (z + 719468) / 146097 * 146097 - (365 * yoe + yoe / 4 - yoe / 100) = doy at *
  have hmp0 : 0 ≤ (5 * doy + 2) / 153 := by omega
  have hmp1 : (5 * doy + 2) / 153 ≤ 11 := by omega
  generalize hmp : (5 * doy + 2) / 153 = mp at hmp0 hmp1 ⊢
  have hday : (153 * mp + 2) / 5 ≤ doy := by omega
  have hday' : doy ≤ (153 * mp + 2) / 5 + 30 := by omega
  split_ifs <;> omega

/-! ## Digits -/

theorem toList_padded (w n : Nat) :
    (padded w n).toList = List.replicate (w - (Nat.toDigits 10 n).length) '0' ++ Nat.toDigits 10 n := by
  simp [padded, Nat.repr_eq_ofList_toDigits]

theorem isDigit_of_mem_padded {w n : Nat} {c : Char} (h : c ∈ (padded w n).toList) : c.isDigit := by
  rw [toList_padded] at h
  rcases List.mem_append.mp h with h | h
  · rw [List.eq_of_mem_replicate h]
    rfl
  · exact Nat.isDigit_of_mem_toDigits (by decide) (by decide) h

theorem ofDigitChars_padded (w n : Nat) : Nat.ofDigitChars 10 (padded w n).toList 0 = n := by
  rw [toList_padded, Nat.ofDigitChars_append, Nat.ofDigitChars_replicate_zero, Nat.mul_zero,
    Nat.ofDigitChars_ten_toDigits]

theorem length_padded {w n : Nat} (hw : 0 < w) (h : n < 10 ^ w) : (padded w n).toList.length = w := by
  have hle := (Nat.length_toDigits_le_iff (by decide : 1 < 10) hw).mpr h
  rw [toList_padded, List.length_append, List.length_replicate]
  omega

theorem allDigits_eq {cs : List Char} (h : ∀ c ∈ cs, c.isDigit) :
    allDigits cs = some (Nat.ofDigitChars 10 cs 0) := by
  unfold allDigits
  generalize 0 = init
  induction cs generalizing init with
  | nil => rfl
  | cons c cs ih =>
    have hc : digitOf c = some (c.toNat - 48) := by simp [digitOf, h c List.mem_cons_self]
    rw [List.foldlM_cons, hc, Nat.ofDigitChars_cons]
    exact ih (fun c' hc' => h c' (List.mem_cons_of_mem _ hc')) _

theorem twoDigits_padded (fixed : Bool) {n : Nat} (hn : n < 100) (rest : List Char) :
    twoDigits fixed ((padded 2 n).toList ++ rest) = some (n, rest) := by
  obtain ⟨a, b, hab⟩ := List.length_eq_two.mp (length_padded (by decide) (by simpa using hn))
  have ha : a.isDigit := isDigit_of_mem_padded (by rw [hab]; simp)
  have hb : b.isDigit := isDigit_of_mem_padded (by rw [hab]; simp)
  have hval := ofDigitChars_padded 2 n
  rw [hab, Nat.ofDigitChars_cons, Nat.ofDigitChars_cons, Nat.ofDigitChars_nil] at hval
  have hda : digitOf a = some (a.toNat - 48) := by simp [digitOf, ha]
  have hdb : digitOf b = some (b.toNat - 48) := by simp [digitOf, hb]
  rw [hab, List.cons_append, List.cons_append, List.nil_append, twoDigits.eq_1, hda]
  dsimp only
  rw [hdb]
  have hn' : 10 * (a.toNat - 48) + (b.toNat - 48) = n := by simpa using hval
  dsimp only
  rw [hn']

/-! ## The reader's steps -/

theorem year_padded (value : String) {y : Nat} (hy : y < 10000) (rest : List Char) (f : Fields) :
    year value ((padded 4 y).toList ++ rest) f = .ok (rest, { f with year := y }) := by
  have hlen := length_padded (by decide : 0 < 4) (by simpa using hy)
  have htake : ((padded 4 y).toList ++ rest).take 4 = (padded 4 y).toList := by
    rw [List.take_append_of_le_length (by omega), List.take_of_length_le (by omega)]
  have hdrop : ((padded 4 y).toList ++ rest).drop 4 = rest := by
    rw [List.drop_append_of_le_length (by omega), List.drop_of_length_le (by omega), List.nil_append]
  obtain ⟨c, cs, hc⟩ := List.exists_cons_of_length_pos (show 0 < (padded 4 y).toList.length by omega)
  have hcd : c.isDigit := isDigit_of_mem_padded (by rw [hc]; exact List.mem_cons_self)
  have hhead : (((padded 4 y).toList.head?).map Char.isDigit).getD false = true := by
    rw [hc]
    simpa using hcd
  unfold year
  dsimp only
  rw [htake, hdrop, hlen, hhead, allDigits_eq (fun _ h => isDigit_of_mem_padded h), ofDigitChars_padded]
  rfl

theorem year_long (value : String) {y : Nat} (hy : 10000 ≤ y) (rest : List Char) (f : Fields) :
    ∃ c more f', c.isDigit ∧ year value ((padded 4 y).toList ++ rest) f = .ok (c :: more, f') := by
  have hlong : 4 < (Nat.toDigits 10 y).length := by
    by_contra h
    have := (Nat.length_toDigits_le_iff (n := y) (k := 4) (by decide : 1 < 10) (by decide)).mp (by omega)
    omega
  have hlist : (padded 4 y).toList = Nat.toDigits 10 y := by
    rw [toList_padded, Nat.sub_eq_zero_of_le (by omega), List.replicate_zero, List.nil_append]
  have hdig : ∀ d ∈ Nat.toDigits 10 y, d.isDigit :=
    fun d hd => Nat.isDigit_of_mem_toDigits (by decide) (by decide) hd
  obtain ⟨c, more, hdrop⟩ := List.exists_cons_of_length_pos
    (show 0 < ((Nat.toDigits 10 y).drop 4).length by rw [List.length_drop]; omega)
  obtain ⟨c₁, cs, hcs⟩ := List.exists_cons_of_length_pos (show 0 < (Nat.toDigits 10 y).length by omega)
  have htake : ((Nat.toDigits 10 y) ++ rest).take 4 = (Nat.toDigits 10 y).take 4 :=
    List.take_append_of_le_length (by omega)
  have hdrop' : ((Nat.toDigits 10 y) ++ rest).drop 4 = c :: (more ++ rest) := by
    rw [List.drop_append_of_le_length (by omega), hdrop, List.cons_append]
  have hhead : ((((Nat.toDigits 10 y).take 4).head?).map Char.isDigit).getD false = true := by
    rw [hcs, List.take_succ_cons, List.head?_cons]
    simpa using hdig c₁ (by rw [hcs]; exact List.mem_cons_self)
  have hall : allDigits ((Nat.toDigits 10 y).take 4) = some (Nat.ofDigitChars 10 ((Nat.toDigits 10 y).take 4) 0) :=
    allDigits_eq fun d hd => hdig d (List.mem_of_mem_take hd)
  refine ⟨c, more ++ rest, { f with year := Nat.ofDigitChars 10 ((Nat.toDigits 10 y).take 4) 0 },
    hdig c (List.mem_of_mem_drop (hdrop ▸ List.mem_cons_self)), ?_⟩
  rw [hlist]
  unfold year
  dsimp only
  rw [htake, hdrop', hhead, hall, List.length_take, Nat.min_eq_left (by omega)]
  rfl

theorem literal_digit (value : String) {c d : Char} (hd : d.isDigit) (hc : c.isDigit = false)
    (rest : List Char) (f : Fields) : ∃ e, literal value c (d :: rest) f = .error e := by
  have hne : d ≠ c := fun h => by rw [h, hc] at hd; cases hd
  refine ⟨cannotParse value (d :: rest) (String.singleton c), ?_⟩
  simp [literal, hne]

theorem literal_cons (value : String) (c : Char) (rest : List Char) (f : Fields) :
    literal value c (c :: rest) f = .ok (rest, f) := by
  simp [literal]

theorem ranged_padded (value elem what : String) (fixed : Bool) {lo hi n : Nat} (hn : n < 100)
    (hlo : lo ≤ n) (hhi : n ≤ hi) (set : Fields → Nat → Fields) (rest : List Char) (f : Fields) :
    ranged value elem what fixed lo hi set ((padded 2 n).toList ++ rest) f = .ok (rest, set f n) := by
  simp only [ranged, twoDigits_padded fixed hn]
  rw [if_neg (by simp; omega)]

theorem seconds_padded (value : String) {n : Nat} (hn : n ≤ 59) (f : Fields) :
    seconds value ((padded 2 n).toList ++ ['Z']) f = .ok (['Z'], { f with second := n, nanos := 0 }) := by
  simp only [seconds, twoDigits_padded true (by omega : n < 100)]
  rw [if_neg (by omega)]
  rfl

theorem zone_utc (value : String) (f : Fields) : zone value ['Z'] f = .ok ([], { f with offset := 0 }) := by
  simp [zone]

/-! ## The whole text -/

theorem toList_text_utc {t : Instant} (hoff : t.offset = 0) (hnanos : t.nanos = 0) :
    t.text.toList =
      (padded 4 (civilFromDays (t.seconds / 86400)).1.toNat).toList ++ '-' ::
      ((padded 2 (civilFromDays (t.seconds / 86400)).2.1.toNat).toList ++ '-' ::
      ((padded 2 (civilFromDays (t.seconds / 86400)).2.2.toNat).toList ++ 'T' ::
      ((padded 2 ((t.seconds % 86400).toNat / 3600)).toList ++ ':' ::
      ((padded 2 ((t.seconds % 86400).toNat % 3600 / 60)).toList ++ ':' ::
      ((padded 2 ((t.seconds % 86400).toNat % 60)).toList ++ ['Z']))))) := by
  simp [Instant.text, hoff, hnanos, fractionText]

theorem read_of_long_year {value : String} {y : Nat} (hy : 10000 ≤ y) {rest : List Char}
    (hv : value.toList = (padded 4 y).toList ++ '-' :: rest) (t' : Instant) :
    Instant.read value ≠ .ok t' := by
  obtain ⟨c, more, f', hc, hyear⟩ := year_long value hy ('-' :: rest) ⟨0, 0, 0, 0, 0, 0, 0, 0⟩
  obtain ⟨e, hlit⟩ := literal_digit value hc (by decide : ('-').isDigit = false) more f'
  unfold Instant.read
  rw [hv]
  simp only [steps, List.foldlM_cons, hyear, bind, Except.bind, hlit]
  simp

theorem Instant.read_text {t t' : Instant} (hoff : t.offset = 0) (hnanos : t.nanos = 0)
    (hsec : 0 ≤ t.seconds) (h : Instant.read t.text = .ok t') : t' = t := by
  obtain ⟨hm1, hm12, hd1, hd31, hy0⟩ := civilFromDays_bounds (t.seconds / 86400)
  have hdays := daysFromCivil_civilFromDays (t.seconds / 86400)
  have hS : (t.seconds % 86400).toNat < 86400 := by omega
  by_cases hY : (civilFromDays (t.seconds / 86400)).1.toNat < 10000
  swap
  · exact absurd h (read_of_long_year (Nat.le_of_not_lt hY) (toList_text_utc hoff hnanos) t')
  unfold Instant.read at h
  rw [toList_text_utc hoff hnanos] at h
  have hm : (civilFromDays (t.seconds / 86400)).2.1.toNat < 100 := by omega
  have hd : (civilFromDays (t.seconds / 86400)).2.2.toNat < 100 := by omega
  simp only [steps, List.foldlM_cons, List.foldlM_nil, year_padded _ hY, bind, Except.bind,
    literal_cons, ranged_padded _ _ _ _ hm (by omega : 1 ≤ _) (by omega : _ ≤ 12),
    ranged_padded _ _ _ _ hd (by omega : 0 ≤ _) (by omega : _ ≤ 99),
    ranged_padded _ _ _ _ (by omega : (t.seconds % 86400).toNat / 3600 < 100) (by omega : 0 ≤ _) (by omega : _ ≤ 23),
    ranged_padded _ _ _ _ (by omega : (t.seconds % 86400).toNat % 3600 / 60 < 100) (by omega : 0 ≤ _) (by omega : _ ≤ 59),
    seconds_padded _ (by omega : (t.seconds % 86400).toNat % 60 ≤ 59), zone_utc, pure, Except.pure,
    List.isEmpty_nil, Bool.not_true, Bool.false_eq_true, if_false] at h
  split at h
  · simp [throw, throwThe, MonadExceptOf.throw] at h
  · injection h with h
    subst h
    have hY0 := hy0 (by omega)
    obtain ⟨sec, nanos, off⟩ := t
    dsimp only at hoff hnanos hsec hdays hY0 hm1 hd1 hS ⊢
    subst hoff hnanos
    simp only [Instant.ofCivil, Int.toNat_of_nonneg hY0, Int.toNat_of_nonneg (by omega : 0 ≤ (civilFromDays (sec / 86400)).2.1),
      Int.toNat_of_nonneg (by omega : 0 ≤ (civilFromDays (sec / 86400)).2.2), hdays, Instant.mk.injEq, and_true]
    omega

/-! ## Newest first -/

theorem Instant.before_trans {a b c : Instant} (hab : a.before b = true) (hbc : b.before c = true) :
    a.before c = true := by
  simp only [Instant.before, Bool.or_eq_true, Bool.and_eq_true, decide_eq_true_eq] at hab hbc ⊢
  omega

theorem Instant.before_asymm {a b : Instant} (hab : a.before b = true) : b.before a = false := by
  simp only [Instant.before, Bool.or_eq_true, Bool.and_eq_true, decide_eq_true_eq, Bool.or_eq_false_iff,
    Bool.and_eq_false_iff, decide_eq_false_iff_not] at hab ⊢
  omega

section NewestFirst

variable {α : Type} (stamp : α → Instant)

theorem insertNewer_perm (x : α) : ∀ l : List α, (insertNewer stamp x l).Perm (x :: l)
  | [] => .refl _
  | y :: ys => by
    unfold insertNewer
    split
    · exact .refl _
    · exact ((insertNewer_perm x ys).cons y).trans (.swap x y ys)

theorem newestFirst_perm (xs : List α) : (newestFirst stamp xs).Perm xs := by
  suffices h : ∀ acc : List α, (xs.foldl (fun acc x => insertNewer stamp x acc) acc).Perm (acc ++ xs)
    from h []
  induction xs with
  | nil => exact fun acc => by simp
  | cons x xs ih =>
    intro acc
    rw [List.foldl_cons]
    exact (ih _).trans (((insertNewer_perm stamp x acc).append_right xs).trans List.perm_middle.symm)

theorem mem_newestFirst {xs : List α} {x : α} : x ∈ newestFirst stamp xs ↔ x ∈ xs :=
  (newestFirst_perm stamp xs).mem_iff

theorem insertNewer_pairwise (x : α) : ∀ {l : List α},
    l.Pairwise (fun a b => (stamp a).before (stamp b) = false) →
    (insertNewer stamp x l).Pairwise (fun a b => (stamp a).before (stamp b) = false)
  | [], _ => List.pairwise_singleton _ x
  | y :: ys, h => by
    obtain ⟨hy, hys⟩ := List.pairwise_cons.mp h
    unfold insertNewer
    split
    · rename_i hyx
      refine List.pairwise_cons.mpr ⟨fun z hz => ?_, h⟩
      rcases List.mem_cons.mp hz with rfl | hz
      · exact Instant.before_asymm hyx
      · -- `z` comes after `y`, so `x`, newer than `y`, is not before `z`
        cases hxz : (stamp x).before (stamp z) with
        | false => rfl
        | true =>
          have hyz := hy z hz
          rw [Instant.before_trans hyx hxz] at hyz
          cases hyz
    · rename_i hyx
      refine List.pairwise_cons.mpr ⟨fun z hz => ?_, insertNewer_pairwise x hys⟩
      rcases List.mem_cons.mp ((insertNewer_perm stamp x ys).mem_iff.mp hz) with rfl | hz
      · simpa using hyx
      · exact hy z hz

theorem newestFirst_pairwise (xs : List α) :
    (newestFirst stamp xs).Pairwise fun a b => (stamp a).before (stamp b) = false := by
  suffices h : ∀ acc : List α, acc.Pairwise (fun a b => (stamp a).before (stamp b) = false) →
      (xs.foldl (fun acc x => insertNewer stamp x acc) acc).Pairwise
        (fun a b => (stamp a).before (stamp b) = false) from h [] List.Pairwise.nil
  induction xs with
  | nil => exact fun acc h => h
  | cons x xs ih => exact fun acc h => ih _ (insertNewer_pairwise stamp x h)

end NewestFirst

end Outliner.Time
