/-
# The percentile of the latency columns

`_percentile` picks one of the ninety-nine cut points of `statistics.quantiles`.  The
cut point of a percentile is the value at its position among the sorted data, on the
line between its two neighbours.  A percentile of 0 or 100 has no cut point and takes
that of 1 or 99, so the two ends of the range are right only where the least value, or
the greatest, is repeated often enough.
-/

import StateBenchmarks.MockCl.Replay
import StateBenchmarks.Numeric.Interpolation
import StateBenchmarks.Numeric.OrderStatistics
import Mathlib.Algebra.Order.Field.Rat
import Mathlib.Data.Rat.Floor

namespace StateBenchmarks.MockCl

open Numeric

/-- The inclusive percentile: the value at the position `pct / 100 * (n - 1)` of the
sorted data, interpolated between the two values around it. -/
def inclusive (values : List ℚ) (pct : ℤ) : ℚ :=
  interpolate (orderStatistic values) (pct * (values.length - 1 : ℕ) / 100)

variable {values : List ℚ} {pct : ℤ}

theorem position_nonneg (hpct : 0 ≤ pct) (m : ℕ) : (0 : ℚ) ≤ pct * m / 100 := by
  have hcast : (0 : ℚ) ≤ pct := by exact_mod_cast hpct
  exact div_nonneg (mul_nonneg hcast (Nat.cast_nonneg m)) (by norm_num)

theorem position_le {pct' : ℤ} (hle : pct ≤ pct') (m : ℕ) :
    (pct * m / 100 : ℚ) ≤ pct' * m / 100 := by
  have hcast : (pct : ℚ) ≤ pct' := by exact_mod_cast hle
  exact div_le_div_of_nonneg_right (mul_le_mul_of_nonneg_right hcast (Nat.cast_nonneg m))
    (by norm_num)

theorem inclusive_le_inclusive {pct' : ℤ} (hpct : 0 ≤ pct) (hle : pct ≤ pct') :
    inclusive values pct ≤ inclusive values pct' :=
  interpolate_le_interpolate (orderStatistic_monotone values) (position_nonneg hpct _)
    (position_le hle _)

theorem inclusive_eq_of_perm {values' : List ℚ} (h : values'.Perm values) :
    inclusive values' pct = inclusive values pct := by
  rw [inclusive, inclusive, orderStatistic_eq_of_perm h, h.length_eq]

theorem inclusive_zero : inclusive values 0 = orderStatistic values 0 := by
  rw [inclusive, Int.cast_zero, zero_mul, zero_div, interpolate_zero]

theorem inclusive_hundred :
    inclusive values 100 = orderStatistic values (values.length - 1) := by
  have hposition : ((100 : ℤ) * (values.length - 1 : ℕ) / 100 : ℚ) = (values.length - 1 : ℕ) := by
    push_cast
    exact mul_div_cancel_left₀ _ (by norm_num)
  rw [inclusive, hposition, interpolate_natCast]

theorem min?_eq_orderStatistic (hne : values ≠ []) :
    values.min? = some (orderStatistic values 0) := by
  rw [List.min?_eq_some_iff]
  exact ⟨orderStatistic_mem (List.length_pos_of_ne_nil hne), fun _ => orderStatistic_zero_le⟩

theorem max?_eq_orderStatistic (hne : values ≠ []) :
    values.max? = some (orderStatistic values (values.length - 1)) := by
  rw [List.max?_eq_some_iff]
  exact ⟨orderStatistic_mem (Nat.sub_one_lt (List.length_pos_of_ne_nil hne).ne'),
    fun _ => le_orderStatistic_last⟩

/-- The percentile `_percentile` really takes. -/
def clamped (pct : ℤ) : ℤ := max 1 (min pct 99)

theorem clamped_pos (pct : ℤ) : 0 < clamped pct := by
  rw [clamped]
  omega

theorem clamped_le_clamped {pct' : ℤ} (hle : pct ≤ pct') : clamped pct ≤ clamped pct' := by
  rw [clamped, clamped]
  omega

/-- A sorted value at its place. -/
theorem getD_mergeSort {k : ℕ} (hk : k < values.length) :
    (values.mergeSort (· ≤ ·)).getD k 0 = orderStatistic values k := by
  have hplace : (values.mergeSort (· ≤ ·))[k]? = some (orderStatistic values k) :=
    ascending_getElem? hk
  rw [List.getD_eq_getElem?_getD, hplace, Option.getD_some]

/-- The cut point `i` of two or more values is the value at its position. -/
theorem inclusiveQuantiles_getElem? (hlen : 2 ≤ values.length) {i : ℕ} (hi : i < 99) :
    (inclusiveQuantiles values)[i]? = some (inclusive values (i + 1 : ℕ)) := by
  set m := values.length - 1 with hm
  set j := (i + 1) * m / 100 with hj
  have hbelow : j + 1 < values.length := by
    have hlt : j < m := by
      rw [hj, Nat.div_lt_iff_lt_mul (by norm_num), mul_comm m 100]
      exact Nat.mul_lt_mul_of_pos_right (by omega) (by omega)
    omega
  have hposition : (((i + 1 : ℕ) : ℤ) * m / 100 : ℚ) = ((i + 1) * m : ℕ) / (100 : ℕ) := by
    push_cast
    ring
  have hfloor : ⌊(((i + 1 : ℕ) : ℤ) * m / 100 : ℚ)⌋₊ = j := by
    rw [hposition, Nat.floor_div_eq_div]
  have hpart : (((i + 1 : ℕ) : ℤ) * m / 100 : ℚ) - j = ((i + 1) * m % 100 : ℕ) / 100 := by
    have hsplit : (((i + 1) * m : ℕ) : ℚ) = 100 * (j : ℚ) + ((i + 1) * m % 100 : ℕ) := by
      exact_mod_cast (Nat.div_add_mod ((i + 1) * m) 100).symm
    rw [hposition, hsplit]
    push_cast
    ring
  have hlength : (values.mergeSort (· ≤ ·)).length = values.length := List.length_mergeSort _
  rw [inclusive, interpolate, ← hm, hfloor, hpart, inclusiveQuantiles, List.getElem?_map,
    List.getElem?_range' hi, Option.map_some, hlength, one_mul, add_comm 1 i, ← hm]
  change some (((values.mergeSort (· ≤ ·)).getD j 0 * (100 - ((i + 1) * m % 100 : ℕ)) +
    (values.mergeSort (· ≤ ·)).getD (j + 1) 0 * ((i + 1) * m % 100 : ℕ)) / 100) = _
  rw [getD_mergeSort (Nat.lt_of_succ_lt hbelow), getD_mergeSort hbelow]
  congr 1
  ring

/-- Two or more values have ninety-nine cut points, and the percentile picks one. -/
theorem percentile_cons_cons (first second : ℚ) (rest : List ℚ) (pct : ℤ) :
    percentile (first :: second :: rest) pct =
      (inclusiveQuantiles (first :: second :: rest))[(min (max (pct - 1) 0) 98).toNat]? := by
  have hlength : (inclusiveQuantiles (first :: second :: rest)).length = 99 := by
    rw [inclusiveQuantiles, List.length_map, List.length_range']
  change (inclusiveQuantiles (first :: second :: rest))[(min (max (pct - 1) 0)
    ((inclusiveQuantiles (first :: second :: rest)).length - 1)).toNat]? = _
  rw [hlength]
  rfl

/-- `_percentile` of any list that is not empty. -/
theorem percentile_eq (hne : values ≠ []) (pct : ℤ) :
    percentile values pct = some (inclusive values (clamped pct)) := by
  match values with
  | [] => exact absurd rfl hne
  | [value] =>
      have hposition : (clamped pct * (([value] : List ℚ).length - 1 : ℕ) / 100 : ℚ) = 0 := by
        simp
      change some value = _
      rw [inclusive, hposition, interpolate_zero]
      simp [orderStatistic, ascending]
  | first :: second :: rest =>
      have hindex : (min (max (pct - 1) 0) 98).toNat < 99 := by omega
      have hclamped : (((min (max (pct - 1) 0) 98).toNat + 1 : ℕ) : ℤ) = clamped pct := by
        rw [clamped]
        omega
      rw [percentile_cons_cons, inclusiveQuantiles_getElem? (by simp) hindex, hclamped]

/-- The value fills the hundredth of the list next to it. -/
def FillsHundredth (values : List ℚ) (value : ℚ) : Prop :=
  values.length - 1 ≤ 100 * (values.count value - 1)

theorem fillsHundredth_iff {value : ℚ} (hvalue : value ∈ values) :
    FillsHundredth values value ↔ (values.length - 1 + 99) / 100 < values.count value := by
  have hcount : 0 < values.count value := List.count_pos_iff.mpr hvalue
  rw [FillsHundredth]
  omega

theorem inclusive_one_eq_inclusive_zero_iff (hne : values ≠ []) :
    inclusive values 1 = inclusive values 0 ↔
      ∀ least ∈ values.min?, FillsHundredth values least := by
  have hpos : 0 < values.length := List.length_pos_of_ne_nil hne
  have hceil : ⌈((1 : ℤ) * (values.length - 1 : ℕ) / 100 : ℚ)⌉₊ =
      (values.length - 1 + 99) / 100 := by
    refine eq_of_forall_ge_iff fun k => ?_
    rw [Int.cast_one, one_mul, Nat.ceil_le, div_le_iff₀ (by norm_num)]
    have hcast : ((values.length - 1 : ℕ) : ℚ) ≤ k * 100 ↔ values.length - 1 ≤ k * 100 := by
      exact_mod_cast Iff.rfl
    rw [hcast]
    omega
  have hleast : (∀ least ∈ values.min?, FillsHundredth values least) ↔
      FillsHundredth values (orderStatistic values 0) := by
    simp [min?_eq_orderStatistic hne]
  rw [hleast, fillsHundredth_iff (orderStatistic_mem hpos), inclusive_zero, inclusive,
    interpolate_eq_first_iff (orderStatistic_monotone values) (position_nonneg (by norm_num) _),
    hceil, orderStatistic_eq_first_iff (by omega)]

theorem inclusive_last_eq_inclusive_hundred_iff (hne : values ≠ []) :
    inclusive values 99 = inclusive values 100 ↔
      ∀ greatest ∈ values.max?, FillsHundredth values greatest := by
  have hpos : 0 < values.length := List.length_pos_of_ne_nil hne
  have hposition : ((99 : ℤ) * (values.length - 1 : ℕ) / 100 : ℚ) =
      (99 * (values.length - 1) : ℕ) / (100 : ℕ) := by
    push_cast
    ring
  have hwithin : ((99 : ℤ) * (values.length - 1 : ℕ) / 100 : ℚ) ≤ (values.length - 1 : ℕ) := by
    have hlast : (0 : ℚ) ≤ (values.length - 1 : ℕ) := Nat.cast_nonneg _
    push_cast
    linarith
  have hgreatest : (∀ greatest ∈ values.max?, FillsHundredth values greatest) ↔
      FillsHundredth values (orderStatistic values (values.length - 1)) := by
    simp [max?_eq_orderStatistic hne]
  rw [hgreatest, fillsHundredth_iff (orderStatistic_mem (by omega)), inclusive_hundred, inclusive,
    interpolate_eq_last_iff (orderStatistic_monotone values) (position_nonneg (by norm_num) _)
      hwithin, hposition, Nat.floor_div_eq_div, orderStatistic_eq_last_iff (by omega)]
  have hmirror : values.length - 1 - 99 * (values.length - 1) / 100 =
      (values.length - 1 + 99) / 100 := by omega
  rw [hmirror]

/-- `_percentile` is the inclusive percentile: the value at the position of the
percentile, which is the least value at 0, the greatest at 100 and the only one of a
single value; the order of the values does not matter, none of the results lies outside
of the data, and a higher percentile has no lower value. -/
structure InclusivePercentile (values : List ℚ) (pct : ℤ) : Prop where
  interpolated : percentile values pct = some (inclusive values pct)
  least : pct = 0 → percentile values pct = values.min?
  greatest : pct = 100 → percentile values pct = values.max?
  single : ∀ value, values = [value] → percentile values pct = some value
  permuted : ∀ values', values'.Perm values → percentile values' pct = percentile values pct
  bounded : ∀ v ∈ percentile values pct, ∀ low ∈ values.min?, ∀ high ∈ values.max?,
    low ≤ v ∧ v ≤ high
  monotone : ∀ pct', pct ≤ pct' → pct' ≤ 100 →
    ∀ v ∈ percentile values pct, ∀ v' ∈ percentile values pct', v ≤ v'

theorem inclusive_eq_of_single {value : ℚ} (hvalues : values = [value]) (pct : ℤ) :
    inclusive values pct = value := by
  have hposition : (pct * (values.length - 1 : ℕ) / 100 : ℚ) = 0 := by
    simp [hvalues]
  rw [inclusive, hposition, interpolate_zero, hvalues]
  simp [orderStatistic, ascending]

/-- The percentiles from 0 to 100 are values between the least and the greatest one. -/
theorem orderStatistic_le_inclusive (hpct : 0 ≤ pct) :
    orderStatistic values 0 ≤ inclusive values pct := by
  rw [← inclusive_zero]
  exact inclusive_le_inclusive le_rfl hpct

theorem inclusive_le_orderStatistic (hlow : 0 ≤ pct) (hhigh : pct ≤ 100) :
    inclusive values pct ≤ orderStatistic values (values.length - 1) := by
  rw [← inclusive_hundred]
  exact inclusive_le_inclusive hlow hhigh

theorem InclusivePercentile.of_interpolated (hne : values ≠ []) (hlow : 0 ≤ pct)
    (hhigh : pct ≤ 100) (h : inclusive values (clamped pct) = inclusive values pct) :
    InclusivePercentile values pct := by
  have heq : percentile values pct = some (inclusive values pct) := by
    rw [percentile_eq hne, h]
  refine ⟨heq, ?_, ?_, ?_, ?_, ?_, ?_⟩
  · rintro rfl
    rw [heq, inclusive_zero, min?_eq_orderStatistic hne]
  · rintro rfl
    rw [heq, inclusive_hundred, max?_eq_orderStatistic hne]
  · intro value hvalues
    rw [heq, inclusive_eq_of_single hvalues]
  · intro values' hperm
    have hne' : values' ≠ [] := by
      rintro rfl
      exact hne hperm.symm.eq_nil
    rw [percentile_eq hne', percentile_eq hne, inclusive_eq_of_perm hperm]
  · intro v hv low hlow' high hhigh'
    rw [heq, Option.mem_some_iff] at hv
    rw [min?_eq_orderStatistic hne, Option.mem_some_iff] at hlow'
    rw [max?_eq_orderStatistic hne, Option.mem_some_iff] at hhigh'
    subst hv hlow' hhigh'
    exact ⟨orderStatistic_le_inclusive hlow, inclusive_le_orderStatistic hlow hhigh⟩
  · intro pct' hle hhigh' v hv v' hv'
    rw [percentile_eq hne, Option.mem_some_iff] at hv hv'
    subst hv hv'
    exact inclusive_le_inclusive (clamped_pos pct).le (clamped_le_clamped hle)

/-- **`_percentile` is the inclusive percentile from 1 to 99 always, at 0 exactly when the
least value fills the first hundredth of the list, and at 100 exactly when the greatest
fills the last one.** -/
theorem inclusivePercentile_iff (hne : values ≠ []) (hlow : 0 ≤ pct) (hhigh : pct ≤ 100) :
    InclusivePercentile values pct ↔
      (pct = 0 → ∀ least ∈ values.min?, FillsHundredth values least) ∧
        (pct = 100 → ∀ greatest ∈ values.max?, FillsHundredth values greatest) := by
  have hends : InclusivePercentile values pct ↔
      inclusive values (clamped pct) = inclusive values pct := by
    apply Iff.intro
    · intro h
      exact Option.some.inj ((percentile_eq hne pct).symm.trans h.interpolated)
    · exact InclusivePercentile.of_interpolated hne hlow hhigh
  rw [hends]
  rcases hlow.eq_or_lt with rfl | hpos
  · have hclamped : clamped 0 = 1 := rfl
    rw [hclamped, inclusive_one_eq_inclusive_zero_iff hne]
    simp
  · rcases hhigh.eq_or_lt with rfl | hlt
    · have hclamped : clamped 100 = 99 := rfl
      rw [hclamped, inclusive_last_eq_inclusive_hundred_iff hne]
      simp
    · have hclamped : clamped pct = pct := by
        rw [clamped]
        omega
      rw [hclamped]
      exact iff_of_true rfl
        ⟨fun hzero => absurd hzero hpos.ne', fun hhundred => absurd hhundred hlt.ne⟩

/-- The median of four values is one of the percentiles that have a cut point. -/
theorem inclusivePercentile_iff_median : InclusivePercentile [4, 3, 1, 2] 50 :=
  (inclusivePercentile_iff (List.cons_ne_nil _ _) (by decide) (by decide)).mpr
    ⟨fun hzero => absurd hzero (by decide), fun hhundred => absurd hhundred (by decide)⟩

/-- Of the two values 1 and 2 the hundredth percentile is not the greatest. -/
theorem greatest_not_reached :
    percentile [1, 2] 100 = some (199 / 100) ∧ ¬InclusivePercentile [1, 2] 100 := by
  have hvalue : percentile [1, 2] 100 = some (199 / 100) := by
    have hsorted : ([1, 2] : List ℚ).mergeSort (· ≤ ·) = [1, 2] :=
      List.mergeSort_of_pairwise (by decide +kernel)
    rw [percentile_cons_cons, inclusiveQuantiles, hsorted]
    decide +kernel
  refine ⟨hvalue, ?_⟩
  intro h
  have hgreatest : ([1, 2] : List ℚ).max? = some 2 := by decide +kernel
  have hsame := hvalue.symm.trans ((h.greatest rfl).trans hgreatest)
  norm_num at hsame

end StateBenchmarks.MockCl
