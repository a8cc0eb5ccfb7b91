/-
# Linear interpolation between the terms of a sequence

A sequence has values at whole positions.  Between two of them the value runs along a
straight line.  Where the sequence is monotone so is its interpolation, and the ends of
the line tell when a value between them is that of an end.
-/

import Mathlib.Algebra.Order.Floor.Semifield
import Mathlib.Tactic.Linarith
import Mathlib.Tactic.LinearCombination

namespace StateBenchmarks.Numeric

variable {K : Type*} [Field K] [LinearOrder K] [IsStrictOrderedRing K] [FloorSemiring K]

/-- The value of the sequence `f` at the position `x`. -/
def interpolate (f : ℕ → K) (x : K) : K :=
  f ⌊x⌋₊ + (f (⌊x⌋₊ + 1) - f ⌊x⌋₊) * (x - ⌊x⌋₊)

variable {f : ℕ → K} {x y : K} {n : ℕ}

@[simp]
theorem interpolate_natCast (f : ℕ → K) (n : ℕ) : interpolate f n = f n := by
  simp [interpolate]

@[simp]
theorem interpolate_zero (f : ℕ → K) : interpolate f 0 = f 0 := by
  simp [interpolate]

theorem floor_le_interpolate (hf : Monotone f) (hx : 0 ≤ x) : f ⌊x⌋₊ ≤ interpolate f x := by
  have hrise : 0 ≤ f (⌊x⌋₊ + 1) - f ⌊x⌋₊ := sub_nonneg.mpr (hf (Nat.le_succ _))
  have hpart : 0 ≤ x - ⌊x⌋₊ := sub_nonneg.mpr (Nat.floor_le hx)
  exact le_add_of_nonneg_right (mul_nonneg hrise hpart)

theorem interpolate_le_succ_floor (hf : Monotone f) : interpolate f x ≤ f (⌊x⌋₊ + 1) := by
  have hrise : 0 ≤ f (⌊x⌋₊ + 1) - f ⌊x⌋₊ := sub_nonneg.mpr (hf (Nat.le_succ _))
  have hpart : x - ⌊x⌋₊ ≤ 1 := by linarith [Nat.lt_floor_add_one x]
  calc interpolate f x ≤ f ⌊x⌋₊ + (f (⌊x⌋₊ + 1) - f ⌊x⌋₊) * 1 := by
        exact add_le_add_right (mul_le_mul_of_nonneg_left hpart hrise) _
    _ = f (⌊x⌋₊ + 1) := by rw [mul_one, add_sub_cancel]

/-- The interpolation of a monotone sequence is monotone. -/
theorem interpolate_le_interpolate (hf : Monotone f) (hx : 0 ≤ x) (hxy : x ≤ y) :
    interpolate f x ≤ interpolate f y := by
  rcases (Nat.floor_le_floor hxy).lt_or_eq with hlt | heq
  · calc interpolate f x ≤ f (⌊x⌋₊ + 1) := interpolate_le_succ_floor hf
      _ ≤ f ⌊y⌋₊ := hf hlt
      _ ≤ interpolate f y := floor_le_interpolate hf (hx.trans hxy)
  · have hrise : 0 ≤ f (⌊y⌋₊ + 1) - f ⌊y⌋₊ := sub_nonneg.mpr (hf (Nat.le_succ _))
    rw [interpolate, interpolate, heq]
    exact add_le_add_right (mul_le_mul_of_nonneg_left (sub_le_sub_right hxy _) hrise) _

/-- From the start of the sequence the value is still the first one as long as the terms
around it are. -/
theorem interpolate_eq_first_iff (hf : Monotone f) (hx : 0 ≤ x) :
    interpolate f x = f 0 ↔ f ⌈x⌉₊ = f 0 := by
  have hfirst : f 0 ≤ f ⌊x⌋₊ := hf (Nat.zero_le _)
  have hfloor := floor_le_interpolate hf hx
  apply Iff.intro
  · intro heq
    rcases (Nat.floor_le hx).lt_or_eq with hlt | hwhole
    · have hceil : ⌈x⌉₊ = ⌊x⌋₊ + 1 := by
        apply le_antisymm (Nat.ceil_le_floor_add_one x)
        exact Nat.succ_le_of_lt (Nat.lt_ceil.mpr hlt)
      have hsame : f ⌊x⌋₊ = f 0 := le_antisymm (heq ▸ hfloor) hfirst
      have hpart : x - ⌊x⌋₊ ≠ 0 := (sub_pos.mpr hlt).ne'
      rw [interpolate, hsame, add_eq_left, mul_eq_zero, or_iff_left hpart, sub_eq_zero] at heq
      rw [hceil, heq]
    · rw [← hwhole, interpolate_natCast] at heq
      rw [← hwhole, Nat.ceil_natCast, heq]
  · intro heq
    apply le_antisymm
    · calc interpolate f x ≤ interpolate f ⌈x⌉₊ :=
            interpolate_le_interpolate hf hx (Nat.le_ceil x)
        _ = f 0 := by rw [interpolate_natCast, heq]
    · exact hfirst.trans hfloor

/-- Before the term `n` the value is already that term as soon as the one before is. -/
theorem interpolate_eq_last_iff (hf : Monotone f) (hx : 0 ≤ x) (hn : x ≤ n) :
    interpolate f x = f n ↔ f ⌊x⌋₊ = f n := by
  have hle : interpolate f x ≤ f n := by
    rw [← interpolate_natCast f n]
    exact interpolate_le_interpolate hf hx hn
  apply Iff.intro
  · intro heq
    rcases hn.lt_or_eq with hlt | rfl
    · have hsucc : ⌊x⌋₊ + 1 ≤ n := (Nat.floor_lt hx).mpr hlt
      have hupper : f (⌊x⌋₊ + 1) = f n :=
        le_antisymm (hf hsucc) (heq ▸ interpolate_le_succ_floor hf)
      have hpart : x - ⌊x⌋₊ - 1 ≠ 0 := by
        apply ne_of_lt
        linarith [Nat.lt_floor_add_one x]
      have hzero : (f n - f ⌊x⌋₊) * (x - ⌊x⌋₊ - 1) = 0 := by
        rw [interpolate, hupper] at heq
        linear_combination heq
      exact (sub_eq_zero.mp ((mul_eq_zero.mp hzero).resolve_right hpart)).symm
    · rw [Nat.floor_natCast]
  · intro heq
    exact le_antisymm hle (heq ▸ floor_le_interpolate hf hx)

end StateBenchmarks.Numeric
