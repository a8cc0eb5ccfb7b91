/-
# Moments and their ISO texts

A `datetime` of the UTC time zone has seven fields, and `isoformat` prints them
from the year down, each padded to a fixed width.  The fraction of a second is
printed only where it is not zero, so two texts need not have the same length.

The instant of a `datetime` counts microseconds over the proleptic Gregorian
calendar.  The texts are ordered as the instants are.
-/

import Mathlib.Data.List.Lex
import Mathlib.Data.String.Basic

namespace StateBenchmarks.Python

/-- Blocks laid end to end: positions are ordered by their block, then inside it. -/
theorem block_lt_iff (start length : ℕ → ℕ)
    (hstart : ∀ x, start (x + 1) = start x + length x) {x y x' y' : ℕ} (hy : y < length x)
    (hy' : y' < length x') :
    start x + y < start x' + y' ↔ x < x' ∨ x = x' ∧ y < y' := by
  have hbehind : ∀ a b, a < b → start a + length a ≤ start b := fun a b hab => by
    induction b, Nat.succ_le_of_lt hab using Nat.le_induction with
    | base => exact (hstart a).ge
    | succ b _ ih =>
        rw [hstart b]
        exact Nat.le_add_right_of_le (ih (by omega))
  rcases Nat.lt_trichotomy x x' with hlt | rfl | hgt
  · have := hbehind x x' hlt
    exact iff_of_true (by omega) (Or.inl hlt)
  · simp
  · have := hbehind x' x hgt
    exact iff_of_false (by omega) (by omega)

/-- The order of numbers written with a fixed base. -/
theorem radix_lt_iff (x x' : ℕ) {base y y' : ℕ} (hy : y < base) (hy' : y' < base) :
    x * base + y < x' * base + y' ↔ x < x' ∨ x = x' ∧ y < y' :=
  block_lt_iff (· * base) (fun _ => base) (fun x => Nat.succ_mul x base) hy hy'

theorem radix_eq_iff {base x y x' y' : ℕ} (hy : y < base) (hy' : y' < base) :
    x * base + y = x' * base + y' ↔ x = x' ∧ y = y' := by
  have hlt := radix_lt_iff x x' hy hy'
  have hgt := radix_lt_iff x' x hy' hy
  omega

/-- `f"{n:0{width}d}"` for a number of at most that width. -/
def padded : ℕ → ℕ → List Char
  | 0, _ => []
  | width + 1, n => Nat.digitChar (n / 10 ^ width) :: padded width (n % 10 ^ width)

theorem digitChar_lt_iff {d e : ℕ} (hd : d < 10) (he : e < 10) :
    Nat.digitChar d < Nat.digitChar e ↔ d < e := by
  have hall : ∀ d e : Fin 10, Nat.digitChar d < Nat.digitChar e ↔ d.val < e.val := by decide
  exact hall ⟨d, hd⟩ ⟨e, he⟩

theorem digitChar_inj {d e : ℕ} (hd : d < 10) (he : e < 10) :
    Nat.digitChar d = Nat.digitChar e ↔ d = e := by
  have hall : ∀ d e : Fin 10, Nat.digitChar d = Nat.digitChar e ↔ d.val = e.val := by decide
  exact hall ⟨d, hd⟩ ⟨e, he⟩

/-- Behind padded numbers texts are ordered by the numbers, then by what follows. -/
theorem padded_append_lt_iff {width m n : ℕ} {xs ys : List Char} (hm : m < 10 ^ width)
    (hn : n < 10 ^ width) :
    padded width m ++ xs < padded width n ++ ys ↔ m < n ∨ m = n ∧ xs < ys := by
  induction width generalizing m n with
  | zero =>
      have hm : m = 0 := Nat.lt_one_iff.mp hm
      have hn : n = 0 := Nat.lt_one_iff.mp hn
      simp [hm, hn, padded]
  | succ width ih =>
      have hpos : 0 < 10 ^ width := Nat.pow_pos (by decide)
      have hdm : m / 10 ^ width < 10 := Nat.div_lt_of_lt_mul hm
      have hdn : n / 10 ^ width < 10 := Nat.div_lt_of_lt_mul hn
      have hrm := Nat.mod_lt m hpos
      have hrn := Nat.mod_lt n hpos
      have hsplit := radix_lt_iff (m / 10 ^ width) (n / 10 ^ width) hrm hrn
      have heq : m = n ↔ m / 10 ^ width = n / 10 ^ width ∧ m % 10 ^ width = n % 10 ^ width :=
        ⟨fun h => h ▸ ⟨rfl, rfl⟩, fun h => by
          rw [← Nat.div_add_mod' m (10 ^ width), ← Nat.div_add_mod' n (10 ^ width), h.1, h.2]⟩
      rw [Nat.div_add_mod', Nat.div_add_mod'] at hsplit
      rw [padded, padded, List.cons_append, List.cons_append, List.cons_lt_cons_iff,
        digitChar_lt_iff hdm hdn, digitChar_inj hdm hdn, ih hrm hrn, hsplit, heq]
      tauto

/-- `_is_leap`. -/
def IsLeap (year : ℕ) : Prop := year % 4 = 0 ∧ (year % 100 ≠ 0 ∨ year % 400 = 0)

instance (year : ℕ) : Decidable (IsLeap year) := inferInstanceAs (Decidable (_ ∧ _))

/-- `_days_in_month`. -/
def daysInMonth (year month : ℕ) : ℕ :=
  if month = 2 then if IsLeap year then 29 else 28
  else if month = 4 ∨ month = 6 ∨ month = 9 ∨ month = 11 then 30
  else if 1 ≤ month ∧ month ≤ 12 then 31
  else 0

/-- `_days_before_month`. -/
def daysBeforeMonth (year : ℕ) : ℕ → ℕ
  | 0 => 0
  | month + 1 => daysBeforeMonth year month + daysInMonth year month

/-- `_days_before_year`. -/
def daysBeforeYear (year : ℕ) : ℕ :=
  let y := year - 1
  y * 365 + y / 4 - y / 100 + y / 400

def daysInYear (year : ℕ) : ℕ := if IsLeap year then 366 else 365

/-- A `datetime` whose zone is UTC. -/
structure UtcDateTime where
  year : ℕ
  month : ℕ
  day : ℕ
  hour : ℕ
  minute : ℕ
  second : ℕ
  microsecond : ℕ
  year_mem : 1 ≤ year ∧ year ≤ 9999
  month_mem : 1 ≤ month ∧ month ≤ 12
  day_mem : 1 ≤ day ∧ day ≤ daysInMonth year month
  hour_lt : hour < 24
  minute_lt : minute < 60
  second_lt : second < 60
  microsecond_lt : microsecond < 1000000

/-- A leap year adds a day: one step of each of the three quotients. -/
theorem daysBeforeYear_succ {year : ℕ} (h : 1 ≤ year) :
    daysBeforeYear (year + 1) = daysBeforeYear year + daysInYear year := by
  obtain ⟨y, rfl⟩ := Nat.exists_eq_add_of_le' h
  have hle : y / 100 ≤ y := Nat.div_le_self y 100
  have hfour : 100 ∣ y + 1 → 4 ∣ y + 1 := fun hdvd => Nat.dvd_trans (by decide) hdvd
  have hhundred : 400 ∣ y + 1 → 100 ∣ y + 1 := fun hdvd => Nat.dvd_trans (by decide) hdvd
  have hleap : IsLeap (y + 1) ↔ 4 ∣ y + 1 ∧ (¬ 100 ∣ y + 1 ∨ 400 ∣ y + 1) := by
    rw [IsLeap, Nat.dvd_iff_mod_eq_zero, Nat.dvd_iff_mod_eq_zero, Nat.dvd_iff_mod_eq_zero]
  rw [daysInYear, daysBeforeYear, daysBeforeYear, Nat.add_sub_cancel, Nat.add_sub_cancel,
    Nat.succ_div, Nat.succ_div, Nat.succ_div]
  by_cases h4 : 4 ∣ y + 1 <;> by_cases h100 : 100 ∣ y + 1 <;> by_cases h400 : 400 ∣ y + 1 <;>
    simp only [hleap, h4, h100, h400] <;> simp <;> omega

theorem daysBeforeMonth_thirteen (year : ℕ) : daysBeforeMonth year 13 = daysInYear year := by
  by_cases h : IsLeap year <;> simp [daysBeforeMonth, daysInMonth, daysInYear, h]

theorem daysBeforeMonth_mono (year : ℕ) {m n : ℕ} (h : m ≤ n) :
    daysBeforeMonth year m ≤ daysBeforeMonth year n :=
  monotone_nat_of_le_succ (fun month => Nat.le_add_right _ (daysInMonth year month)) h

namespace UtcDateTime

/-- `_ymd2ord`: the days up to and including that of the moment. -/
def ordinal (t : UtcDateTime) : ℕ :=
  daysBeforeYear t.year + (daysBeforeMonth t.year t.month + t.day)

/-- The microseconds from the beginning of the calendar. -/
def instant (t : UtcDateTime) : ℕ :=
  (((t.ordinal * 24 + t.hour) * 60 + t.minute) * 60 + t.second) * 1000000 + t.microsecond

/-- The fraction of a second, if there is one, and the zone. -/
def fraction (microsecond : ℕ) : List Char :=
  if microsecond = 0 then "+00:00".toList
  else '.' :: (padded 6 microsecond ++ "+00:00".toList)

/-- `t.isoformat()`. -/
def isoformat (t : UtcDateTime) : String :=
  String.ofList
    (padded 4 t.year ++ '-' :: (padded 2 t.month ++ '-' :: (padded 2 t.day ++ 'T' ::
      (padded 2 t.hour ++ ':' :: (padded 2 t.minute ++ ':' ::
        (padded 2 t.second ++ fraction t.microsecond))))))

/-- Field by field, the greatest unit first. -/
def Before (a b : UtcDateTime) : Prop :=
  a.year < b.year ∨ a.year = b.year ∧ (a.month < b.month ∨ a.month = b.month ∧
    (a.day < b.day ∨ a.day = b.day ∧ (a.hour < b.hour ∨ a.hour = b.hour ∧
      (a.minute < b.minute ∨ a.minute = b.minute ∧ (a.second < b.second ∨ a.second = b.second ∧
        a.microsecond < b.microsecond)))))

theorem day_le (t : UtcDateTime) : t.day ≤ 31 := by
  have h := t.day_mem.2
  rw [daysInMonth] at h
  split_ifs at h <;> omega

/-- The day of the year. -/
theorem dayOfYear_le (t : UtcDateTime) :
    daysBeforeMonth t.year t.month + t.day ≤ daysInYear t.year := by
  calc daysBeforeMonth t.year t.month + t.day
      ≤ daysBeforeMonth t.year (t.month + 1) := Nat.add_le_add_left t.day_mem.2 _
    _ ≤ daysBeforeMonth t.year 13 := daysBeforeMonth_mono t.year (by have := t.month_mem; omega)
    _ = daysInYear t.year := daysBeforeMonth_thirteen t.year

theorem ordinal_lt_iff (a b : UtcDateTime) :
    a.ordinal < b.ordinal ↔ a.year < b.year ∨ a.year = b.year ∧ (a.month < b.month ∨
      a.month = b.month ∧ a.day < b.day) := by
  have hyears : ∀ y, daysBeforeYear (y + 1 + 1) = daysBeforeYear (y + 1) + daysInYear (y + 1) :=
    fun y => daysBeforeYear_succ (Nat.le_add_left 1 y)
  have ha := a.dayOfYear_le
  have hb := b.dayOfYear_le
  have hday := a.day_mem
  have hday' := b.day_mem
  have hpos := a.year_mem.1
  have hpos' := b.year_mem.1
  have hyear : ∀ y < daysInYear (a.year - 1 + 1), ∀ y' < daysInYear (b.year - 1 + 1),
      daysBeforeYear (a.year - 1 + 1) + y < daysBeforeYear (b.year - 1 + 1) + y' ↔
        a.year - 1 < b.year - 1 ∨ a.year - 1 = b.year - 1 ∧ y < y' :=
    fun y hy y' hy' => block_lt_iff (fun y => daysBeforeYear (y + 1))
      (fun y => daysInYear (y + 1)) hyears hy hy'
  simp only [Nat.sub_add_cancel hpos, Nat.sub_add_cancel hpos'] at hyear
  have hyear := hyear (daysBeforeMonth a.year a.month + a.day - 1) (by omega)
    (daysBeforeMonth b.year b.month + b.day - 1) (by omega)
  have hmonth : a.year = b.year → (daysBeforeMonth a.year a.month + a.day - 1 <
      daysBeforeMonth b.year b.month + b.day - 1 ↔
        a.month < b.month ∨ a.month = b.month ∧ a.day < b.day) := fun hsame => by
    rw [hsame] at hday ⊢
    have : daysBeforeMonth b.year a.month + (a.day - 1) <
        daysBeforeMonth b.year b.month + (b.day - 1) ↔
          a.month < b.month ∨ a.month = b.month ∧ a.day - 1 < b.day - 1 :=
      block_lt_iff (daysBeforeMonth b.year) (daysInMonth b.year) (fun _ => rfl) (by omega)
        (by omega)
    omega
  rw [ordinal, ordinal]
  by_cases hsame : a.year = b.year
  · have := hmonth hsame
    omega
  · omega

theorem ordinal_eq_iff (a b : UtcDateTime) :
    a.ordinal = b.ordinal ↔ a.year = b.year ∧ a.month = b.month ∧ a.day = b.day := by
  have hlt := ordinal_lt_iff a b
  have hgt := ordinal_lt_iff b a
  omega

/-- The instants are ordered field by field. -/
theorem instant_lt_iff_before (a b : UtcDateTime) : a.instant < b.instant ↔ a.Before b := by
  rw [instant, instant, radix_lt_iff _ _ a.microsecond_lt b.microsecond_lt,
    radix_lt_iff _ _ a.second_lt b.second_lt, radix_lt_iff _ _ a.minute_lt b.minute_lt,
    radix_lt_iff _ _ a.hour_lt b.hour_lt, radix_eq_iff a.second_lt b.second_lt,
    radix_eq_iff a.minute_lt b.minute_lt, radix_eq_iff a.hour_lt b.hour_lt, ordinal_lt_iff,
    ordinal_eq_iff, Before]
  simp only [and_or_left, and_assoc, or_assoc]

/-- A missing fraction is the least: `+` comes before the point. -/
theorem fraction_lt_iff {m n : ℕ} (hm : m < 1000000) (hn : n < 1000000) :
    fraction m < fraction n ↔ m < n := by
  have hzero : ∀ rest, "+00:00".toList < '.' :: rest := fun rest => by
    exact List.cons_lt_cons_iff.mpr (Or.inl (by decide))
  rw [fraction, fraction]
  split_ifs with hm0 hn0 hn0
  · simp [hm0, hn0]
  · exact iff_of_true (hzero _) (by omega)
  · exact iff_of_false (not_lt_of_gt (hzero _)) (by omega)
  · rw [List.cons_lt_cons_iff, padded_append_lt_iff hm hn]
    simp

/-- The texts are ordered field by field. -/
theorem isoformat_lt_iff_before (a b : UtcDateTime) : a.isoformat < b.isoformat ↔ a.Before b := by
  have hyear := a.year_mem
  have hyear' := b.year_mem
  have hmonth := a.month_mem
  have hmonth' := b.month_mem
  have hday := a.day_le
  have hday' := b.day_le
  have hhour := a.hour_lt
  have hhour' := b.hour_lt
  have hminute := a.minute_lt
  have hminute' := b.minute_lt
  have hsecond := a.second_lt
  have hsecond' := b.second_lt
  rw [isoformat, isoformat, String.lt_iff_toList_lt, String.toList_ofList, String.toList_ofList]
  -- Every separator stands at the same place in both texts.
  simp (disch := omega) only [padded_append_lt_iff, List.cons_lt_cons_iff, lt_self_iff_false,
    false_or, true_and, fraction_lt_iff a.microsecond_lt b.microsecond_lt]
  rfl

/-- The order of the texts is the order of time. -/
theorem isoformat_lt_iff_instant_lt (a b : UtcDateTime) :
    a.isoformat < b.isoformat ↔ a.instant < b.instant :=
  (isoformat_lt_iff_before a b).trans (instant_lt_iff_before a b).symm

example :
    (⟨2026, 7, 27, 9, 5, 0, 0, by decide, by decide, by decide, by decide, by decide, by decide,
      by decide⟩ : UtcDateTime).isoformat = "2026-07-27T09:05:00+00:00" := by decide

/-- Two moments with one text are one instant. -/
theorem isoformat_eq_iff_instant_eq (a b : UtcDateTime) :
    a.isoformat = b.isoformat ↔ a.instant = b.instant := by
  have hlt := isoformat_lt_iff_instant_lt a b
  have hgt := isoformat_lt_iff_instant_lt b a
  rw [le_antisymm_iff, le_antisymm_iff, ← not_lt, ← not_lt, ← not_lt, ← not_lt, hlt, hgt]

end UtcDateTime

end StateBenchmarks.Python
