/-
# The values of a list in order

Sorting forgets in which order the values came.  What is left is the sequence of the
order statistics, which starts with the least value and ends with the greatest.  How
often an end occurs is how far the sequence stays there.
-/

import Mathlib.Data.List.Sort
import Mathlib.Order.Lattice

namespace StateBenchmarks.Numeric

universe u

variable {α : Type u}

/-- Before the places of a first value there is nothing else, and behind them it does not
come again. -/
theorem getElem_eq_iff_lt_count [DecidableEq α] {r : α → α → Prop}
    (hanti : ∀ a b, r a b → r b a → a = b) {a : α} {values : List α} (h : values.Pairwise r)
    (hfirst : ∀ b ∈ values, r a b) {k : ℕ} (hk : k < values.length) :
    values[k] = a ↔ k < values.count a := by
  induction values generalizing k with
  | nil => cases hk
  | cons b rest ih =>
      rw [List.pairwise_cons] at h
      have hrest : ∀ c ∈ rest, r a c := fun c hc => hfirst c (List.mem_cons_of_mem b hc)
      by_cases hb : b = a
      · subst hb
        cases k with
        | zero => simp
        | succ k =>
            rw [List.getElem_cons_succ, ih h.2 hrest, List.count_cons_self,
              Nat.succ_lt_succ_iff]
      · have habsent : a ∉ b :: rest := by
          intro hmem
          rcases List.mem_cons.mp hmem with heq | hmem
          · exact hb heq.symm
          · exact hb (hanti b a (h.1 a hmem) (hfirst b List.mem_cons_self))
        rw [List.count_eq_zero_of_not_mem habsent]
        apply iff_of_false
        · intro heq
          exact habsent (heq ▸ List.getElem_mem hk)
        · exact Nat.not_lt_zero k

variable [LinearOrder α]

/-- The values in ascending order. -/
def ascending (values : List α) : List α := values.mergeSort (· ≤ ·)

theorem ascending_perm (values : List α) : (ascending values).Perm values :=
  List.mergeSort_perm values _

theorem ascending_pairwise (values : List α) : (ascending values).Pairwise (· ≤ ·) :=
  List.pairwise_mergeSort' (· ≤ ·) values

@[simp]
theorem length_ascending (values : List α) : (ascending values).length = values.length :=
  (ascending_perm values).length_eq

/-- It does not matter in which order the values came. -/
theorem ascending_eq_of_perm {values values' : List α} (h : values.Perm values') :
    ascending values = ascending values' := by
  have hperm : (ascending values).Perm (ascending values') :=
    (ascending_perm values).trans (h.trans (ascending_perm values').symm)
  exact hperm.eq_of_pairwise' (ascending_pairwise values) (ascending_pairwise values')

variable [Inhabited α]

/-- The `k`-th least value, counted from zero; from the last one on, the greatest. -/
def orderStatistic (values : List α) (k : ℕ) : α :=
  (ascending values).getD (min k (values.length - 1)) default

theorem orderStatistic_eq_of_perm {values values' : List α} (h : values.Perm values') :
    orderStatistic values = orderStatistic values' := by
  funext k
  rw [orderStatistic, orderStatistic, ascending_eq_of_perm h, h.length_eq]

variable {values : List α} {k : ℕ}

theorem ascending_getElem? (hk : k < values.length) :
    (ascending values)[k]? = some (orderStatistic values k) := by
  have hlt : k < (ascending values).length := by rwa [length_ascending]
  rw [orderStatistic, min_eq_left (Nat.le_sub_one_of_lt hk), List.getD_eq_getElem?_getD,
    List.getElem?_eq_getElem hlt, Option.getD_some]

theorem orderStatistic_mem (hk : k < values.length) : orderStatistic values k ∈ values :=
  (ascending_perm values).mem_iff.mp (List.mem_of_getElem? (ascending_getElem? hk))

/-- Every value is one of them. -/
theorem exists_orderStatistic_eq {v : α} (hv : v ∈ values) :
    ∃ k < values.length, orderStatistic values k = v := by
  obtain ⟨k, hk⟩ := List.mem_iff_getElem?.mp ((ascending_perm values).mem_iff.mpr hv)
  have hlt : k < values.length := by
    rw [← length_ascending values]
    exact (List.getElem?_eq_some_iff.mp hk).1
  refine ⟨k, hlt, ?_⟩
  rw [ascending_getElem? hlt] at hk
  exact Option.some.inj hk

theorem orderStatistic_le_of_lt {j : ℕ} (hjk : j ≤ k) (hk : k < values.length) :
    orderStatistic values j ≤ orderStatistic values k := by
  rcases hjk.lt_or_eq with hlt | rfl
  · obtain ⟨hj', hj⟩ := List.getElem?_eq_some_iff.mp (ascending_getElem? (hlt.trans hk))
    obtain ⟨hk', hk⟩ := List.getElem?_eq_some_iff.mp (ascending_getElem? hk)
    rw [← hj, ← hk]
    exact List.pairwise_iff_getElem.mp (ascending_pairwise values) j k hj' hk' hlt
  · exact le_refl _

theorem orderStatistic_monotone (values : List α) : Monotone (orderStatistic values) := by
  intro j k hjk
  cases values with
  | nil => simp [orderStatistic, ascending]
  | cons first rest =>
      have hlast : ∀ k, orderStatistic (first :: rest) k =
          orderStatistic (first :: rest) (min k rest.length) := by
        intro k
        rw [orderStatistic, orderStatistic, List.length_cons, Nat.add_sub_cancel, min_assoc,
          min_self]
      rw [hlast j, hlast k]
      apply orderStatistic_le_of_lt (le_min ((min_le_left _ _).trans hjk) (min_le_right _ _))
      exact Nat.lt_succ_of_le (min_le_right _ _)

/-- The first one is the least value. -/
theorem orderStatistic_zero_le {v : α} (hv : v ∈ values) : orderStatistic values 0 ≤ v := by
  obtain ⟨k, -, rfl⟩ := exists_orderStatistic_eq hv
  exact orderStatistic_monotone values (Nat.zero_le k)

/-- The last one is the greatest. -/
theorem le_orderStatistic_last {v : α} (hv : v ∈ values) :
    v ≤ orderStatistic values (values.length - 1) := by
  obtain ⟨k, hk, rfl⟩ := exists_orderStatistic_eq hv
  exact orderStatistic_monotone values (Nat.le_sub_one_of_lt hk)

/-- The least value comes as often as the order statistics stay there. -/
theorem orderStatistic_eq_first_iff (hk : k < values.length) :
    orderStatistic values k = orderStatistic values 0 ↔
      k < values.count (orderStatistic values 0) := by
  obtain ⟨hlt, heq⟩ := List.getElem?_eq_some_iff.mp (ascending_getElem? hk)
  have hfirst : ∀ v ∈ ascending values, orderStatistic values 0 ≤ v := fun v hv =>
    orderStatistic_zero_le ((ascending_perm values).mem_iff.mp hv)
  rw [← heq, getElem_eq_iff_lt_count (fun _ _ => le_antisymm) (ascending_pairwise values) hfirst
    hlt, (ascending_perm values).count_eq]

/-- So does the greatest, counted from the end. -/
theorem orderStatistic_eq_last_iff (hk : k < values.length) :
    orderStatistic values k = orderStatistic values (values.length - 1) ↔
      values.length - 1 - k < values.count (orderStatistic values (values.length - 1)) := by
  obtain ⟨hlt, heq⟩ := List.getElem?_eq_some_iff.mp (ascending_getElem? hk)
  have hlast : ∀ v ∈ (ascending values).reverse, v ≤ orderStatistic values (values.length - 1) :=
    fun v hv => le_orderStatistic_last
      ((ascending_perm values).mem_iff.mp (List.mem_reverse.mp hv))
  have hreverse : (ascending values).reverse.Pairwise (· ≥ ·) :=
    List.pairwise_reverse.mpr (ascending_pairwise values)
  have hplace : values.length - 1 - k < (ascending values).reverse.length := by
    rw [List.length_reverse, length_ascending]
    omega
  have hmirror : (ascending values).reverse[values.length - 1 - k] = (ascending values)[k] := by
    rw [List.getElem_reverse]
    congr 1
    rw [length_ascending]
    omega
  rw [← heq, ← hmirror, getElem_eq_iff_lt_count (fun _ _ h h' => le_antisymm h' h) hreverse hlast
    hplace, List.count_reverse, (ascending_perm values).count_eq]

end StateBenchmarks.Numeric
