/-
# Which names of a relative path stand

A relative path without detours goes some ways up and then down some names.  Both
can be read off its components by counting: a name stands if what is behind it never
has more ways up than names, and a path climbs as far as the largest excess of ways
up over names in a front part.
-/

import Mathlib.Data.List.Infix
import Mathlib.Order.Defs.LinearOrder
import StateBenchmarks.Python.Paths

namespace StateBenchmarks.Python

/-- How many directories a component goes down. -/
def stepDown (comp : List Char) : ℤ :=
  if comp = [] ∨ comp = ['.'] then 0 else if comp = ['.', '.'] then -1 else 1

/-- The names among components less the ways up. -/
def descent : List (List Char) → ℤ
  | [] => 0
  | comp :: comps => stepDown comp + descent comps

/-- How far components climb above where they start: the largest excess of ways up in
a front part. -/
def climbs (comps : List (List Char)) : ℕ :=
  (comps.inits.map fun front => (-descent front).toNat).foldr max 0

/-- The names that no way up takes back: what is behind such a name never has more ways
up than names. -/
def standing : List (List Char) → Place
  | [] => []
  | comp :: comps =>
      if stepDown comp = 1 ∧ ∀ front ∈ comps.inits, 0 ≤ descent front then
        comp :: standing comps
      else standing comps

theorem stepDown_cases (comp : List Char) :
    ((comp = [] ∨ comp = ['.']) ∧ stepDown comp = 0) ∨
      (comp = ['.', '.'] ∧ stepDown comp = -1) ∨
      (¬ (comp = [] ∨ comp = ['.']) ∧ comp ≠ ['.', '.'] ∧ stepDown comp = 1) := by
  rw [stepDown]
  split_ifs with hstay hup
  · exact Or.inl ⟨hstay, rfl⟩
  · exact Or.inr (Or.inl ⟨hup, rfl⟩)
  · exact Or.inr (Or.inr ⟨hstay, hup, rfl⟩)

theorem climbs_le_iff {comps : List (List Char)} {n : ℕ} :
    climbs comps ≤ n ↔ ∀ front ∈ comps.inits, 0 ≤ n + descent front := by
  rw [climbs]
  induction comps.inits with
  | nil => simp
  | cons front fronts ih =>
      rw [List.map_cons, List.foldr_cons, Nat.max_le, ih, List.forall_mem_cons]
      apply and_congr_left'
      omega

/-- A component ahead is climbed less by what it goes down. -/
theorem climbs_cons (comp : List Char) (comps : List (List Char)) :
    climbs (comp :: comps) = ((climbs comps : ℤ) - stepDown comp).toNat := by
  apply eq_of_forall_ge_iff
  intro n
  rw [climbs_le_iff, List.inits_cons, List.forall_mem_cons]
  have hfronts : (∀ front ∈ comps.inits.map (comp :: ·), 0 ≤ n + descent front) ↔
      ∀ front ∈ comps.inits, 0 ≤ (n + stepDown comp) + descent front := by
    simp only [List.forall_mem_map, descent, Int.add_assoc]
  rw [hfronts]
  have hstart : (∀ front ∈ comps.inits, 0 ≤ (n + stepDown comp) + descent front) →
      0 ≤ n + stepDown comp := by
    intro h
    simpa [descent] using h [] ((List.mem_inits _ _).mpr List.nil_prefix)
  by_cases hroom : 0 ≤ (n : ℤ) + stepDown comp
  · have hle : climbs comps ≤ (n + stepDown comp).toNat ↔
        ∀ front ∈ comps.inits, 0 ≤ (n + stepDown comp) + descent front := by
      rw [climbs_le_iff, Int.toNat_of_nonneg hroom]
    rw [← hle]
    have hnil : 0 ≤ (n : ℤ) + descent [] := by simp [descent]
    omega
  · have hsteps := stepDown_cases comp
    constructor
    · rintro ⟨-, h⟩
      exact absurd (hstart h) hroom
    · intro h
      omega

/-- A name stands if what is behind it does not climb above it. -/
theorem standing_cons_of_name {comp : List Char} (h : stepDown comp = 1)
    (comps : List (List Char)) :
    standing (comp :: comps) =
      if climbs comps = 0 then comp :: standing comps else standing comps := by
  have hlevel : (∀ front ∈ comps.inits, 0 ≤ descent front) ↔ climbs comps = 0 := by
    rw [← Nat.le_zero, climbs_le_iff]
    simp
  rw [standing]
  simp only [h, true_and, hlevel]

theorem standing_cons_of_ne {comp : List Char} (h : stepDown comp ≠ 1)
    (comps : List (List Char)) : standing (comp :: comps) = standing comps := by
  rw [standing, if_neg fun hname => h hname.1]

/-- Going on along components takes back as many names as they climb. -/
theorem foldl_enter (comps : List (List Char)) (r : Route) :
    comps.foldl Route.enter r =
      ⟨r.ups + (climbs comps - r.names.length),
        r.names.take (r.names.length - climbs comps) ++ standing comps⟩ := by
  induction comps generalizing r with
  | nil => simp [climbs, descent, standing]
  | cons comp comps ih =>
      rw [List.foldl_cons, ih, climbs_cons]
      rcases stepDown_cases comp with ⟨hstay, hstep⟩ | ⟨hup, hstep⟩ | ⟨hstay, hup, hstep⟩
      · rw [Route.enter, if_pos hstay, standing_cons_of_ne (by omega), hstep]
        simp
      · rw [standing_cons_of_ne (by omega), hstep, Route.enter, if_neg (by simp [hup]), if_pos hup]
        by_cases hnames : r.names = []
        · rw [if_pos hnames, hnames]
          simp
          omega
        · have hpos := List.length_pos_of_ne_nil hnames
          rw [if_neg hnames]
          simp [List.dropLast_eq_take, List.take_take]
          omega
      · rw [standing_cons_of_name hstep, hstep, Route.enter, if_neg hstay, if_neg hup]
        by_cases hlevel : climbs comps = 0
        · have hall : (r.names ++ [comp]).take (r.names ++ [comp]).length = r.names ++ [comp] :=
            List.take_length
          rw [hlevel, if_pos rfl, Nat.sub_zero, hall]
          simp
        · have hkept : r.names.length + 1 - climbs comps ≤ r.names.length := by omega
          rw [if_neg hlevel, List.length_append, List.length_singleton,
            List.take_append_of_le_length hkept]
          congr 2
          · omega
          · congr 1
            omega

/-- What a relative path climbs, and the names that stand, are its route. -/
theorem route_eq (path : List Char) :
    route path = ⟨climbs (path.splitOn '/'), standing (path.splitOn '/')⟩ := by
  rw [route, foldl_enter]
  simp

/-- Names less ways up: the names that stand, less what is climbed. -/
theorem length_standing (comps : List (List Char)) :
    (standing comps).length = descent comps + climbs comps := by
  induction comps with
  | nil => simp [standing, descent, climbs]
  | cons comp comps ih =>
      rw [descent, climbs_cons]
      rcases stepDown_cases comp with ⟨-, hstep⟩ | ⟨-, hstep⟩ | ⟨-, -, hstep⟩
      · rw [standing_cons_of_ne (by omega)]
        omega
      · rw [standing_cons_of_ne (by omega)]
        omega
      · rw [standing_cons_of_name hstep]
        split_ifs with hlevel
        · rw [List.length_cons]
          push_cast
          omega
        · omega

end StateBenchmarks.Python
