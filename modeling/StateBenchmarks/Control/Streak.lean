/-
# Counters that only count in a row

A loop that waits for a number of confirmations in a row keeps a counter.  Good
events raise it, bad ones reset it.  Where a third kind of event leaves the
counter alone, what it counts is no longer a window of events in a row but a
gathering of good events with idle ones among them.

The facts here relate the counter, the gatherings and the windows over an
infinite sequence of events.
-/

import Mathlib.Data.Nat.Count

namespace StateBenchmarks.Control

variable (good idle : ℕ → Prop)

/-- The last `c` events up to `n` are good. -/
def Window (c n : ℕ) : Prop := c ≤ n + 1 ∧ ∀ k, k ≤ n → n < k + c → good k

variable [DecidablePred good]

/-- The counter before an event: raised by good events, left alone by idle ones
and reset by all others. -/
def streak [DecidablePred idle] : ℕ → ℕ
  | 0 => 0
  | n + 1 => if good n then streak n + 1 else if idle n then streak n else 0

/-- From `m` to `n` there are `c` good events, the first and the last among them,
and otherwise only idle ones. -/
structure Gathers (c m n : ℕ) : Prop where
  le : m ≤ n
  first : good m
  last : good n
  quiet : ∀ k, m ≤ k → k ≤ n → good k ∨ idle k
  count : Nat.count good m + c = Nat.count good (n + 1)

variable {good idle} {c m n : ℕ}

/-- As long as nothing resets the counter, it keeps up with the good events. -/
theorem count_le_streak [DecidablePred idle] (hmn : m ≤ n)
    (hquiet : ∀ k, m ≤ k → k < n → good k ∨ idle k) :
    Nat.count good n ≤ Nat.count good m + streak good idle n := by
  induction n, hmn using Nat.le_induction with
  | base => omega
  | succ n hmn ih =>
      have hbefore := ih fun k hmk hkn => hquiet k hmk (by omega)
      rw [Nat.count_succ, streak]
      rcases hquiet n hmn (Nat.lt_succ_self n) with hgood | hidle
      · rw [if_pos hgood, if_pos hgood]
        omega
      · by_cases hgood : good n
        · rw [if_pos hgood, if_pos hgood]
          omega
        · rw [if_neg hgood, if_neg hgood, if_pos hidle]
          exact hbefore

variable (good idle) in
/-- The counter counts the good events since it was last reset. -/
theorem exists_start [DecidablePred idle] (n : ℕ) :
    ∃ m ≤ n, (∀ k, m ≤ k → k < n → good k ∨ idle k) ∧
      Nat.count good m + streak good idle n = Nat.count good n := by
  induction n with
  | zero => exact ⟨0, Nat.le_refl 0, fun k _ hk => absurd hk (Nat.not_lt_zero k), rfl⟩
  | succ n ih =>
      obtain ⟨m, hmn, hquiet, hcount⟩ := ih
      have hextend : good n ∨ idle n → ∀ k, m ≤ k → k < n + 1 → good k ∨ idle k := by
        intro hn k hmk hkn
        rcases Nat.lt_succ_iff_lt_or_eq.mp hkn with hlt | rfl
        · exact hquiet k hmk hlt
        · exact hn
      rw [Nat.count_succ, streak]
      by_cases hgood : good n
      · rw [if_pos hgood, if_pos hgood]
        exact ⟨m, by omega, hextend (Or.inl hgood), by omega⟩
      · rw [if_neg hgood, if_neg hgood]
        by_cases hidle : idle n
        · rw [if_pos hidle]
          exact ⟨m, by omega, hextend (Or.inr hidle), by omega⟩
        · rw [if_neg hidle]
          refine ⟨n + 1, Nat.le_refl _, fun k hle hlt => absurd hlt (by omega), ?_⟩
          rw [Nat.count_succ, if_neg hgood]

/-- Among the starts from which at least `c` good events follow, the last one has
exactly `c`, and is good itself. -/
theorem exists_gathers_of_quiet (hc : 1 ≤ c) (hmn : m ≤ n) (hlast : good n)
    (hquiet : ∀ k, m ≤ k → k ≤ n → good k ∨ idle k)
    (hcount : Nat.count good m + c ≤ Nat.count good (n + 1)) :
    ∃ m, Gathers good idle c m n := by
  let enough : ℕ → Prop := fun k => Nat.count good k + c ≤ Nat.count good (n + 1)
  have hspec : enough (Nat.findGreatest enough n) := Nat.findGreatest_spec hmn hcount
  have hge : m ≤ Nat.findGreatest enough n := Nat.le_findGreatest hmn hcount
  have hle : Nat.findGreatest enough n ≤ n := Nat.findGreatest_le n
  have hnext : ¬ enough (Nat.findGreatest enough n + 1) := by
    intro hmore
    rcases Nat.lt_or_ge (Nat.findGreatest enough n) n with hlt | hge
    · exact absurd (Nat.le_findGreatest hlt hmore) (by omega)
    · have hend : Nat.findGreatest enough n = n := Nat.le_antisymm hle hge
      rw [hend] at hmore
      have hmore : Nat.count good (n + 1) + c ≤ Nat.count good (n + 1) := hmore
      omega
  generalize Nat.findGreatest enough n = start at hspec hge hle hnext
  have hspec : Nat.count good start + c ≤ Nat.count good (n + 1) := hspec
  have hnext : ¬ Nat.count good (start + 1) + c ≤ Nat.count good (n + 1) := hnext
  rw [Nat.count_succ] at hnext
  have hfirst : good start := by
    by_contra hbad
    rw [if_neg hbad] at hnext
    exact hnext hspec
  rw [if_pos hfirst] at hnext
  exact ⟨start, hle, hfirst, hlast, fun k hk => hquiet k (by omega), by omega⟩

/-- At a good event the counter has reached `c` exactly when that many have
gathered. -/
theorem exists_gathers_iff [DecidablePred idle] (hc : 1 ≤ c) (hlast : good n) :
    (∃ m, Gathers good idle c m n) ↔ c ≤ streak good idle (n + 1) := by
  apply Iff.intro
  · rintro ⟨m, h⟩
    have hkeeps := @count_le_streak good idle _ m (n + 1) _ (by have := h.le; omega)
      (fun k hmk hkn => h.quiet k hmk (by omega))
    have hcount := h.count
    omega
  · intro hstreak
    obtain ⟨m, hmn, hquiet, hcount⟩ := exists_start good idle (n + 1)
    have hm : m ≤ n := by
      by_contra hlate
      obtain rfl : m = n + 1 := by omega
      omega
    exact exists_gathers_of_quiet hc hm hlast (fun k hmk hkn => hquiet k hmk (by omega)) (by omega)

/-- Events that are all good are all counted. -/
theorem count_of_all_good (hmn : m ≤ n) (hall : ∀ k, m ≤ k → k < n → good k) :
    Nat.count good m + (n - m) = Nat.count good n := by
  induction n, hmn using Nat.le_induction with
  | base => omega
  | succ n hmn ih =>
      have hbefore := ih fun k hmk hkn => hall k hmk (by omega)
      rw [Nat.count_succ, if_pos (hall n hmn (Nat.lt_succ_self n))]
      omega

theorem Window.gathers (hc : 1 ≤ c) (h : Window good c n) :
    Gathers good idle c (n + 1 - c) n where
  le := by omega
  first := h.2 _ (by omega) (by have := h.1; omega)
  last := h.2 n (Nat.le_refl n) (by omega)
  quiet k hmk hkn := Or.inl (h.2 k hkn (by omega))
  count := by
    have hle := h.1
    have hcount := @count_of_all_good good _ (n + 1 - c) (n + 1) (by omega)
      (fun k hmk hkn => h.2 k (by omega) (by omega))
    omega

/-- A gathering without idle events is a window. -/
theorem Gathers.window (h : Gathers good idle c m n)
    (hbusy : ∀ k, m ≤ k → k ≤ n → ¬ idle k) : Window good c n := by
  have hall : ∀ k, m ≤ k → k ≤ n → good k := fun k hmk hkn =>
    (h.quiet k hmk hkn).resolve_right (hbusy k hmk hkn)
  have hle := h.le
  have hcount := @count_of_all_good good _ m (n + 1) (by omega)
    (fun k hmk hkn => hall k hmk (by omega))
  have htotal := h.count
  exact ⟨by omega, fun k hkn hlast => hall k (by omega) hkn⟩

/-- A gathering that ends with a window is the window. -/
theorem Gathers.start_eq (h : Gathers good idle c m n) (hwindow : Window good c n) :
    m + c = n + 1 := by
  have hle := h.le
  have htotal := h.count
  have hspan := hwindow.1
  have hcount := @count_of_all_good good _ (n + 1 - c) (n + 1) (by omega)
    (fun k hmk hkn => hwindow.2 k (by omega) (by omega))
  rcases Nat.lt_trichotomy m (n + 1 - c) with hlt | heq | hgt
  · have hmore := Nat.count_strict_mono h.first hlt
    omega
  · omega
  · have hmore : Nat.count good (n + 1 - c) < Nat.count good m :=
      Nat.count_strict_mono (hwindow.2 _ (by omega) (by omega)) hgt
    omega

end StateBenchmarks.Control
