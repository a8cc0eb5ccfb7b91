/-
# Releasing the overlay

`restore` may wipe the scratch directories only once the overlay is off the
mount table.  Between it and the table stands a ladder of five plain umounts
and a lazy one.  This module says, for any host, at which rung the ladder ends
and in which state: the results about particular hosts start from here.
-/

import StateBenchmarks.Orchestrator.Overlay

namespace StateBenchmarks.Orchestrator

open Python Control

variable {σ : Type} {H : Host σ} {cfg : OverlayConfig} {s t : σ}

/-- A command goes through when its executable is there and, where the script
checks it, its exit status is zero. -/
theorem run_eq_ok_iff {command : Command} {check : Bool} {status : ℤ} :
    run H cfg command check s = .ok status t ↔
      H.exec command s = (some status, t) ∧ (check = true → status = 0) := by
  rcases hexec : H.exec command s with ⟨_ | status', t'⟩
  · simp [run, hexec]
  · by_cases hcheck : check = true ∧ status' ≠ 0
    · simp only [run, hexec, if_pos hcheck]
      constructor
      · exact fun h => by cases h
      · rintro ⟨heq, hzero⟩
        cases heq
        exact absurd (hzero hcheck.1) hcheck.2
    · simp only [run, hexec, if_neg hcheck]
      constructor
      · intro h
        cases h
        exact ⟨rfl, fun hc => by_contra fun hne => hcheck ⟨hc, hne⟩⟩
      · rintro ⟨heq, -⟩
        cases heq
        rfl

theorem call_eq_ok_iff {command : Command} {check : Bool} :
    call H cfg command check s = .ok ⟨⟩ t ↔
      ∃ status, H.exec command s = (some status, t) ∧ (check = true → status = 0) := by
  rw [call, Script.bind_eq_ok_iff]
  constructor
  · rintro ⟨status, t', hrun, heq⟩
    cases heq
    exact ⟨status, run_eq_ok_iff.mp hrun⟩
  · rintro ⟨status, hexec⟩
    exact ⟨status, t, run_eq_ok_iff.mpr hexec, rfl⟩

/-- An unchecked command raises only where its executable is missing. -/
theorem call_unchecked (H : Host σ) (cfg : OverlayConfig) (command : Command) (s : σ) :
    (H.exec command s).1 ≠ none ∧
        call H cfg command false s = .ok ⟨⟩ (H.exec command s).2 ∨
      (H.exec command s).1 = none ∧
        ∃ e, call H cfg command false s = .error e (H.exec command s).2 := by
  rcases hexec : H.exec command s with ⟨_ | status, t⟩
  · refine Or.inr ⟨rfl, Exn.notFound (command.argv cfg), ?_⟩
    rw [call, Script.bind_of_error (by rw [run, hexec])]
  · exact Or.inl ⟨nofun, call_eq_ok_iff.mpr ⟨status, hexec, nofun⟩⟩

variable (H) in
/-- The state in which attempt `k` is made: each earlier one was followed by the
delay. -/
def tried : ℕ → σ → σ
  | 0, s => s
  | k + 1, s => tried k (H.sleep (H.exec .umount s).2)

variable (H) in
/-- The state right after attempt `k`. -/
def attempted (k : ℕ) (s : σ) : σ := (H.exec .umount (tried H k s)).2

variable (H) in
/-- Attempt `k` finds its executable. -/
def Found (k : ℕ) (s : σ) : Prop := (H.exec .umount (tried H k s)).1 ≠ none

variable (H cfg) in
/-- Attempt `k` runs and the overlay is still mounted after it. -/
def Refused (k : ℕ) (s : σ) : Prop :=
  Found H k s ∧ isMounted H cfg (attempted H k s) = true

/-- `is_mounted` answers `true` where it finds the overlay, whatever follows. -/
theorem askMounted_of_mounted (h : isMounted H cfg s = true) :
    askMounted H cfg s = .ok true s := by
  have hread : ¬ Unreadable H cfg s := by
    rintro ⟨-, -, hfree⟩
    rw [h] at hfree
    cases hfree
  rw [askMounted, if_neg hread, h]

/-- It answers `false` only if it could read the whole table. -/
theorem askMounted_of_free (h : isMounted H cfg s = false) (hread : ¬ Unreadable H cfg s) :
    askMounted H cfg s = .ok false s := by
  rw [askMounted, if_neg hread, h]

/-- A table of nothing but UTF-8 can be read. -/
theorem not_unreadable (h : H.garbled s = false) : ¬ Unreadable H cfg s := by
  rintro ⟨-, hgarbled, -⟩
  rw [h] at hgarbled
  cases hgarbled

theorem askMounted_of_unreadable (h : Unreadable H cfg s) :
    ∃ e, askMounted H cfg s = .error e s := by
  rw [askMounted, if_pos h]
  exact ⟨_, rfl⟩

/-- The next attempt decides, and a refusal passes on to the one after it. -/
theorem umountAttempts_succ_of_refused {left : ℕ} (h : Refused H cfg 0 s) :
    umountAttempts H cfg (left + 1) s =
      umountAttempts H cfg left (H.sleep (H.exec .umount s).2) := by
  rcases call_unchecked H cfg .umount s with ⟨-, hrun⟩ | ⟨hnone, -⟩
  · have hask : askMounted H cfg (H.exec .umount s).2 = .ok true _ := askMounted_of_mounted h.2
    rw [umountAttempts, Script.bind_of_ok hrun, Script.bind_of_ok hask]
    rfl
  · exact absurd hnone h.1

/-- The first attempt that is not refused ends the loop. -/
theorem umountAttempts_of_first {left k : ℕ} (hk : k < left)
    (hbefore : ∀ j < k, Refused H cfg j s) :
    (Found H k s → isMounted H cfg (attempted H k s) = false →
      ¬ Unreadable H cfg (attempted H k s) →
      umountAttempts H cfg left s = .ok true (attempted H k s)) ∧
    (Found H k s → Unreadable H cfg (attempted H k s) →
      ∃ e, umountAttempts H cfg left s = .error e (attempted H k s)) ∧
    (¬ Found H k s → ∃ e, umountAttempts H cfg left s = .error e (attempted H k s)) := by
  induction left generalizing s k with
  | zero => exact absurd hk (Nat.not_lt_zero k)
  | succ left ih =>
      cases k with
      | zero =>
          rcases call_unchecked H cfg .umount s with ⟨hfound, hrun⟩ | ⟨hnone, e, hrun⟩
          · refine ⟨fun _ hfree hread => ?_, fun _ hunread => ?_,
              fun hmissing => absurd hfound hmissing⟩
            · have hask : askMounted H cfg (H.exec .umount s).2 = .ok false _ :=
                askMounted_of_free hfree hread
              rw [umountAttempts, Script.bind_of_ok hrun, Script.bind_of_ok hask]
              rfl
            · obtain ⟨e, hask⟩ := askMounted_of_unreadable hunread
              have hraised : askMounted H cfg (H.exec .umount s).2 = .error e _ := hask
              refine ⟨e, ?_⟩
              rw [umountAttempts, Script.bind_of_ok hrun, Script.bind_of_error hraised]
          · refine ⟨fun hfound => absurd hnone hfound, fun hfound => absurd hnone hfound,
              fun _ => ⟨e, ?_⟩⟩
            rw [umountAttempts, Script.bind_of_error hrun]
            rfl
      | succ k =>
          rw [umountAttempts_succ_of_refused (hbefore 0 (Nat.succ_pos k))]
          exact ih (Nat.lt_of_succ_lt_succ hk) fun j hj =>
            hbefore (j + 1) (Nat.succ_lt_succ hj)

/-- When every attempt is refused the loop runs out. -/
theorem umountAttempts_of_refused {left : ℕ} (h : ∀ j < left, Refused H cfg j s) :
    umountAttempts H cfg left s = .ok false (tried H left s) := by
  induction left generalizing s with
  | zero => rfl
  | succ left ih =>
      rw [umountAttempts_succ_of_refused (h 0 (Nat.succ_pos left))]
      exact ih fun j hj => h (j + 1) (Nat.succ_lt_succ hj)

/-- Either all attempts are refused, or one of them is the first that is not. -/
theorem attempts_cases (H : Host σ) (cfg : OverlayConfig) (left : ℕ) (s : σ) :
    (∀ j < left, Refused H cfg j s) ∨
      ∃ k < left, (∀ j < k, Refused H cfg j s) ∧ ¬ Refused H cfg k s := by
  induction left with
  | zero => exact Or.inl fun j hj => absurd hj (Nat.not_lt_zero j)
  | succ left ih =>
      rcases ih with hall | ⟨k, hk, hbefore, hnot⟩
      · by_cases hlast : Refused H cfg left s
        · apply Or.inl
          intro j hj
          rcases Nat.lt_succ_iff_lt_or_eq.mp hj with hlt | rfl
          · exact hall j hlt
          · exact hlast
        · exact Or.inr ⟨left, Nat.lt_succ_self left, hall, hlast⟩
      · exact Or.inr ⟨k, Nat.lt_succ_of_lt hk, hbefore, hnot⟩

/-- How `release` can end, rung by rung. -/
inductive Ladder (H : Host σ) (cfg : OverlayConfig) (s : σ) :
    EStateM.Result Exn σ PUnit → Prop
  /-- There is nothing to release. -/
  | idle (hidle : isMounted H cfg s = false) : Ladder H cfg s (.ok ⟨⟩ s)
  /-- A plain umount takes the overlay off the table. -/
  | freed {k : ℕ} (hmounted : isMounted H cfg s = true) (hk : k < 5)
      (refused : ∀ j < k, Refused H cfg j s) (found : Found H k s)
      (hfree : isMounted H cfg (attempted H k s) = false) :
      Ladder H cfg s (.ok ⟨⟩ (attempted H k s))
  /-- The lazy umount takes it off the table. -/
  | detached (hmounted : isMounted H cfg s = true) (refused : ∀ j < 5, Refused H cfg j s)
      (found : (H.exec .umountLazy (tried H 5 s)).1 ≠ none)
      (hfree : isMounted H cfg (H.exec .umountLazy (tried H 5 s)).2 = false) :
      Ladder H cfg s (.ok ⟨⟩ (H.exec .umountLazy (tried H 5 s)).2)
  /-- Not even the lazy umount does. -/
  | stuck (hmounted : isMounted H cfg s = true) (refused : ∀ j < 5, Refused H cfg j s)
      (found : (H.exec .umountLazy (tried H 5 s)).1 ≠ none)
      (hbusy : isMounted H cfg (H.exec .umountLazy (tried H 5 s)).2 = true) :
      Ladder H cfg s (.error (busyError cfg) (H.exec .umountLazy (tried H 5 s)).2)
  /-- An attempt does not find its executable. -/
  | missing {k : ℕ} {e : Exn} (hmounted : isMounted H cfg s = true) (hk : k < 5)
      (refused : ∀ j < k, Refused H cfg j s) (hmissing : ¬ Found H k s) :
      Ladder H cfg s (.error e (attempted H k s))
  /-- The lazy umount does not find its executable. -/
  | lazyMissing {e : Exn} (hmounted : isMounted H cfg s = true)
      (refused : ∀ j < 5, Refused H cfg j s)
      (hmissing : (H.exec .umountLazy (tried H 5 s)).1 = none) :
      Ladder H cfg s (.error e (H.exec .umountLazy (tried H 5 s)).2)
  /-- The table cannot be read, at first or after an umount. -/
  | unread {e : Exn} {t : σ} (hunread : Unreadable H cfg t) : Ladder H cfg s (.error e t)

/-- The last rung, once every attempt was refused. -/
theorem umountWithRetry_of_refused (hmounted : isMounted H cfg s = true)
    (hall : ∀ j < 5, Refused H cfg j s) : Ladder H cfg s (umountWithRetry H cfg s) := by
  rw [umountWithRetry, Script.bind_of_ok (umountAttempts_of_refused hall),
    if_neg Bool.false_ne_true]
  rcases call_unchecked H cfg .umountLazy (tried H 5 s) with ⟨hfound, hrun⟩ | ⟨hnone, e, hrun⟩
  · rw [Script.bind_of_ok hrun]
    by_cases hread : Unreadable H cfg (H.exec .umountLazy (tried H 5 s)).2
    · obtain ⟨e, hask⟩ := askMounted_of_unreadable hread
      rw [Script.bind_of_error hask]
      exact .unread hread
    · cases hlazy : isMounted H cfg (H.exec .umountLazy (tried H 5 s)).2 with
      | false =>
          rw [Script.bind_of_ok (askMounted_of_free hlazy hread)]
          exact .detached hmounted hall hfound hlazy
      | true =>
          rw [Script.bind_of_ok (askMounted_of_mounted hlazy)]
          exact .stuck hmounted hall hfound hlazy
  · rw [Script.bind_of_error hrun]
    exact .lazyMissing hmounted hall hnone

/-- `release` climbs the ladder. -/
theorem release_ladder (H : Host σ) (cfg : OverlayConfig) (s : σ) :
    Ladder H cfg s (release H cfg s) := by
  by_cases hread : Unreadable H cfg s
  · obtain ⟨e, hask⟩ := askMounted_of_unreadable hread
    rw [release, Script.bind_of_error hask]
    exact .unread hread
  · cases hmounted : isMounted H cfg s with
    | false =>
        rw [release, Script.bind_of_ok (askMounted_of_free hmounted hread)]
        exact .idle hmounted
    | true =>
        rw [release, Script.bind_of_ok (askMounted_of_mounted hmounted)]
        show Ladder H cfg s (umountWithRetry H cfg s)
        rcases attempts_cases H cfg 5 s with hall | ⟨k, hk, hbefore, hnot⟩
        · exact umountWithRetry_of_refused hmounted hall
        · obtain ⟨hfreed, hgarbled, hmissing⟩ := umountAttempts_of_first hk hbefore
          by_cases hfound : Found H k s
          · by_cases hlast : Unreadable H cfg (attempted H k s)
            · obtain ⟨e, hraised⟩ := hgarbled hfound hlast
              rw [umountWithRetry, Script.bind_of_error hraised]
              exact .unread hlast
            · have hfree : isMounted H cfg (attempted H k s) = false := by
                cases hstill : isMounted H cfg (attempted H k s) with
                | false => rfl
                | true => exact absurd ⟨hfound, hstill⟩ hnot
              rw [umountWithRetry, Script.bind_of_ok (hfreed hfound hfree hlast)]
              exact .freed hmounted hk hbefore hfound hfree
          · obtain ⟨e, hraised⟩ := hmissing hfound
            rw [umountWithRetry, Script.bind_of_error hraised]
            exact .missing hmounted hk hbefore hfound

/-- A release that returns leaves no overlay on the mount table. -/
theorem isMounted_of_release (h : release H cfg s = .ok ⟨⟩ t) : isMounted H cfg t = false := by
  have hladder := release_ladder H cfg s
  rw [h] at hladder
  cases hladder with
  | idle hidle => exact hidle
  | freed _ _ _ _ hfree => exact hfree
  | detached _ _ _ hfree => exact hfree

/-- With nothing mounted a release does nothing. -/
theorem release_of_not_mounted (h : isMounted H cfg s = false) (hread : ¬ Unreadable H cfg s) :
    release H cfg s = .ok ⟨⟩ s := by
  rw [release, Script.bind_of_ok (askMounted_of_free h hread)]
  rfl

/-- The ladder reaches a state without a listed overlay, every command on the
way finding its executable. -/
def Releases (H : Host σ) (cfg : OverlayConfig) (s : σ) : Prop :=
  isMounted H cfg s = false ∨
    (∃ k < 5, (∀ j ≤ k, Found H j s) ∧ isMounted H cfg (attempted H k s) = false) ∨
    (∀ j < 5, Found H j s) ∧ (H.exec .umountLazy (tried H 5 s)).1 ≠ none ∧
      isMounted H cfg (H.exec .umountLazy (tried H 5 s)).2 = false

theorem release_isOk_iff (hread : ∀ t, ¬ Unreadable H cfg t) :
    (∃ t, release H cfg s = .ok ⟨⟩ t) ↔ Releases H cfg s := by
  have hladder := release_ladder H cfg s
  generalize release H cfg s = r at hladder
  cases hladder with
  | idle hidle => exact iff_of_true ⟨s, rfl⟩ (Or.inl hidle)
  | freed hmounted hk refused found hfree =>
      refine iff_of_true ⟨_, rfl⟩ (Or.inr (Or.inl ⟨_, hk, fun j hj => ?_, hfree⟩))
      rcases Nat.lt_or_eq_of_le hj with hlt | rfl
      · exact (refused j hlt).1
      · exact found
  | detached hmounted refused found hfree =>
      exact iff_of_true ⟨_, rfl⟩ (Or.inr (Or.inr ⟨fun j hj => (refused j hj).1, found, hfree⟩))
  | stuck hmounted refused found hbusy =>
      refine iff_of_false (fun ⟨t, h⟩ => by cases h) ?_
      rintro (hidle | ⟨k, hk, -, hfree⟩ | ⟨-, -, hfree⟩)
      · rw [hmounted] at hidle
        cases hidle
      · rw [(refused k hk).2] at hfree
        cases hfree
      · rw [hbusy] at hfree
        cases hfree
  | @missing k e hmounted hk refused hmissing =>
      refine iff_of_false (fun ⟨t, h⟩ => by cases h) ?_
      rintro (hidle | ⟨j, hj, hfound, hfree⟩ | ⟨hfound, -⟩)
      · rw [hmounted] at hidle
        cases hidle
      · rcases Nat.lt_or_ge j k with hlt | hge
        · rw [(refused j hlt).2] at hfree
          cases hfree
        · exact hmissing (hfound k hge)
      · exact hmissing (hfound k hk)
  | lazyMissing hmounted refused hmissing =>
      refine iff_of_false (fun ⟨t, h⟩ => by cases h) ?_
      rintro (hidle | ⟨k, hk, -, hfree⟩ | ⟨-, hfound, -⟩)
      · rw [hmounted] at hidle
        cases hidle
      · rw [(refused k hk).2] at hfree
        cases hfree
      · exact hfound hmissing
  | unread hunread => exact absurd hunread (hread _)

section Keeps

variable {P : σ → Prop}

theorem keeps_askMounted (H : Host σ) (cfg : OverlayConfig) :
    Script.Keeps P (askMounted H cfg) := by
  intro s hs
  rw [askMounted]
  split_ifs <;> exact hs

theorem stateOf_call (H : Host σ) (cfg : OverlayConfig) (command : Command) (check : Bool)
    (s : σ) : Script.stateOf (call H cfg command check s) = (H.exec command s).2 := by
  have hrun : Script.stateOf (run H cfg command check s) = (H.exec command s).2 := by
    rw [run]
    rcases H.exec command s with ⟨_ | status, t⟩
    · rfl
    · dsimp only
      split_ifs <;> rfl
  rw [← hrun]
  exact Script.Keeps.after (P := fun t => t = _) rfl fun _ => Script.Keeps.pure _

theorem keeps_command {command : Command} (h : ∀ s, P s → P (H.exec command s).2)
    (cfg : OverlayConfig) (check : Bool) : Script.Keeps P (call H cfg command check) := by
  intro s hs
  rw [stateOf_call]
  exact h s hs

/-- What the first umount establishes and the rest keeps holds after the attempts. -/
theorem after_umountAttempts (hsleep : ∀ s, P s → P (H.sleep s)) {left : ℕ}
    (hrest : Script.Keeps P (umountAttempts H cfg left)) (hs : P (H.exec .umount s).2) :
    P (Script.stateOf (umountAttempts H cfg (left + 1) s)) := by
  refine Script.Keeps.after (by rwa [stateOf_call]) fun _ => ?_
  refine Script.Keeps.bind (keeps_askMounted H cfg) fun mounted => ?_
  split_ifs
  · exact Script.Keeps.bind (fun s hs => hsleep s hs) fun _ => hrest
  · exact Script.Keeps.pure _

theorem keeps_umountAttempts (humount : ∀ s, P s → P (H.exec .umount s).2)
    (hsleep : ∀ s, P s → P (H.sleep s)) (cfg : OverlayConfig) (left : ℕ) :
    Script.Keeps P (umountAttempts H cfg left) := by
  induction left with
  | zero => exact Script.Keeps.pure _
  | succ left ih => exact fun s hs => after_umountAttempts hsleep ih (humount s hs)

/-- So it does after the lazy umount. -/
theorem after_umountWithRetry (humount : ∀ s, P s → P (H.exec .umount s).2)
    (hlazy : ∀ s, P s → P (H.exec .umountLazy s).2) (hsleep : ∀ s, P s → P (H.sleep s))
    (cfg : OverlayConfig) (hs : P (H.exec .umount s).2) :
    P (Script.stateOf (umountWithRetry H cfg s)) := by
  have hattempts := after_umountAttempts hsleep (keeps_umountAttempts humount hsleep cfg 4) hs
  refine Script.Keeps.after hattempts fun freed => ?_
  split_ifs
  · exact Script.Keeps.pure _
  · refine Script.Keeps.bind (keeps_command hlazy cfg _) fun _ => ?_
    refine Script.Keeps.bind (keeps_askMounted H cfg) fun mounted => ?_
    split_ifs
    · exact fun s hs => hs
    · exact Script.Keeps.pure _

/-- Whatever the umounts and the delay keep, a release keeps. -/
theorem keeps_release (humount : ∀ s, P s → P (H.exec .umount s).2)
    (hlazy : ∀ s, P s → P (H.exec .umountLazy s).2) (hsleep : ∀ s, P s → P (H.sleep s))
    (cfg : OverlayConfig) : Script.Keeps P (release H cfg) := by
  refine Script.Keeps.bind (keeps_askMounted H cfg) fun mounted => ?_
  split_ifs
  · exact fun s hs => after_umountWithRetry humount hlazy hsleep cfg (humount s hs)
  · exact Script.Keeps.pure _

theorem keeps_wipe (hrm : ∀ d s, P s → P (H.exec (.rm d) s).2) (cfg : OverlayConfig) :
    Script.Keeps P (Scratch.all.forM (remove H cfg)) :=
  Script.Keeps.forM (fun d => keeps_command (hrm d) cfg _) Scratch.all

end Keeps

end StateBenchmarks.Orchestrator
