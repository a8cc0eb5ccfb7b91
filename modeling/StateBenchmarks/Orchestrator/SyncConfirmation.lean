/-
# When a sync is confirmed

The loop of `measure_sync_time` is left successfully once enough good heads have
gathered.  Its documentation promises consecutive polls.  The two agree on the
runs in which no unanswered poll lies among the good ones that are counted: a
node that goes down while it is being confirmed need not start over.

A node that is synced from the start is confirmed at once where the head alone
decides.  Where the criterion asks for syncing to have been seen, it never is.
-/

import StateBenchmarks.Orchestrator.SyncMeasurement

namespace StateBenchmarks.Orchestrator

open Python Control

variable {w : SyncWait} {polls : ℕ → SyncPoll} {m n : ℕ}

/-- Up to `n`, the last polls, as many as are to confirm the sync, found a good
head. -/
def Confirmed (w : SyncWait) (polls : ℕ → SyncPoll) (n : ℕ) : Prop :=
  Window (Good w polls) w.confirmations n

/-- Enough good heads gathered from `m` to `n`, unanswered polls among them or not. -/
def Gathered (w : SyncWait) (polls : ℕ → SyncPoll) (m n : ℕ) : Prop :=
  Gathers (Good w polls) (Unanswered w polls) w.confirmations m n

/-- The loop ends successfully only when the sync is confirmed; it does so then,
unless its patience has run out before; and the result is nothing exactly when
syncing was never reported. -/
structure ConfirmsInARow (w : SyncWait) (polls : ℕ → SyncPoll) : Prop where
  only : ∀ n v, EndsAt w polls n (.ok v) → Confirmed w polls n
  first : ∀ n, Confirmed w polls n → (∀ k < n, ¬ Confirmed w polls k) →
    (∃ v, EndsAt w polls n (.ok v)) ∨ ∃ k < n, EndsAt w polls k (.error w.timeoutError)
  null : ∀ n v, EndsAt w polls n (.ok v) →
    (v = none ↔ ∀ k ≤ n, observed w polls k ≠ .ok .syncing)

/-- The first time that enough good heads gather within the loop's patience, no
poll among them went unanswered. -/
def Undisturbed (w : SyncWait) (polls : ℕ → SyncPoll) : Prop :=
  ∀ m n, Gathered w polls m n → (∀ k < n, ∀ m', ¬ Gathered w polls m' k) →
    (∀ k < n, ¬ w.Capped (polls k)) → ∀ k, m ≤ k → k ≤ n → ¬ Unanswered w polls k

/-- Every poll has one of the four outcomes: the head test does not raise. -/
def Answerable (w : SyncWait) (polls : ℕ → SyncPoll) : Prop :=
  ∀ n, ∃ outcome, observed w polls n = .ok outcome

theorem not_unanswered_of_good (h : Good w polls n) : ¬ Unanswered w polls n := by
  intro hnone
  have heq := h.symm.trans hnone
  cases heq

theorem observed_of_good (h : Good w polls n) : observed w polls n = .ok .headOk := by
  unfold Good at h
  cases hobserved : observed w polls n with
  | error e =>
      rw [hobserved] at h
      cases h
  | ok outcome =>
      rw [hobserved] at h
      exact congrArg Except.ok (Option.some.inj h)

/-- Enough good heads end the loop. -/
theorem verdict_of_gathered (hc : 1 ≤ w.confirmations) (h : Gathered w polls m n) :
    verdict w polls n =
      some (.ok (if sawBefore polls n then some (polls n).done else none)) := by
  have hfull := (exists_gathers_iff hc h.last).mp ⟨m, h⟩
  rw [verdict, observed_of_good h.last]
  dsimp only
  rw [if_pos ⟨rfl, hfull⟩]

/-- Without enough good heads the loop goes on for as long as its patience lasts. -/
theorem verdict_of_not_gathered (hc : 1 ≤ w.confirmations) (hanswer : Answerable w polls)
    (h : ∀ m, ¬ Gathered w polls m n) :
    verdict w polls n = if w.Capped (polls n) then some (.error w.timeoutError) else none := by
  obtain ⟨outcome, hobserved⟩ := hanswer n
  rw [verdict, hobserved]
  dsimp only
  rw [if_neg]
  rintro ⟨rfl, hfull⟩
  have hgood : Good w polls n := by rw [Good, hobserved]; rfl
  obtain ⟨m, hm⟩ := (exists_gathers_iff hc hgood).mpr hfull
  exact h m hm

/-- The loop has not ended before `n`. -/
theorem quiet_iff (hc : 1 ≤ w.confirmations) (hanswer : Answerable w polls) :
    (∀ k < n, verdict w polls k = none) ↔
      (∀ k < n, ∀ m, ¬ Gathered w polls m k) ∧ ∀ k < n, ¬ w.Capped (polls k) := by
  rw [← forall₂_and]
  apply forall₂_congr
  intro k _
  apply Iff.intro
  · intro hnone
    have hopen : ∀ m, ¬ Gathered w polls m k := by
      intro m hm
      rw [verdict_of_gathered hc hm] at hnone
      cases hnone
    refine ⟨hopen, ?_⟩
    rw [verdict_of_not_gathered hc hanswer hopen] at hnone
    intro hcapped
    rw [if_pos hcapped] at hnone
    cases hnone
  · rintro ⟨hopen, hcapped⟩
    rw [verdict_of_not_gathered hc hanswer hopen, if_neg hcapped]

/-- Where the loop ends successfully, enough good heads have gathered for the
first time. -/
theorem gathered_of_endsAt (hc : 1 ≤ w.confirmations) (hanswer : Answerable w polls)
    {v : Option ℚ} (h : EndsAt w polls n (.ok v)) :
    (∃ m, Gathered w polls m n) ∧ (∀ k < n, ∀ m, ¬ Gathered w polls m k) ∧
      ∀ k < n, ¬ w.Capped (polls k) := by
  obtain ⟨hquiet, hverdict⟩ := endsAt_iff.mp h
  refine ⟨?_, (quiet_iff hc hanswer).mp hquiet⟩
  by_contra hopen
  rw [verdict_of_not_gathered hc hanswer (not_exists.mp hopen)] at hverdict
  split_ifs at hverdict
  cases hverdict

theorem endsAt_of_gathered (hc : 1 ≤ w.confirmations) (hanswer : Answerable w polls)
    (h : Gathered w polls m n) (hfirst : ∀ k < n, ∀ m, ¬ Gathered w polls m k)
    (hpatient : ∀ k < n, ¬ w.Capped (polls k)) :
    EndsAt w polls n (.ok (if sawBefore polls n then some (polls n).done else none)) :=
  endsAt_iff.mpr ⟨(quiet_iff hc hanswer).mpr ⟨hfirst, hpatient⟩, verdict_of_gathered hc h⟩

/-- As long as nothing unanswered is counted, nothing gathers before the sync is
confirmed. -/
theorem not_gathered_of_undisturbed (h : Undisturbed w polls)
    (hfirst : ∀ k < n, ¬ Confirmed w polls k)
    (hpatient : ∀ k < n, ∀ j < k, ¬ w.Capped (polls j)) :
    ∀ k < n, ∀ m, ¬ Gathered w polls m k := by
  intro k
  induction k using Nat.strong_induction_on with
  | h k ih =>
      intro hk m hm
      have hbusy := h m k hm (fun j hj => ih j hj (by omega)) (hpatient k hk)
      exact hfirst k hk (hm.window hbusy)

theorem sawBefore_iff :
    sawBefore polls n = true ↔ ∃ k < n, observed w polls k = .ok .syncing := by
  simp only [sawBefore, List.any_eq_true, List.mem_range, beq_iff_eq, observed_eq_syncing_iff]

/-- The result is nothing exactly when syncing was never reported, in every run. -/
theorem null_iff (hc : 1 ≤ w.confirmations) (hanswer : Answerable w polls) {v : Option ℚ}
    (h : EndsAt w polls n (.ok v)) :
    v = none ↔ ∀ k ≤ n, observed w polls k ≠ .ok .syncing := by
  obtain ⟨⟨m, hm⟩, -, -⟩ := gathered_of_endsAt hc hanswer h
  obtain ⟨-, hverdict⟩ := endsAt_iff.mp h
  rw [verdict_of_gathered hc hm, Option.some.injEq, Except.ok.injEq] at hverdict
  have hlast : observed w polls n ≠ .ok .syncing := by
    rw [observed_of_good hm.last]
    simp
  rw [← hverdict]
  cases hsaw : sawBefore polls n with
  | true =>
      obtain ⟨k, hk, hsyncing⟩ := (sawBefore_iff (w := w)).mp hsaw
      apply iff_of_false
      · simp
      · intro hnever
        exact hnever k hk.le hsyncing
  | false =>
      apply iff_of_true rfl
      intro k hk hsyncing
      rcases Nat.lt_or_eq_of_le hk with hlt | rfl
      · have hsome := (sawBefore_iff (w := w)).mpr ⟨k, hlt, hsyncing⟩
        rw [hsaw] at hsome
        cases hsome
      · exact hlast hsyncing

/-- **Confirmations in a row.**  Over every infinite sequence of polls and every
clock, the loop waits for consecutive confirmations if and only if no unanswered
poll lies among the good ones it counts. -/
theorem confirmsInARow_iff (hc : 1 ≤ w.confirmations) (hanswer : Answerable w polls) :
    ConfirmsInARow w polls ↔ Undisturbed w polls := by
  apply Iff.intro
  · intro h m n hm hfirst hpatient k hmk hkn
    have hwindow := h.only n _ (endsAt_of_gathered hc hanswer hm hfirst hpatient)
    have hstart := hm.start_eq hwindow
    exact not_unanswered_of_good (hwindow.2 k hkn (by omega))
  · intro h
    apply ConfirmsInARow.mk
    · intro n v hends
      obtain ⟨⟨m, hm⟩, hfirst, hpatient⟩ := gathered_of_endsAt hc hanswer hends
      exact hm.window (h m n hm hfirst hpatient)
    · intro n hconfirmed hfirst
      by_cases hpatient : ∀ k < n, ¬ w.Capped (polls k)
      · have hopen := not_gathered_of_undisturbed h hfirst fun k hk j hj => hpatient j (by omega)
        exact Or.inl ⟨_, endsAt_of_gathered hc hanswer (hconfirmed.gathers hc) hopen hpatient⟩
      · -- The first poll past the cap comes before anything has gathered.
        push Not at hpatient
        obtain ⟨⟨hk, hcapped⟩, hleast⟩ := Nat.find_spec hpatient, @Nat.find_min _ _ hpatient
        generalize Nat.find hpatient = k at hk hcapped hleast
        have hpatient : ∀ j < k, ¬ w.Capped (polls j) := fun j hj hcap =>
          hleast hj ⟨by omega, hcap⟩
        have hopen := @not_gathered_of_undisturbed w polls (k + 1) h
          (fun j hj => hfirst j (by omega)) (fun i hi j hj => hpatient j (by omega))
        refine Or.inr ⟨k, hk, endsAt_iff.mpr ⟨?_, ?_⟩⟩
        · exact (quiet_iff hc hanswer).mpr ⟨fun j hj => hopen j (by omega), hpatient⟩
        · rw [verdict_of_not_gathered hc hanswer (hopen k (Nat.lt_succ_self k)), if_pos hcapped]
    · intro n v hends
      exact null_iff hc hanswer hends

/-- A good head by the head test of the mode is a good poll. -/
theorem observed_of_headOk (hstatus : checkSyncStatus (polls n).syncing = some false)
    (hhead : w.headOk (polls n) (sawBefore polls n) = .ok true) :
    observed w polls n = .ok .headOk := by
  rw [observed_of_not_syncing hstatus, hhead]
  rfl

/-- Waiting for two confirmations behind a live chain. -/
def liveWait : SyncWait where
  numbers := ⟨fun _ => none, fun _ => none⟩
  set := managedSettings
  freshnessSec := 120
  timeoutSec := 86400
  confirmations := 2
  maxSeconds := none

/-- A node with a head of this very moment. -/
def freshPoll : SyncPoll where
  syncing := .bool false
  block := .obj [("number", .str "0x10"), ("timestamp", .str "0x64")]
  now := 100
  done := 0
  elapsed := 0

/-- A node that is down. -/
def downPoll : SyncPoll where
  syncing := .null
  block := .null
  now := 100
  done := 0
  elapsed := 0

theorem headIsFresh_freshPoll (sawSyncing : Bool) :
    headIsFresh 120 (freshPoll.probe sawSyncing) = true := by
  have hnumber : hexField (freshPoll.probe sawSyncing).block "number" = some 16 := rfl
  have htimestamp : hexField (freshPoll.probe sawSyncing).block "timestamp" = some 100 := rfl
  rw [headIsFresh, hnumber, htimestamp]
  simp [SyncPoll.probe, freshPoll, Json.truthy]

theorem observed_freshPoll (h : polls n = freshPoll) :
    observed liveWait polls n = .ok .headOk := by
  apply observed_of_headOk
  · rw [h]
    rfl
  · rw [h]
    exact congrArg Except.ok (headIsFresh_freshPoll _)

theorem observed_downPoll (h : polls n = downPoll) :
    observed liveWait polls n = .ok .unreachable := by
  rw [observed, h]
  rfl

/-- The node is down between the two polls that confirm it. -/
def restartPolls (n : ℕ) : SyncPoll := if n = 1 then downPoll else freshPoll

theorem answerable_restartPolls : Answerable liveWait restartPolls := by
  intro n
  by_cases h : n = 1
  · exact ⟨_, observed_downPoll (if_pos h)⟩
  · exact ⟨_, observed_freshPoll (if_neg h)⟩

/-- Two confirmations with a crash between them count as consecutive. -/
theorem restartPolls_not_inARow : ¬ ConfirmsInARow liveWait restartPolls := by
  intro h
  have hgood : ∀ n, n ≠ 1 → Good liveWait restartPolls n := fun n hn => by
    rw [Good, observed_freshPoll (if_neg hn)]
    rfl
  have hdown : Unanswered liveWait restartPolls 1 := by
    rw [Unanswered, observed_downPoll (if_pos rfl)]
    rfl
  have hbad : ¬ Good liveWait restartPolls 1 := fun hone => not_unanswered_of_good hone hdown
  have hgathered : Gathered liveWait restartPolls 0 2 := by
    refine ⟨by omega, hgood 0 (by omega), hgood 2 (by omega), ?_, ?_⟩
    · intro k _ _
      by_cases hk : k = 1
      · exact Or.inr (hk ▸ hdown)
      · exact Or.inl (hgood k hk)
    · show Nat.count (Good liveWait restartPolls) 0 + 2 = Nat.count (Good liveWait restartPolls) 3
      rw [Nat.count_succ, Nat.count_succ, Nat.count_succ, if_pos (hgood 0 (by omega)), if_neg hbad,
        if_pos (hgood 2 (by omega))]
  have hfirst : ∀ k < 2, ∀ m, ¬ Gathered liveWait restartPolls m k := by
    intro k hk m hm
    have hk0 : k = 0 := by
      by_contra hne
      obtain rfl : k = 1 := by omega
      exact hbad hm.last
    subst hk0
    have hcount : _ + 2 = Nat.count (Good liveWait restartPolls) 1 := hm.count
    have hle : Nat.count (Good liveWait restartPolls) 1 ≤ 1 := Nat.count_le _
    omega
  have hpatient : ∀ k < 2, ¬ liveWait.Capped (restartPolls k) := by
    intro k _ hcap
    have helapsed : (restartPolls k).elapsed = 0 := by
      unfold restartPolls
      split_ifs <;> rfl
    have hpast := hcap.2
    rw [helapsed] at hpast
    exact absurd hpast (by decide +kernel)
  have hends := endsAt_of_gathered (by decide) answerable_restartPolls hgathered hfirst hpatient
  exact hbad ((h.only 2 _ hends).2 1 (by omega) (by decide))

/-- A node that is always up is confirmed by consecutive polls. -/
theorem freshPolls_inARow : ConfirmsInARow liveWait fun _ => freshPoll := by
  have hanswer : Answerable liveWait fun _ => freshPoll :=
    fun n => ⟨_, observed_freshPoll rfl⟩
  apply (confirmsInARow_iff (by decide) hanswer).mpr
  intro m n _ _ _ k _ _ hdown
  rw [Unanswered, observed_freshPoll rfl] at hdown
  cases hdown

/-! ## A node that is synced from the start -/

/-- The number `sync_head_ok` finds for the pivot in the configuration, which may
be null. -/
def SyncWait.PivotEntry (w : SyncWait) (number : Json) : Prop :=
  ∃ pivot, w.set.mockCl.get "pivot" = .ok pivot ∧ pivot.orEmptyGet "number" = .ok number

/-- The configuration has a pivot number. -/
def SyncWait.Pivot (w : SyncWait) (p : ℤ) : Prop :=
  ∃ number, w.PivotEntry number ∧ number ≠ .null ∧ intOf w.numbers number = .ok p

/-- The answer describes a block past genesis. -/
def HasHead (block : Json) (number : ℤ) : Prop := hexField block "number" = some number ∧ 0 < number

/-- A head that is synced, as each mode means it. -/
inductive SyncedHead (w : SyncWait) (poll : SyncPoll) : Prop
  | lighthouse (mode : w.set.consensusMode = "lighthouse")
      (fresh : headIsFresh w.freshnessSec (poll.probe false) = true)
  | pivot {number p : ℤ} (mode : w.set.consensusMode = "mock") (head : HasHead poll.block number)
      (configured : w.Pivot p) (reached : p - 32 ≤ number)
  | noPivot {number : ℤ} (mode : w.set.consensusMode = "mock") (head : HasHead poll.block number)
      (unset : w.PivotEntry .null)
  | none {number : ℤ} (mode : w.set.consensusMode = "none") (head : HasHead poll.block number)

/-- Every poll finds the node up, not syncing and with a synced head. -/
def AlreadySynced (w : SyncWait) (polls : ℕ → SyncPoll) : Prop :=
  ∀ n, (polls n).syncing = .bool false ∧ SyncedHead w (polls n)

/-- The mode judges the head by itself, without asking for a transition. -/
def SyncWait.JudgesHead (w : SyncWait) : Prop :=
  w.set.consensusMode = "lighthouse" ∨ w.set.consensusMode = "mock" ∧ ∃ p, w.Pivot p

/-- The pivot test on a head and a configured number. -/
theorem pivotReached_of_pivot {probe : HeadProbe} {number p : ℤ} (head : HasHead probe.block number)
    (configured : w.Pivot p) :
    pivotReached w.numbers w.set probe = .ok (decide (p - 32 ≤ number)) := by
  obtain ⟨v, ⟨pivot, hpivot, hnumber⟩, hne, hint⟩ := configured
  exact pivotReached_of_number head.1 hpivot hnumber hne hint

/-- Without a configured number it asks for the transition. -/
theorem pivotReached_of_noPivot {probe : HeadProbe} {number : ℤ} (head : HasHead probe.block number)
    (unset : w.PivotEntry .null) :
    pivotReached w.numbers w.set probe = .ok probe.sawSyncing := by
  obtain ⟨pivot, hpivot, hnumber⟩ := unset
  rw [pivotReached, if_pos (truthy_of_hexField head.1), head.1]
  simp only [hpivot, hnumber, bind, Except.bind, head.2, decide_true, Bool.true_and]
  rfl

/-- Without a mode that has one, the transition is asked for as well. -/
theorem sawTransition_of_head {probe : HeadProbe} {number : ℤ} (head : HasHead probe.block number) :
    sawTransition probe = probe.sawSyncing := by
  rw [sawTransition, if_pos (truthy_of_hexField head.1), head.1]
  simp only [head.2, decide_true, Bool.true_and]

section AlreadySynced

theorem sawBefore_of_never (h : ∀ n, (polls n).syncing = .bool false) (n : ℕ) :
    sawBefore polls n = false := by
  rw [← Bool.not_eq_true, sawBefore_iff (w := liveWait)]
  rintro ⟨k, -, hsyncing⟩
  rw [observed_eq_syncing_iff, h k] at hsyncing
  cases hsyncing

/-- Where the mode judges the head by itself, every poll confirms. -/
theorem observed_of_judgesHead (h : AlreadySynced w polls) (hmode : w.JudgesHead) (n : ℕ) :
    observed w polls n = .ok .headOk := by
  have hstatus : checkSyncStatus (polls n).syncing = some false := by rw [(h n).1]; rfl
  apply observed_of_headOk hstatus
  rw [sawBefore_of_never fun k => (h k).1]
  unfold SyncWait.headOk syncHeadOk
  cases (h n).2 with
  | lighthouse mode fresh =>
      rw [mode, if_neg (by decide), if_neg (by decide)]
      exact congrArg Except.ok fresh
  | pivot mode head configured reached =>
      rw [if_pos mode, pivotReached_of_pivot head configured, decide_eq_true reached]
  | noPivot mode head unset =>
      obtain ⟨p, v, ⟨pivot, hpivot, hnumber⟩, hne, -⟩ :=
        (hmode.resolve_left (by rw [mode]; decide)).2
      obtain ⟨pivot', hpivot', hnumber'⟩ := unset
      obtain rfl := Except.ok.inj (hpivot.symm.trans hpivot')
      exact absurd (Except.ok.inj (hnumber.symm.trans hnumber')) hne
  | none mode head =>
      rcases hmode with hmode | ⟨hmode, -⟩
      · rw [mode] at hmode
        exact absurd hmode (by decide)
      · rw [mode] at hmode
        exact absurd hmode (by decide)

/-- Where the mode asks for a transition, no poll ever confirms. -/
theorem observed_of_transition (hnever : ∀ n, (polls n).syncing = .bool false)
    (hmode : w.set.consensusMode = "none" ∨
      w.set.consensusMode = "mock" ∧ w.PivotEntry .null)
    (hhead : ∀ n, ∃ number, HasHead (polls n).block number) (n : ℕ) :
    observed w polls n = .ok .headNotOk := by
  obtain ⟨number, head⟩ := hhead n
  rw [observed_of_not_syncing (by rw [hnever n]; rfl), sawBefore_of_never hnever]
  unfold SyncWait.headOk syncHeadOk
  rcases hmode with hmode | ⟨hmode, hunset⟩
  · rw [hmode, if_neg (by decide), if_pos rfl, sawTransition_of_head head]
    rfl
  · rw [if_pos hmode, pivotReached_of_noPivot head hunset]
    rfl

/-- Good polls from the start count themselves. -/
theorem streak_of_all_good (h : ∀ n, observed w polls n = .ok .headOk) (n : ℕ) :
    streak (Good w polls) (Unanswered w polls) n = n := by
  induction n with
  | zero => rfl
  | succ n ih => rw [streak_succ (h n), ih]

theorem verdict_of_all_good (h : ∀ n, observed w polls n = .ok .headOk)
    (hnever : ∀ n, (polls n).syncing = .bool false) (n : ℕ) :
    verdict w polls n =
      if w.confirmations ≤ n + 1 then some (.ok none)
      else if w.Capped (polls n) then some (.error w.timeoutError) else none := by
  rw [verdict, h n]
  dsimp only
  rw [streak_of_all_good h, sawBefore_of_never hnever]
  simp only [true_and]
  rfl

/-- A node that is synced from the start, in a mode that judges the head by itself,
is confirmed as soon as it has been polled often enough, with nothing as the
result.  If patience runs out at an earlier poll, that is the end. -/
theorem alreadySynced_returns_null (hc : 1 ≤ w.confirmations) (h : AlreadySynced w polls)
    (hmode : w.JudgesHead) :
    ((∀ k, k + 1 < w.confirmations → ¬ w.Capped (polls k)) →
      EndsAt w polls (w.confirmations - 1) (.ok none)) ∧
    ∀ k, k + 1 < w.confirmations → w.Capped (polls k) → (∀ j < k, ¬ w.Capped (polls j)) →
      EndsAt w polls k (.error w.timeoutError) := by
  have hverdict := verdict_of_all_good (observed_of_judgesHead h hmode) fun n => (h n).1
  have hquiet : ∀ k, k + 1 < w.confirmations → ¬ w.Capped (polls k) →
      verdict w polls k = none := by
    intro k hk hcap
    rw [hverdict, if_neg (by omega), if_neg hcap]
  constructor
  · intro hpatient
    apply endsAt_iff.mpr
    apply And.intro
    · intro k hk
      exact hquiet k (by omega) (hpatient k (by omega))
    · rw [hverdict, if_pos (by omega)]
  · intro k hk hcapped hpatient
    apply endsAt_iff.mpr
    apply And.intro
    · intro j hj
      exact hquiet j (by omega) (hpatient j hj)
    · rw [hverdict, if_neg (by omega), if_pos hcapped]

/-- Where the mode asks for a transition, the wait for it never ends well. -/
theorem not_endsAt_of_transition (hnever : ∀ n, (polls n).syncing = .bool false)
    (hmode : w.set.consensusMode = "none" ∨
      w.set.consensusMode = "mock" ∧ w.PivotEntry .null)
    (hhead : ∀ n, ∃ number, HasHead (polls n).block number) (n : ℕ) (v : Option ℚ) :
    ¬ EndsAt w polls n (.ok v) := by
  intro hends
  obtain ⟨-, hverdict⟩ := endsAt_iff.mp hends
  rw [verdict, observed_of_transition hnever hmode hhead] at hverdict
  simp at hverdict

end AlreadySynced

/-- A cap of five seconds, and a first poll that takes as long. -/
def cappedWait : SyncWait := { liveWait with maxSeconds := some 5 }

/-- A fresh head after five seconds. -/
def slowPoll : SyncPoll := { freshPoll with elapsed := 5 }

/-- The same wait without a consensus client. -/
def transitionWait : SyncWait :=
  { liveWait with set := { managedSettings with consensusMode := "none" } }

theorem alreadySynced_lighthouse {w : SyncWait} {poll : SyncPoll}
    (hmode : w.set.consensusMode = "lighthouse") (hstatus : poll.syncing = .bool false)
    (hfresh : headIsFresh w.freshnessSec (poll.probe false) = true) :
    AlreadySynced w fun _ => poll := fun _ => ⟨hstatus, .lighthouse hmode hfresh⟩

theorem hasHead_freshPoll : HasHead freshPoll.block 16 := ⟨rfl, by decide⟩

/-- A node that is synced from the start runs into the cap behind a live chain, and
waits for ever without a consensus client. -/
theorem alreadySynced_not_null :
    (AlreadySynced cappedWait (fun _ => slowPoll) ∧
      ¬ EndsAt cappedWait (fun _ => slowPoll) (cappedWait.confirmations - 1) (.ok none)) ∧
    AlreadySynced transitionWait (fun _ => freshPoll) ∧
      ∀ n v, ¬ EndsAt transitionWait (fun _ => freshPoll) n (.ok v) := by
  have hlive : AlreadySynced cappedWait fun _ => slowPoll :=
    alreadySynced_lighthouse rfl rfl (headIsFresh_freshPoll false)
  refine ⟨⟨hlive, ?_⟩, ?_, ?_⟩
  · intro hends
    have hquiet := (endsAt_iff.mp hends).1 0 (by decide)
    rw [verdict_of_all_good (observed_of_judgesHead hlive (Or.inl rfl)) (fun _ => rfl),
      if_neg (by decide), if_pos ⟨by decide, by decide +kernel⟩] at hquiet
    cases hquiet
  · intro n
    exact ⟨rfl, .none rfl hasHead_freshPoll⟩
  · exact not_endsAt_of_transition (fun _ => rfl) (Or.inl rfl) fun _ => ⟨16, hasHead_freshPoll⟩

/-- With the patience the settings give it, it is confirmed by the second poll. -/
theorem freshPolls_null : EndsAt liveWait (fun _ => freshPoll) 1 (.ok none) := by
  apply (alreadySynced_returns_null (by decide)
    (alreadySynced_lighthouse rfl rfl (headIsFresh_freshPoll false)) (Or.inl rfl)).1
  intro k _ hcap
  exact absurd hcap.2 (by decide +kernel)

end StateBenchmarks.Orchestrator
