/-
# Timing the sync

`measure_sync_time` polls the node until it has been confirmed as synced, or
until its patience runs out.  A poll has four outcomes.  Syncing and a bad head
reset the count of confirmations; a good head raises it; a node that does not
answer leaves it alone.  So the confirmations counted are consecutive among the
polls that were answered, not among all polls.

The loop does not look ahead.  Each poll has a verdict of its own, given the
polls before it, and the loop ends with the first one.
-/

import StateBenchmarks.Control.Loop
import StateBenchmarks.Control.Streak
import StateBenchmarks.Orchestrator.ConsensusMode

namespace StateBenchmarks.Orchestrator

open Python Control

/-- What one round of the loop gets to see: the answers to its two requests, null
for a node that does not answer, and what the clock shows when the head is
examined, when the loop is left, and when patience is tested.  The last two are
measured from the start. -/
structure SyncPoll where
  syncing : Json
  block : Json
  now : ℚ
  done : ℚ
  elapsed : ℚ

/-- What the head test looks at. -/
def SyncPoll.probe (poll : SyncPoll) (sawSyncing : Bool) : HeadProbe :=
  ⟨poll.block, poll.now, sawSyncing⟩

/-- `check_sync_status`, from the answer to `eth_syncing`. -/
def checkSyncStatus (result : Json) : Option Bool :=
  match result with
  | .null => none
  | .bool false => some false
  | _ => some true

/-- The parameters of `measure_sync_time` and the settings it reads. -/
structure SyncWait where
  numbers : NumberText
  set : Settings
  /-- `SYNC_HEAD_FRESHNESS_SEC`. -/
  freshnessSec : ℤ
  /-- `SYNC_TIMEOUT_SEC`. -/
  timeoutSec : ℤ
  confirmations : ℕ
  maxSeconds : Option ℤ

/-- The local variables of the loop. -/
structure SyncState where
  sawSyncing : Bool
  consecutiveSynced : ℕ
  staleWarned : Bool

/-- Before the first poll. -/
def SyncState.start : SyncState := ⟨false, 0, false⟩

/-- How the loop is left: confirmed, at some time, or by an exception. -/
inductive SyncExit where
  | confirmed (seconds : ℚ)
  | raised (e : Exn)

/-- What the function returns or raises then: the duration, or nothing if the node
never reported syncing. -/
def SyncExit.result (s : SyncState) : SyncExit → Except Exn (Option ℚ)
  | .confirmed seconds => .ok (if s.sawSyncing then some seconds else none)
  | .raised e => .error e

namespace SyncWait

variable (w : SyncWait)

/-- `max_seconds if max_seconds is not None else SYNC_TIMEOUT_SEC`. -/
def cap : ℤ := w.maxSeconds.getD w.timeoutSec

/-- The exception of a sync that takes too long. -/
def timeoutError : Exn :=
  .runtimeError [.text "Sync did not complete within ", .str (.int w.cap),
    .text "s (nodes.sync_timeout_sec); aborting this client's run."]

/-- There is a cap and the poll is past it. -/
def Capped (poll : SyncPoll) : Prop := w.cap ≠ 0 ∧ (w.cap : ℚ) ≤ poll.elapsed

instance (poll : SyncPoll) : Decidable (w.Capped poll) := inferInstanceAs (Decidable (_ ∧ _))

/-- The test of patience at the end of a round. -/
def testPatience (poll : SyncPoll) (s : SyncState) : Option SyncExit × SyncState :=
  if w.Capped poll then (some (.raised w.timeoutError), s) else (none, s)

/-- `sync_head_ok(saw_syncing)`. -/
def headOk (poll : SyncPoll) (sawSyncing : Bool) : Except Exn Bool :=
  syncHeadOk w.numbers w.set w.freshnessSec (poll.probe sawSyncing)

/-- One round of the loop. -/
def syncStep (_ : ℕ) (poll : SyncPoll) (s : SyncState) : Option SyncExit × SyncState :=
  match checkSyncStatus poll.syncing with
  | some true => w.testPatience poll { s with sawSyncing := true, consecutiveSynced := 0 }
  | some false =>
      match w.headOk poll s.sawSyncing with
      | .error e => (some (.raised e), s)
      | .ok true =>
          let s := { s with consecutiveSynced := s.consecutiveSynced + 1 }
          if w.confirmations ≤ s.consecutiveSynced then (some (.confirmed poll.done), s)
          else w.testPatience poll s
      | .ok false =>
          w.testPatience poll
            { s with consecutiveSynced := 0, staleWarned := s.staleWarned || !s.sawSyncing }
  | none => w.testPatience poll s

/-- `measure_sync_time` on the polls it gets to make: what it returns or raises,
or nothing if it would poll again. -/
def measureSyncTime (polls : List SyncPoll) : Option (Except Exn (Option ℚ)) :=
  let (exit, s) := forEach w.syncStep 0 polls .start
  exit.map (SyncExit.result s)

end SyncWait

/-- The four outcomes of a poll. -/
inductive Observed where
  | syncing
  | headOk
  | headNotOk
  | unreachable
  deriving DecidableEq

section Sequence

variable (w : SyncWait) (polls : ℕ → SyncPoll)

/-- The first polls of a sequence. -/
def firstPolls (n : ℕ) : List SyncPoll := (List.range n).map polls

/-- A poll before the `n`-th reported syncing. -/
def sawBefore (n : ℕ) : Bool :=
  (List.range n).any fun k => checkSyncStatus (polls k).syncing == some true

/-- The outcome of the `n`-th poll.  The head test may ask whether syncing has been
seen before. -/
def observed (n : ℕ) : Except Exn Observed :=
  match checkSyncStatus (polls n).syncing with
  | some true => .ok .syncing
  | some false =>
      (w.headOk (polls n) (sawBefore polls n)).map fun ok => if ok then .headOk else .headNotOk
  | none => .ok .unreachable

/-- The `n`-th poll found a good head. -/
def Good (n : ℕ) : Prop := (observed w polls n).toOption = some .headOk

/-- The `n`-th poll was not answered. -/
def Unanswered (n : ℕ) : Prop := (observed w polls n).toOption = some .unreachable

instance : DecidablePred (Good w polls) := fun n =>
  inferInstanceAs (Decidable ((observed w polls n).toOption = some .headOk))

instance : DecidablePred (Unanswered w polls) := fun n =>
  inferInstanceAs (Decidable ((observed w polls n).toOption = some .unreachable))

/-- What the `n`-th poll makes of the loop, if it gets there. -/
def verdict (n : ℕ) : Option (Except Exn (Option ℚ)) :=
  match observed w polls n with
  | .error e => some (.error e)
  | .ok outcome =>
      if outcome = .headOk ∧ w.confirmations ≤ streak (Good w polls) (Unanswered w polls) (n + 1)
      then some (.ok (if sawBefore polls n then some (polls n).done else none))
      else if w.Capped (polls n) then some (.error w.timeoutError)
      else none

/-- The loop ends at the `n`-th poll, and not before, with the result. -/
def EndsAt (n : ℕ) (result : Except Exn (Option ℚ)) : Prop :=
  w.measureSyncTime (firstPolls polls n) = none ∧
    w.measureSyncTime (firstPolls polls (n + 1)) = some result

end Sequence

variable {w : SyncWait} {polls : ℕ → SyncPoll} {n : ℕ} {s : SyncState}

/-- A poll reports syncing when its outcome is that. -/
theorem observed_eq_syncing_iff :
    observed w polls n = .ok .syncing ↔ checkSyncStatus (polls n).syncing = some true := by
  unfold observed
  split
  · rename_i hstatus
    simp [hstatus]
  · rename_i hstatus
    simp only [hstatus, Option.some.injEq, Bool.false_eq_true, iff_false]
    rcases w.headOk (polls n) (sawBefore polls n) with e | ok
    · simp [Except.map]
    · cases ok <;> simp [Except.map]
  · rename_i hstatus
    simp [hstatus]

/-- A node that is not syncing is asked for its head. -/
theorem observed_of_not_syncing (h : checkSyncStatus (polls n).syncing = some false) :
    observed w polls n = (w.headOk (polls n) (sawBefore polls n)).map fun ok =>
      if ok then .headOk else .headNotOk := by
  rw [observed, h]

theorem sawBefore_succ {outcome : Observed} (h : observed w polls n = .ok outcome) :
    sawBefore polls (n + 1) = (sawBefore polls n || decide (outcome = .syncing)) := by
  have hsyncing := @observed_eq_syncing_iff w polls n
  rw [h, Except.ok.injEq] at hsyncing
  rw [sawBefore, List.range_succ, List.any_append, ← sawBefore]
  simp only [List.any_cons, List.any_nil, Bool.or_false, beq_eq_decide, hsyncing]

theorem streak_succ {outcome : Observed} (h : observed w polls n = .ok outcome) :
    streak (Good w polls) (Unanswered w polls) (n + 1) =
      match outcome with
      | .headOk => streak (Good w polls) (Unanswered w polls) n + 1
      | .unreachable => streak (Good w polls) (Unanswered w polls) n
      | .syncing | .headNotOk => 0 := by
  rw [streak]
  cases outcome <;> simp [Good, Unanswered, h, Except.toOption]

/-- The local variables are those of a loop that has made the first polls. -/
structure Tracks (w : SyncWait) (polls : ℕ → SyncPoll) (n : ℕ) (s : SyncState) : Prop where
  saw : s.sawSyncing = sawBefore polls n
  consecutive : s.consecutiveSynced = streak (Good w polls) (Unanswered w polls) n

theorem tracks_start (w : SyncWait) (polls : ℕ → SyncPoll) : Tracks w polls 0 .start :=
  ⟨rfl, rfl⟩

/-- What an observation does to the two variables. -/
theorem Tracks.succ (h : Tracks w polls n s) {outcome : Observed} {s' : SyncState}
    (hconsecutive : s'.consecutiveSynced =
      match outcome with
      | .headOk => s.consecutiveSynced + 1
      | .unreachable => s.consecutiveSynced
      | .syncing | .headNotOk => 0)
    (hsaw : s'.sawSyncing = (s.sawSyncing || decide (outcome = .syncing)))
    (hobserved : observed w polls n = .ok outcome) : Tracks w polls (n + 1) s' := by
  apply Tracks.mk
  · rw [sawBefore_succ hobserved, ← h.saw, hsaw]
  · rw [streak_succ hobserved, ← h.consecutive, hconsecutive]
    cases outcome <;> rfl

/-- A round that does not confirm ends with the test of patience. -/
theorem testPatience_spec (h : Tracks w polls (n + 1) s) {outcome : Observed}
    (hobserved : observed w polls n = .ok outcome)
    (hopen : ¬ (outcome = .headOk ∧
      w.confirmations ≤ streak (Good w polls) (Unanswered w polls) (n + 1))) :
    (w.testPatience (polls n) s).1.map (SyncExit.result (w.testPatience (polls n) s).2) =
        verdict w polls n ∧
      (verdict w polls n = none → Tracks w polls (n + 1) (w.testPatience (polls n) s).2) := by
  rw [verdict, hobserved]
  dsimp only
  rw [if_neg hopen, SyncWait.testPatience]
  split_ifs
  · exact ⟨rfl, fun _ => h⟩
  · exact ⟨rfl, fun _ => h⟩

/-- What one round does: the verdict of its poll, and the variables of the next. -/
theorem syncStep_spec (h : Tracks w polls n s) :
    (w.syncStep n (polls n) s).1.map (SyncExit.result (w.syncStep n (polls n) s).2) =
        verdict w polls n ∧
      (verdict w polls n = none → Tracks w polls (n + 1) (w.syncStep n (polls n) s).2) := by
  unfold SyncWait.syncStep
  cases hstatus : checkSyncStatus (polls n).syncing with
  | none =>
      have hobserved : observed w polls n = .ok .unreachable := by rw [observed, hstatus]
      have htracks : Tracks w polls (n + 1) s := h.succ rfl (Bool.or_false _).symm hobserved
      exact testPatience_spec htracks hobserved (by simp)
  | some syncing =>
      cases syncing with
      | true =>
          have hobserved : observed w polls n = .ok .syncing := by rw [observed, hstatus]
          have htracks : Tracks w polls (n + 1)
              { s with sawSyncing := true, consecutiveSynced := 0 } :=
            h.succ rfl (Bool.or_true _).symm hobserved
          exact testPatience_spec htracks hobserved (by simp)
      | false =>
          have hobserved := observed_of_not_syncing (w := w) hstatus
          rw [← h.saw] at hobserved
          dsimp only
          cases hhead : w.headOk (polls n) s.sawSyncing with
          | error e =>
              rw [hhead] at hobserved
              rw [verdict, hobserved]
              exact ⟨rfl, fun hnone => by cases hnone⟩
          | ok ok =>
              cases ok with
              | true =>
                  have hobserved : observed w polls n = .ok .headOk := by rw [hobserved, hhead]; rfl
                  have htracks : Tracks w polls (n + 1)
                      { s with consecutiveSynced := s.consecutiveSynced + 1 } :=
                    h.succ rfl (Bool.or_false _).symm hobserved
                  have hcount : s.consecutiveSynced + 1 = _ := htracks.consecutive
                  dsimp only
                  split_ifs with hfull
                  · rw [hcount] at hfull
                    rw [verdict, hobserved]
                    dsimp only
                    rw [if_pos ⟨rfl, hfull⟩, ← h.saw]
                    exact ⟨rfl, fun hnone => by cases hnone⟩
                  · rw [hcount] at hfull
                    exact testPatience_spec htracks hobserved (by simp [hfull])
              | false =>
                  have hobserved : observed w polls n = .ok .headNotOk := by
                    rw [hobserved, hhead]
                    rfl
                  have htracks : Tracks w polls (n + 1) { s with
                      consecutiveSynced := 0, staleWarned := s.staleWarned || !s.sawSyncing } :=
                    h.succ rfl (Bool.or_false _).symm hobserved
                  exact testPatience_spec htracks hobserved (by simp)

theorem firstPolls_getElem? {N k : ℕ} (h : k < N) : (firstPolls polls N)[k]? = some (polls k) := by
  simp [firstPolls, h]

/-- The loop arrives behind polls that have no verdict. -/
theorem arrives_of_quiet (h : ∀ k < n, verdict w polls k = none) {N : ℕ} (hN : n ≤ N) :
    ∃ s, Arrives w.syncStep (firstPolls polls N) .start n s ∧ Tracks w polls n s := by
  induction n with
  | zero => exact ⟨.start, .start, tracks_start w polls⟩
  | succ n ih =>
      obtain ⟨s, harrives, htracks⟩ := ih (fun k hk => h k (by omega)) (by omega)
      obtain ⟨hresult, hnext⟩ := syncStep_spec htracks
      have hquiet := h n (Nat.lt_succ_self n)
      rw [hquiet, Option.map_eq_none_iff] at hresult
      exact ⟨_, harrives.next (firstPolls_getElem? hN) (Prod.ext hresult rfl), hnext hquiet⟩

/-- Behind polls without a verdict, the next verdict is the end of the loop. -/
theorem measureSyncTime_of_verdict (h : ∀ k < n, verdict w polls k = none)
    {result : Except Exn (Option ℚ)} (hverdict : verdict w polls n = some result) {N : ℕ}
    (hN : n < N) : w.measureSyncTime (firstPolls polls N) = some result := by
  obtain ⟨s, harrives, htracks⟩ := arrives_of_quiet h hN.le
  obtain ⟨hresult, -⟩ := syncStep_spec htracks
  rw [hverdict, Option.map_eq_some_iff] at hresult
  obtain ⟨exit, hexit, hresult⟩ := hresult
  have hloop := harrives.forEach_eq_some (firstPolls_getElem? hN) (Prod.ext hexit rfl)
  rw [SyncWait.measureSyncTime, hloop]
  exact congrArg some hresult

/-- Polls without a verdict leave the loop waiting, and only they do. -/
theorem measureSyncTime_eq_none_iff :
    w.measureSyncTime (firstPolls polls n) = none ↔ ∀ k < n, verdict w polls k = none := by
  apply Iff.intro
  · intro hwaiting k
    induction k using Nat.strong_induction_on with
    | h k ih =>
        intro hk
        cases hverdict : verdict w polls k with
        | none => rfl
        | some result =>
            have hends := measureSyncTime_of_verdict (fun j hj => ih j hj (by omega)) hverdict hk
            rw [hwaiting] at hends
            cases hends
  · intro h
    obtain ⟨s, harrives, -⟩ := arrives_of_quiet h (Nat.le_refl n)
    have hlength : (firstPolls polls n).length = n := by simp [firstPolls]
    have hloop := Arrives.forEach_eq_none (by rwa [hlength])
    rw [SyncWait.measureSyncTime, hloop]
    rfl

/-- The loop ends with the first verdict. -/
theorem endsAt_iff {result : Except Exn (Option ℚ)} :
    EndsAt w polls n result ↔
      (∀ k < n, verdict w polls k = none) ∧ verdict w polls n = some result := by
  rw [EndsAt, measureSyncTime_eq_none_iff]
  apply and_congr_right
  intro h
  apply Iff.intro
  · intro hends
    cases hverdict : verdict w polls n with
    | none =>
        have hwaiting : w.measureSyncTime (firstPolls polls (n + 1)) = none := by
          rw [measureSyncTime_eq_none_iff]
          intro k hk
          rcases Nat.lt_succ_iff_lt_or_eq.mp hk with hlt | rfl
          · exact h k hlt
          · exact hverdict
        rw [hends] at hwaiting
        cases hwaiting
    | some other => rw [← hends, measureSyncTime_of_verdict h hverdict (Nat.lt_succ_self n)]
  · intro hverdict
    exact measureSyncTime_of_verdict h hverdict (Nat.lt_succ_self n)

end StateBenchmarks.Orchestrator
