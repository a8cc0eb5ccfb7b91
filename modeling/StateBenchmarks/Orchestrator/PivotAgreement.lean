/-
# The pivot, as the runner and as the driver see it

Whether a frozen pivot is reached is decided twice: by `sync_head_ok` in the runner, to
end the sync measurement, and by `PivotDriver._status` in the driver's own process, to
end the forkchoice updates.  Each asks the node by a call of its own.

Both compare the head with the pivot, less the same 32 blocks.  The driver also wants a
head past genesis, which the runner wants only where no pivot number is configured.
-/

import StateBenchmarks.MockCl.Pivot
import StateBenchmarks.Orchestrator.ConsensusMode

namespace StateBenchmarks.Orchestrator

open Python MockCl

variable {numbers : NumberText} {set : Settings} {d : PivotDriver} {probe : HeadProbe}
  {round : PivotRound} {p h : ℕ}

/-- The runner and the driver are configured with the pivot number `p`, and look at a
node that is not syncing and whose head is `h`. -/
structure SameView (set : Settings) (d : PivotDriver) (probe : HeadProbe) (round : PivotRound)
    (p h : ℕ) : Prop where
  mode : set.consensusMode = "mock"
  configured : ∃ pivot, set.mockCl.get "pivot" = .ok pivot ∧
    pivot.orEmptyGet "number" = .ok (.int p)
  passed : d.pivotNumber = some (p : ℤ)
  watches : d.watches = true
  block : hexField probe.block "number" = some (h : ℤ)
  syncing : round.syncing.rpc = .ok (.bool false)
  head : ∃ text, round.blockNumber.rpc = .ok text ∧ text.int16 = .ok (h : ℤ)

/-- The runner takes the head for synced. -/
def RunnerAccepts (numbers : NumberText) (set : Settings) (freshnessSec : ℤ)
    (probe : HeadProbe) : Prop :=
  syncHeadOk numbers set freshnessSec probe = .ok true

/-- The driver reports that the target is synced, and stops. -/
def DriverStops (d : PivotDriver) (round : PivotRound) : Prop :=
  ∃ status, d.status round = .ok (some status) ∧ status.synced = true

/-- What reads as a number is not empty. -/
theorem headNumber_of_int16 {text : Json} {n : ℤ} (hread : text.int16 = .ok n) :
    headNumber text = n := by
  cases text with
  | str s =>
      have htruthy : (Json.str s).truthy = true := by
        rw [Json.truthy, bne_iff_ne]
        rintro rfl
        cases hread
      rw [headNumber, if_pos htruthy, hread]
  | _ => cases hread

theorem runnerAccepts_iff (hview : SameView set d probe round p h) (freshnessSec : ℤ) :
    RunnerAccepts numbers set freshnessSec probe ↔ p ≤ h + 32 := by
  obtain ⟨pivot, hpivot, hnumber⟩ := hview.configured
  have hint : intOf numbers (.int p) = .ok (p : ℤ) := by
    simp [intOf, Json.number?]
  rw [RunnerAccepts, syncHeadOk, if_pos hview.mode,
    pivotReached_of_number hview.block hpivot hnumber (by simp) hint, Except.ok.injEq,
    decide_eq_true_iff]
  omega

theorem driverStops_iff (hview : SameView set d probe round p h) :
    DriverStops d round ↔ 0 < h ∧ p ≤ h + 32 := by
  obtain ⟨text, htext, hread⟩ := hview.head
  have hstatus : d.status round = .ok (some (d.view (.bool false) text)) := by
    rw [PivotDriver.status, if_pos hview.watches, hview.syncing, htext]
    rfl
  have hsynced : (d.view (.bool false) text).synced = true ↔ 0 < h ∧ p ≤ h + 32 := by
    simp only [PivotDriver.view, headNumber_of_int16 hread, hview.passed, MockCl.isFalse,
      Bool.true_and, Option.all_some, Bool.and_eq_true, decide_eq_true_iff]
    omega
  rw [DriverStops, hstatus, ← hsynced]
  simp

/-- The driver never stops at a head that the runner would not take. -/
theorem DriverStops.runnerAccepts (hstops : DriverStops d round)
    (hview : SameView set d probe round p h) (freshnessSec : ℤ) :
    RunnerAccepts numbers set freshnessSec probe :=
  (runnerAccepts_iff hview freshnessSec).mpr ((driverStops_iff hview).mp hstops).2

/-- **The runner and the driver agree on a head exactly where it is past genesis or the
pivot is beyond the tolerance.** -/
theorem runnerAccepts_iff_driverStops_iff (numbers : NumberText) (freshnessSec : ℤ)
    (hview : SameView set d probe round p h) :
    (RunnerAccepts numbers set freshnessSec probe ↔ DriverStops d round) ↔ 0 < h ∨ 32 < p := by
  rw [runnerAccepts_iff hview, driverStops_iff hview]
  omega

/-- A frozen target whose pivot is block `p`, for the runner. -/
def frozenSettings (p : ℕ) : Settings :=
  { managedSettings with
    consensusMode := "mock"
    mockCl := .obj [("pivot", .obj [("number", .int p)])] }

/-- The driver that is started for it. -/
def frozenDriver (p : ℕ) : PivotDriver where
  pivotHash := "0xpivot"
  statusRpcUrl := some "http://localhost:8545"
  pivotNumber := some p

/-- The answer about the head, for the runner. -/
def headProbe (h : ℕ) : HeadProbe where
  block := .obj [("number", .str (hex h)), ("timestamp", .str "0x1")]
  now := 0
  sawSyncing := false

/-- The answers about a head that is not syncing, for the driver. -/
def headRound (h : ℕ) : PivotRound where
  stopSet := false
  now := 0
  tick := .ok .null
  syncing := .response 200 (.ok (.obj [("result", .bool false)]))
  blockNumber := .response 200 (.ok (.obj [("result", .str (hex h))]))

theorem sameView_frozen (p h : ℕ) :
    SameView (frozenSettings p) (frozenDriver p) (headProbe h) (headRound h) p h where
  mode := rfl
  configured := ⟨_, rfl, rfl⟩
  passed := rfl
  watches := rfl
  block := by
    show (Json.int16 (.str (hex h))).toOption = some (h : ℤ)
    rw [Json.int16_hex]
    rfl
  syncing := rfl
  head := ⟨_, rfl, Json.int16_hex h⟩

/-- A node at genesis with a pivot inside the tolerance: the runner takes its head for
synced, and the driver goes on. -/
theorem genesis_not_agreed :
    ¬ (RunnerAccepts ⟨fun _ => none, fun _ => none⟩ (frozenSettings 10) 120 (headProbe 0) ↔
      DriverStops (frozenDriver 10) (headRound 0)) := by
  have hview := sameView_frozen 10 0
  rw [runnerAccepts_iff hview, driverStops_iff hview]
  decide

/-- Near a pivot beyond the tolerance they agree. -/
theorem runnerAccepts_iff_driverStops_iff_frozen :
    (RunnerAccepts ⟨fun _ => none, fun _ => none⟩ (frozenSettings 100) 120 (headProbe 90) ↔
      DriverStops (frozenDriver 100) (headRound 90)) ↔ 0 < 90 ∨ 32 < 100 :=
  runnerAccepts_iff_driverStops_iff _ 120 (sameView_frozen 100 90)

end StateBenchmarks.Orchestrator
