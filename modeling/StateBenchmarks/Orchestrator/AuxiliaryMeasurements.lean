/-
# Measurements that may fail

Three steps of `run_benchmark_for_client` measure something beside the load test:
the sync phase is captured, the database is measured, and its size is exported.
Each passes over a command that fails, and a run goes on without what could not be
measured.

A command whose executable is missing does not fail, it is not started, and
`subprocess` raises another exception.  Only the export passes over that one too.
The directory of the milestone is made before the `try`, so that where this fails
the infrastructure is not stopped either.
-/

import StateBenchmarks.Orchestrator.ConsensusMode

namespace StateBenchmarks.Orchestrator

open Python Control

/-- How the steps of a benchmark end; a command without an end has no executable. -/
structure Trial where
  ended : Call → Option Completed
  makedirs : String → Except Exn PUnit
  popen : Option ℕ
  terminate : Except Exn PUnit
  wait : Except Exn PUnit
  kill : Except Exn PUnit
  rpcUp : Except Exn Bool
  syncTime : Except Exn (Option ℚ)
  writeSync : Except Exn PUnit
  seedState : JsonFile

/-- The background driver, `sync_metrics_<client>.json`, and how often
`stop_infrastructure` has been called. -/
structure Progress where
  proc : Option ℕ
  syncMetrics : JsonFile
  stops : ℕ

namespace Trial

variable (w : Trial)

/-- The workstation of the benchmark. -/
def station : Workstation Progress where
  subprocess call s := (w.ended call, s)
  proc s := s.proc
  setProc proc s := { s with proc := proc }
  popen _ s := (w.popen, s)
  terminate _ s := (w.terminate, s)
  wait _ s := (w.wait, s)
  kill _ s := (w.kill, s)
  makedirs path s := (w.makedirs path, s)
  waitForRpc s := (w.rpcUp, s)
  measureSyncTime s := (w.syncTime, s)
  syncMetrics _ _ s := s.syncMetrics
  writeSyncMetrics _ _ payload s :=
    match w.writeSync with
    | .ok _ => (.ok ⟨⟩, { s with syncMetrics := .holds payload })
    | .error e => (.error e, s)
  seedState _ := w.seedState

end Trial

/-- `run_benchmark_for_client` with what stops the infrastructure as a parameter. -/
def Benchmark.runStopping {σ : Type} (job : Benchmark) (W : Workstation σ) (env : PathEnv)
    (numbers : NumberText) (set : Settings) (stop : Script Exn σ PUnit) : Script Exn σ PUnit := do
  attempt (W.makedirs job.milestoneDir)
  Script.finallyDo (job.body W env numbers set) (if job.stopMonitoring then stop else return ⟨⟩)

theorem run_eq_runStopping {σ : Type} (job : Benchmark) (W : Workstation σ) (env : PathEnv)
    (numbers : NumberText) (set : Settings) :
    job.run W env numbers set =
      job.runStopping W env numbers set (stopInfrastructure W.toMachine env set) := rfl

/-- What follows the measurements: the load test and the load phase of the aggregator. -/
def Benchmark.loadPart {σ : Type} (job : Benchmark) (W : Workstation σ) (env : PathEnv)
    (numbers : NumberText) (set : Settings) : Script Exn σ PUnit := do
  runLocustLoadTest W env numbers set job.configPath job.milestoneDir job.client
  runAggregator W job.configPath job.client job.milestone "load" job.failOnRegression

section Promise

variable (w : Trial) (job : Benchmark) (env : PathEnv) (numbers : NumberText) (set : Settings)
  (s : Progress)

/-- The capture of the sync phase. -/
def Benchmark.captureCall : Call := .aggregator job.client job.milestone "sync" false

/-- The size a command printed, null where it failed or printed none. -/
def printedSize : Option Completed → Json
  | none => .null
  | some completed =>
      if completed.returncode = 0 then
        match firstInt numbers completed.stdout with
        | .ok size => .int size
        | .error _ => .null
      else .null

/-- The database size that can be measured. -/
def Trial.measuredSize : Json :=
  match Dict.get? set.dataDirs job.client with
  | none => .null
  | some dir =>
      if dir = "" then .null else printedSize numbers (w.ended (.diskUsage job.client dir))

/-- The sync time measured, or that of the existing snapshot, and the size in it. -/
def Trial.syncResult : Json × Json :=
  if job.skipSync then
    match s.syncMetrics with
    | .holds (.obj fields) => (Dict.get fields "sync_time_sec", Dict.get fields "db_size_bytes")
    | _ => (.null, .null)
  else
    match w.syncTime with
    | .ok (some time) => (.float time, .null)
    | _ => (.null, .null)

/-- What `sync_metrics_<client>.json` is to hold: the size measured, or else the previous
one. -/
def Trial.expectedPayload : Json :=
  syncPayload job.client (w.syncResult job s).1
    (fallBack (w.measuredSize job numbers set) (w.syncResult job s).2)

/-- The RPC server is up and the sync is done, or skipped without a corrupt file from
before. -/
structure Trial.Ready (t : Progress) : Prop where
  makedirs : w.makedirs job.milestoneDir = .ok ⟨⟩
  started : startInfrastructure w.station.toMachine env set job.client s = .ok ⟨⟩ t
  rpcUp : w.rpcUp = .ok true
  synced : job.skipSync = false → ∃ time, w.syncTime = .ok time
  reused : job.skipSync = true →
    s.syncMetrics = .absent ∨ ∃ fields, s.syncMetrics = .holds (.obj fields)
  written : w.writeSync = .ok ⟨⟩

/-- The sync metrics are written, and the rest of the run is the load test and the load
phase of the aggregator. -/
def Trial.CarriesOn : Prop :=
  ∀ t, w.Ready job env set s t →
    ∃ u, job.measure w.station env numbers set t = .ok ⟨⟩ u ∧
      u.syncMetrics = .holds (w.expectedPayload job numbers set s) ∧
      job.body w.station env numbers set s = job.loadPart w.station env numbers set u

/-- `stop_infrastructure`, counted. -/
def Trial.countedStop : Script Exn Progress PUnit := fun s =>
  stopInfrastructure w.station.toMachine env set { s with stops := s.stops + 1 }

/-- `stop_infrastructure` is called once if it is asked for, and else not at all. -/
def Trial.StopsAsAsked : Prop :=
  (Script.stateOf
      (job.runStopping w.station env numbers set (w.countedStop env set) s)).stops =
    s.stops + if job.stopMonitoring then 1 else 0

/-- No executable is missing where only a failing command is passed over, and the
milestone's directory can be made where the infrastructure is to be stopped. -/
def Trial.NothingMissing : Prop :=
  (∀ t, w.Ready job env set s t →
    (job.skipSync = false → w.ended job.captureCall ≠ none) ∧
      ∀ dir, Dict.get? set.dataDirs job.client = some dir → dir ≠ "" →
        w.ended (.diskUsage job.client dir) ≠ none) ∧
    (job.stopMonitoring = true → w.makedirs job.milestoneDir = .ok ⟨⟩)

end Promise

variable {w : Trial} {job : Benchmark} {env : PathEnv} {numbers : NumberText} {set : Settings}
  {s t : Progress}

theorem runCmd_of_missing {call : Call} (argv : List String) (h : w.ended call = none) :
    runCmd w.station.toMachine call argv s = .error (.notFound argv) s := by
  have hpair : w.station.subprocess call s = (none, s) := congrArg (·, s) h
  rw [runCmd, hpair]

theorem runCmd_of_ended {call : Call} {completed : Completed} (argv : List String)
    (h : w.ended call = some completed) (s : Progress) :
    runCmd w.station.toMachine call argv s =
      if completed.returncode = 0 then .ok completed s
      else .error (.calledProcessError argv) s := by
  have hpair : w.station.subprocess call s = (some completed, s) := congrArg (·, s) h
  rw [runCmd, hpair]

/-- A command passed over where it fails is passed over unless it is missing. -/
theorem suppress_runCmd {handled : Exn → Bool} {call : Call} {argv : List String}
    (hfails : handled (.calledProcessError argv) = true)
    (hmissing : w.ended call = none → handled (.notFound argv) = true) :
    Script.suppress handled (do let _ ← runCmd w.station.toMachine call argv) s = .ok ⟨⟩ s := by
  rw [Script.suppress]
  cases hended : w.ended call with
  | none =>
      rw [Script.bind_of_error (runCmd_of_missing argv hended)]
      exact if_pos (hmissing hended)
  | some completed =>
      have hrun := runCmd_of_ended argv hended s
      by_cases hzero : completed.returncode = 0
      · rw [if_pos hzero] at hrun
        rw [Script.bind_of_ok hrun]
        rfl
      · rw [if_neg hzero] at hrun
        rw [Script.bind_of_error hrun]
        exact if_pos hfails

/-- A size that cannot be read is passed over. -/
theorem isMeasurementError_firstInt {stdout : String} {e : Exn}
    (h : firstInt numbers stdout = .error e) : isMeasurementError e = true := by
  rw [firstInt] at h
  split at h
  · cases h
    rfl
  · split at h
    · cases h
    · cases h
      rfl

/-- What is made of the output of a command that was started. -/
theorem handle_printedSize {call : Call} {argv : List String} {completed : Completed}
    (h : w.ended call = some completed) :
    Script.handle
        (do
          let result ← runCmd w.station.toMachine call argv
          let size ← Script.ofExcept (firstInt numbers result.stdout)
          return Json.int size)
        (fun e => if isMeasurementError e then pure .null else throw e) s =
      .ok (printedSize numbers (w.ended call)) s := by
  have hrun := runCmd_of_ended argv h s
  rw [h, printedSize, Script.handle]
  by_cases hzero : completed.returncode = 0
  · rw [if_pos hzero] at hrun ⊢
    rw [Script.bind_of_ok hrun]
    cases hfirst : firstInt numbers completed.stdout with
    | ok size => rfl
    | error e =>
        show (if isMeasurementError e = true then (pure .null : Script Exn Progress Json)
          else throw e) s = .ok .null s
        rw [if_pos (isMeasurementError_firstInt hfirst)]
        rfl
  · rw [if_neg hzero] at hrun ⊢
    rw [Script.bind_of_error hrun]
    rfl

/-- The size is measured, or null, unless the executable is missing. -/
theorem measureDbSize_of_found (h : ∀ dir, Dict.get? set.dataDirs job.client = some dir →
      dir ≠ "" → w.ended (.diskUsage job.client dir) ≠ none) :
    measureDbSize w.station numbers set job.client s =
      .ok (w.measuredSize job numbers set) s := by
  rw [measureDbSize, Trial.measuredSize]
  cases hdir : Dict.get? set.dataDirs job.client with
  | none => rfl
  | some dir =>
      dsimp only
      split_ifs with hempty
      · rfl
      · obtain ⟨completed, hended⟩ := Option.ne_none_iff_exists'.mp (h dir hdir hempty)
        exact handle_printedSize hended

variable (numbers) in
/-- A missing executable leaves the measurement. -/
theorem measureDbSize_of_missing {dir : String}
    (hdir : Dict.get? set.dataDirs job.client = some dir) (hempty : dir ≠ "")
    (h : w.ended (.diskUsage job.client dir) = none) (s : Progress) :
    ∃ e, measureDbSize w.station numbers set job.client s = .error e s := by
  rw [measureDbSize, hdir]
  dsimp only
  rw [if_neg hempty, Script.handle, Script.bind_of_error (runCmd_of_missing _ h)]
  exact ⟨_, rfl⟩

/-! ## The sync -/

/-- The sync gives its time and the previous size, unless the executable of the capture
is missing. -/
theorem sync_of_found (hsynced : job.skipSync = false → ∃ time, w.syncTime = .ok time)
    (hreused : job.skipSync = true →
      s.syncMetrics = .absent ∨ ∃ fields, s.syncMetrics = .holds (.obj fields))
    (hfound : job.skipSync = false → w.ended job.captureCall ≠ none) :
    job.sync w.station s = .ok (w.syncResult job s) s := by
  rw [Benchmark.sync, Trial.syncResult]
  cases hskip : job.skipSync with
  | true =>
      show Script.ofExcept (reusedSync s.syncMetrics) s = _
      rcases hreused hskip with habsent | ⟨fields, hholds⟩
      · rw [habsent]
        rfl
      · rw [hholds]
        rfl
  | false =>
      obtain ⟨time, htime⟩ := hsynced hskip
      have hmeasured : attempt w.station.measureSyncTime s = .ok time s :=
        attempt_of_ok (congrArg (·, s) htime)
      have hcaptured : Script.suppress isCalledProcessError (runAggregator w.station
          job.configPath job.client job.milestone "sync" false) s = .ok ⟨⟩ s :=
        suppress_runCmd rfl fun hmissing => absurd hmissing (hfound hskip)
      simp only [Bool.false_eq_true, if_false]
      rw [Script.bind_of_ok hmeasured]
      refine (Script.bind_of_ok hcaptured).trans ?_
      rw [htime]
      cases time <;> rfl

/-- A missing executable of the capture leaves the sync. -/
theorem sync_of_missing (hskip : job.skipSync = false) {time : Option ℚ}
    (htime : w.syncTime = .ok time) (hmissing : w.ended job.captureCall = none) (s : Progress) :
    ∃ e, job.sync w.station s = .error e s := by
  have hmeasured : attempt w.station.measureSyncTime s = .ok time s :=
    attempt_of_ok (congrArg (·, s) htime)
  have hcapture : runAggregator w.station job.configPath job.client job.milestone "sync" false s =
      .error (.notFound (aggregatorArgv job.configPath job.client job.milestone "sync" false)) s :=
    Script.bind_of_error (runCmd_of_missing _ hmissing)
  have hraised : Script.suppress isCalledProcessError (runAggregator w.station job.configPath
      job.client job.milestone "sync" false) s =
      .error (.notFound (aggregatorArgv job.configPath job.client job.milestone "sync" false))
        s := by
    rw [Script.suppress, hcapture]
    rfl
  rw [Benchmark.sync, if_neg (by simp [hskip]), Script.bind_of_ok hmeasured]
  exact ⟨_, Script.bind_of_error hraised⟩

/-- The export never raises. -/
theorem exportDbSizeMetric_returns (size : Json) :
    exportDbSizeMetric w.station env set job.client size s = .ok ⟨⟩ s :=
  suppress_runCmd rfl fun _ => rfl

theorem attempt_writeSync (hwritten : w.writeSync = .ok ⟨⟩) (dir client : String)
    (payload : Json) :
    attempt (w.station.writeSyncMetrics dir client payload) s =
      .ok ⟨⟩ { s with syncMetrics := .holds payload } := by
  apply attempt_of_ok
  show (match w.writeSync with | .ok _ => _ | .error _ => _) = _
  rw [hwritten]

variable (env) in
/-- With the sync and the size at hand, the metrics are written and the measurements
end. -/
theorem measure_of_parts {v : Json × Json} {size : Json} (hwritten : w.writeSync = .ok ⟨⟩)
    (hsync : job.sync w.station s = .ok v s)
    (hsize : measureDbSize w.station numbers set job.client s = .ok size s) :
    job.measure w.station env numbers set s =
      .ok ⟨⟩ { s with
        syncMetrics := .holds (syncPayload job.client v.1 (fallBack size v.2)) } := by
  rw [Benchmark.measure, Script.bind_of_ok hsync]
  dsimp only
  rw [Script.bind_of_ok hsize, Script.bind_of_ok (attempt_writeSync hwritten _ _ _)]
  generalize fallBack size v.2 = dbSize
  cases dbSize with
  | null => rfl
  | _ => exact exportDbSizeMetric_returns _

/-- Starting the infrastructure leaves the sync metrics. -/
theorem syncMetrics_of_started
    (h : startInfrastructure w.station.toMachine env set job.client s = .ok ⟨⟩ t) :
    t.syncMetrics = s.syncMetrics := by
  have hspares : Spares w.station.toMachine fun t => t.syncMetrics = s.syncMetrics :=
    ⟨fun _ _ _ hs => hs, fun _ _ hs => hs, fun _ _ hs => hs, fun _ _ hs => hs, fun _ _ hs => hs,
      fun _ _ hs => hs⟩
  have hkeeps : Script.Keeps _ (startInfrastructure w.station.toMachine env set job.client) :=
    keeps_startInfrastructure hspares job.client
  have hend := hkeeps s rfl
  rw [h] at hend
  exact hend

/-- Measurements that return are followed by the load test. -/
theorem body_of_measure {u : Progress} (hready : w.Ready job env set s t)
    (hmeasure : job.measure w.station env numbers set t = .ok ⟨⟩ u) :
    job.body w.station env numbers set s = job.loadPart w.station env numbers set u := by
  have hup : awaitRpc w.station t = .ok true t :=
    attempt_of_ok (Prod.mk_inj.mpr ⟨hready.rpcUp, rfl⟩)
  rw [Benchmark.body, Script.bind_of_ok hready.started, Script.bind_of_ok hup, if_pos rfl,
    Script.bind_of_ok hmeasure]
  rfl

/-- The capture and the size are found wherever the run gets that far. -/
theorem carriesOn_iff : w.CarriesOn job env numbers set s ↔
    ∀ t, w.Ready job env set s t →
      (job.skipSync = false → w.ended job.captureCall ≠ none) ∧
        ∀ dir, Dict.get? set.dataDirs job.client = some dir → dir ≠ "" →
          w.ended (.diskUsage job.client dir) ≠ none := by
  apply Iff.intro
  · intro h t hready
    obtain ⟨u, hmeasure, -⟩ := h t hready
    rw [Benchmark.measure] at hmeasure
    obtain ⟨v, t', hsync, hrest⟩ := Script.bind_eq_ok_iff.mp hmeasure
    obtain ⟨size, t'', hsize, -⟩ := Script.bind_eq_ok_iff.mp hrest
    refine ⟨fun hskip hmissing => ?_, fun dir hdir hempty hmissing => ?_⟩
    · obtain ⟨time, htime⟩ := hready.synced hskip
      obtain ⟨e, hraised⟩ := sync_of_missing hskip htime hmissing t
      rw [hsync] at hraised
      cases hraised
    · obtain ⟨e, hraised⟩ := measureDbSize_of_missing numbers hdir hempty hmissing t'
      rw [hsize] at hraised
      cases hraised
  · intro h t hready
    obtain ⟨hcapture, hdisk⟩ := h t hready
    have hstart := syncMetrics_of_started hready.started
    have hsync : job.sync w.station t = .ok (w.syncResult job t) t :=
      sync_of_found hready.synced (by rw [hstart]; exact hready.reused) hcapture
    have hsize : measureDbSize w.station numbers set job.client t =
        .ok (w.measuredSize job numbers set) t := measureDbSize_of_found hdisk
    have hmeasure := measure_of_parts env hready.written hsync hsize
    refine ⟨_, hmeasure, ?_, body_of_measure hready hmeasure⟩
    rw [Trial.expectedPayload, Trial.syncResult, Trial.syncResult, hstart]

theorem steady_stops (n : ℕ) : Steady w.station fun s => s.stops = n where
  subprocess _ _ _ hs := hs
  makedirs _ _ hs := hs
  waitForRpc _ hs := hs
  measureSyncTime _ hs := hs
  writeSyncMetrics dir client payload s hs := by
    show (match w.writeSync with
      | .ok _ => (Except.ok PUnit.unit, { s with syncMetrics := .holds payload })
      | .error e => (.error e, s)).2.stops = n
    cases w.writeSync <;> exact hs

theorem spares_stops (n : ℕ) : Spares w.station.toMachine fun s => s.stops = n :=
  ⟨fun _ _ _ hs => hs, fun _ _ hs => hs, fun _ _ hs => hs, fun _ _ hs => hs, fun _ _ hs => hs,
    fun _ _ hs => hs⟩

/-- The body does not stop the infrastructure. -/
theorem stops_body (n : ℕ) : Script.Keeps (fun s => s.stops = n)
    (job.body w.station env numbers set) := by
  have hsteady : Steady w.station fun s => s.stops = n := steady_stops n
  rw [Benchmark.body]
  apply Script.Keeps.bind (keeps_startInfrastructure (spares_stops n) _)
  intro _
  apply Script.Keeps.bind hsteady.keeps_awaitRpc
  intro up
  split_ifs
  · apply Script.Keeps.bind (hsteady.keeps_measure job)
    intro _
    apply Script.Keeps.bind (hsteady.keeps_runLocustLoadTest fun _ _ hs => hs)
    intro _
    exact Script.Keeps.bind (keeps_runCmd (fun _ hs => hs) _) fun _ => Script.Keeps.pure _
  · exact fun s hs => hs

theorem stops_countedStop (s : Progress) :
    (Script.stateOf (w.countedStop env set s)).stops = s.stops + 1 :=
  keeps_stopInfrastructure (spares_stops (s.stops + 1)) { s with stops := s.stops + 1 } rfl

/-- The infrastructure is stopped as asked unless its directory cannot be made. -/
theorem stopsAsAsked_iff : w.StopsAsAsked job env numbers set s ↔
    (job.stopMonitoring = true → w.makedirs job.milestoneDir = .ok ⟨⟩) := by
  rw [Trial.StopsAsAsked, Benchmark.runStopping]
  cases hmakedirs : w.makedirs job.milestoneDir with
  | error e =>
      have hattempt : attempt (w.station.makedirs job.milestoneDir) s = .error e s :=
        attempt_of_error (congrArg (·, s) hmakedirs)
      rw [Script.bind_of_error hattempt]
      cases job.stopMonitoring <;> simp [Script.stateOf]
  | ok _ =>
      have hattempt : attempt (w.station.makedirs job.milestoneDir) s = .ok ⟨⟩ s :=
        attempt_of_ok (congrArg (·, s) hmakedirs)
      rw [Script.bind_of_ok hattempt, Script.stateOf_finallyDo]
      have hbody : (Script.stateOf (job.body w.station env numbers set s)).stops = s.stops :=
        stops_body s.stops s rfl
      cases job.stopMonitoring with
      | false => exact iff_of_true hbody fun h => by cases h
      | true =>
          refine iff_of_true ?_ fun _ => rfl
          rw [if_pos rfl, if_pos rfl, stops_countedStop, hbody]

/-- **A run goes on past its measurements and stops the infrastructure as asked exactly
where no executable is missing and the milestone's directory can be made.** -/
theorem run_unaborted_iff (w : Trial) (job : Benchmark) (env : PathEnv) (numbers : NumberText)
    (set : Settings) (s : Progress) :
    w.CarriesOn job env numbers set s ∧ w.StopsAsAsked job env numbers set s ↔
      w.NothingMissing job env set s :=
  and_congr carriesOn_iff stopsAsAsked_iff

/-- A node that runs beside Docker, which is not installed. -/
def withoutDocker : Trial where
  ended call := match call with | .diskUsage _ _ => none | _ => some ⟨0, ""⟩
  makedirs _ := .ok ⟨⟩
  popen := some 1
  terminate := .ok ⟨⟩
  wait := .ok ⟨⟩
  kill := .ok ⟨⟩
  rpcUp := .ok true
  syncTime := .ok none
  writeSync := .ok ⟨⟩
  seedState := .absent

/-- Its configuration, with a data directory. -/
def nativeSettings : Settings :=
  { managedSettings with manageInfra := false, dataDirs := [("nethermind", "/data")] }

def nativeJob : Benchmark where
  client := "nethermind"
  milestone := "v1"
  skipSync := false
  configPath := "config.yml"
  stopMonitoring := false
  failOnRegression := false

/-- The run ends where its database is to be measured. -/
theorem withoutDocker_aborts :
    withoutDocker.Ready nativeJob plainText nativeSettings ⟨none, .absent, 0⟩ ⟨none, .absent, 0⟩ ∧
      nativeJob.run withoutDocker.station plainText ⟨fun _ => none, fun _ => none⟩ nativeSettings
          ⟨none, .absent, 0⟩ =
        .error (.notFound ["docker", "exec", "benchmark_nethermind", "du", "-sb", "/data"])
          ⟨none, .absent, 0⟩ ∧
      ¬ ∀ (w : Trial) (job : Benchmark) (env : PathEnv) (numbers : NumberText) (set : Settings)
        (s : Progress),
        w.CarriesOn job env numbers set s ∧ w.StopsAsAsked job env numbers set s := by
  have hready : withoutDocker.Ready nativeJob plainText nativeSettings ⟨none, .absent, 0⟩
      ⟨none, .absent, 0⟩ := ⟨rfl, rfl, rfl, fun _ => ⟨none, rfl⟩, (fun h => by cases h), rfl⟩
  refine ⟨hready, rfl, fun hall => ?_⟩
  obtain ⟨u, hmeasure, -⟩ := (hall withoutDocker nativeJob plainText
    ⟨fun _ => none, fun _ => none⟩ nativeSettings ⟨none, .absent, 0⟩).1 _ hready
  cases hmeasure

end StateBenchmarks.Orchestrator
