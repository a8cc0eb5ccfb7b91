/-
# Recording a load test

`run_benchmark_for_client` puts the node under load and then has the aggregator
write down how it went.  The aggregator tolerates failed requests up to
`metrics.max_failure_ratio`, and marks a run with more of them.

Locust exits with an error as soon as one request failed, and the load test is
started with `check=True`.  The exception leaves `run_benchmark_for_client`
before the aggregator is invoked, so no run with a failed request is ever
recorded, tolerated or marked.
-/

import StateBenchmarks.Orchestrator.Runner
import StateBenchmarks.Metrics.Baseline

namespace StateBenchmarks.Orchestrator

open Python Control
open Metrics (CsvRow LoadRun LocustEntry failureRatio)

/-- What a benchmark meets: how the commands end, what Locust measures, and what
the aggregator is configured with and reads besides. -/
structure LoadTest where
  /-- How a command ends that is neither Locust nor the load phase. -/
  completed : Call → Completed
  makedirs : String → Except Exn PUnit
  popen : Option ℕ
  terminate : Except Exn PUnit
  wait : Except Exn PUnit
  kill : Except Exn PUnit
  rpcUp : Except Exn Bool
  syncTime : Except Exn (Option ℚ)
  seedState : JsonFile
  locustExit : ℤ
  stats : Option (List CsvRow)
  proofRows : Option (List CsvRow)
  config : Metrics.MetricsConfig
  answer : String → Option ℚ
  syncPhase : JsonFile
  numbers : NumberText
  timestamp : String
  listing : Metrics.Listing

/-- The commands run so far, and the files of the client under `benchmarks`. -/
structure Recording where
  calls : List Call
  proc : Option ℕ
  syncMetrics : JsonFile
  stats : Option (List CsvRow)
  proofRows : Option (List CsvRow)
  benchmarks : Metrics.Benchmarks

namespace LoadTest

variable (w : LoadTest)

/-- What the aggregator's load phase reads. -/
def loadRun (client milestone : String) (failOnRegression : Bool) (s : Recording) : LoadRun where
  client := client
  milestone := milestone
  failOnRegression := failOnRegression
  config := w.config
  answer := w.answer
  syncPhase := w.syncPhase
  syncMetrics := s.syncMetrics
  stats := s.stats
  proofRows := s.proofRows
  numbers := w.numbers
  timestamp := w.timestamp

/-- A command run: Locust leaves its statistics, the load phase of the aggregator
its metrics. -/
def subprocess (call : Call) (s : Recording) : Option Completed × Recording :=
  let logged := { s with calls := s.calls ++ [call] }
  match call with
  | .locust _ _ _ _ =>
      (some ⟨w.locustExit, ""⟩, { logged with stats := w.stats, proofRows := w.proofRows })
  | .aggregator client milestone phase failOnRegression =>
      if phase = "load" then
        let run := w.loadRun client milestone failOnRegression s
        (some ⟨Metrics.exitAfter run w.listing s.benchmarks.tree, ""⟩,
          { logged with benchmarks := s.benchmarks.after run w.listing })
      else (some (w.completed call), logged)
  | _ => (some (w.completed call), logged)

/-- The workstation of the benchmark. -/
def station : Workstation Recording where
  subprocess := w.subprocess
  proc s := s.proc
  setProc proc s := { s with proc := proc }
  popen _ s := (w.popen, s)
  terminate _ s := (w.terminate, s)
  wait _ s := (w.wait, s)
  kill _ s := (w.kill, s)
  makedirs path s := (w.makedirs path, s)
  waitForRpc s := (w.rpcUp, s)
  measureSyncTime s := (w.syncTime, s)
  syncMetrics _ _ s := s.syncMetrics
  writeSyncMetrics _ _ payload s := (.ok ⟨⟩, { s with syncMetrics := .holds payload })
  seedState _ := w.seedState

end LoadTest

/-- The command of the aggregator's load phase. -/
def Benchmark.loadCall (job : Benchmark) : Call :=
  .aggregator job.client job.milestone "load" job.failOnRegression

/-- A sync time as the runner writes it: a number of seconds or null. -/
def IsSyncTime (v : Json) : Prop := v = .null ∨ ∃ q, v = .float q

/-- A database size as the runner writes it: a number of bytes or null. -/
def IsDbSize (v : Json) : Prop := v = .null ∨ ∃ n, v = .int n

/-- A payload of `write_sync_metrics`. -/
def WrittenSync (v : Json) : Prop :=
  ∃ client syncTime dbSize, IsSyncTime syncTime ∧ IsDbSize dbSize ∧
    v = syncPayload client syncTime dbSize

/-- The load phase is invoked, and the milestone's file holds this load test: a
tolerated one as valid, any other as invalid with the failure ratio alone. -/
def Recorded (w : LoadTest) (job : Benchmark) (agg : LocustEntry) (s : Recording) : Prop :=
  let run := w.loadRun job.client job.milestone job.failOnRegression s
  job.loadCall ∈ s.calls ∧
    ∃ entry ∈ s.benchmarks.tree, ∃ report base, entry.name = job.milestone ∧
      entry.metrics = .holds (run.payload report) ∧ report.rpc.aggregate = some agg ∧
      run.beforeLocust = .ok (base, report.stateSize) ∧
      (failureRatio agg ≤ w.config.maxFailureRatio → report.loadTestValid = true) ∧
      (w.config.maxFailureRatio < failureRatio agg → report.loadTestValid = false ∧
        report.metrics = LoadRun.mergeProof
          (Dict.update base [("rpc_failure_ratio", .float (failureRatio agg))])
          report.proofSizes)

variable {w : LoadTest} {job : Benchmark} {env : PathEnv} {set : Settings}
  {agg : LocustEntry} {P : Recording → Prop}

/-- Everything but Locust and the aggregator's load phase does its part, on files
that the runner and the aggregator wrote. -/
structure Succeeds (w : LoadTest) (job : Benchmark) (env : PathEnv) (set : Settings)
    (s : Recording) : Prop where
  fresh : s.calls = []
  makedirs : ∀ path, w.makedirs path = .ok ⟨⟩
  /-- Nothing but a directory is in the milestone's place. -/
  directory : ∃ tree, Metrics.Tree.makeDir s.benchmarks.tree job.milestone = .ok tree
  started : ∃ t, startInfrastructure w.station.toMachine env set job.client s = .ok ⟨⟩ t
  rpcUp : w.rpcUp = .ok true
  synced : ∃ syncTime, w.syncTime = .ok syncTime
  /-- A snapshot that a skipped sync reuses was written by the runner. -/
  reused : job.skipSync = true →
    s.syncMetrics = .absent ∨ ∃ v, WrittenSync v ∧ s.syncMetrics = .holds v
  locustArgv : ∃ argv, locustArgv env w.numbers set
    (joinPath (joinPath job.milestoneDir job.client) "locust_stats") = .ok argv
  addresses : ∃ texts, addressTexts (loadSeededAddresses w.seedState) = .ok texts
  /-- No row of the proof sizes ends before its size. -/
  proofs : ∀ row ∈ w.proofRows.getD [], Dict.get? row "response_bytes" ≠ some none

/-- The steps other than Locust and the load phase keep `P`. -/
structure Bystander (job : Benchmark) (P : Recording → Prop) : Prop where
  log : ∀ call, call ≠ job.loadCall → ∀ s, P s → P { s with calls := s.calls ++ [call] }
  proc : ∀ proc s, P s → P { s with proc := proc }
  sync : ∀ payload s, P s → P { s with syncMetrics := .holds payload }

/-- The infrastructure logs its commands and sets its driver. -/
theorem spares_station
    (hlog : ∀ call, call.isInfrastructure = true → ∀ s, P s →
      P { s with calls := s.calls ++ [call] })
    (hproc : ∀ proc s, P s → P { s with proc := proc }) :
    Spares w.station.toMachine P where
  subprocess call hcall s hs := by
    have hlogged := hlog call hcall s hs
    cases call <;> first | exact hlogged | cases hcall
  setProc := hproc
  popen _ _ hs := hs
  terminate _ _ hs := hs
  wait _ _ hs := hs
  kill _ _ hs := hs

theorem Bystander.spares (h : Bystander job P) : Spares w.station.toMachine P := by
  refine spares_station (fun call hcall s hs => h.log call ?_ s hs) h.proc
  rintro rfl
  cases hcall

theorem Succeeds.attempt_makedirs {s : Recording} (h : Succeeds w job env set s) (path : String)
    (t : Recording) : attempt (w.station.makedirs path) t = .ok ⟨⟩ t :=
  attempt_of_ok (Prod.ext (h.makedirs path) rfl)

theorem Bystander.steady (h : Bystander job P) : Steady w.station P where
  subprocess call hcall s hs := by
    have hlogged := h.log call (fun heq => by rw [heq] at hcall; cases hcall) s hs
    show P (w.subprocess call s).2
    cases call with
    | locust => cases hcall
    | aggregator client milestone phase failOnRegression =>
        rw [LoadTest.subprocess]
        dsimp only
        rw [if_neg (beq_eq_false_iff_ne.mp hcall)]
        exact hlogged
    | _ => exact hlogged
  makedirs _ _ hs := hs
  waitForRpc _ hs := hs
  measureSyncTime _ hs := hs
  writeSyncMetrics _ _ payload s hs := h.sync payload s hs

theorem bystander_unlogged (job : Benchmark) :
    Bystander job fun s => job.loadCall ∉ s.calls where
  log call hcall s hs hmem := by
    rcases List.mem_append.mp hmem with hold | hnew
    · exact hs hold
    · exact hcall (List.mem_singleton.mp hnew).symm
  proc _ _ hs := hs
  sync _ _ hs := hs

/-- The load test raises when Locust exits with an error. -/
theorem raises_runLocustLoadTest (hexit : w.locustExit ≠ 0)
    (configPath milestoneDir client : String) :
    Script.Raises
      (runLocustLoadTest w.station env w.numbers set configPath milestoneDir client) := by
  rw [runLocustLoadTest]
  refine Script.Raises.after _ fun argv => Script.Raises.after _ fun _ =>
    Script.Raises.after _ fun addresses => Script.Raises.bind (fun s => ?_) _
  rw [runCmd]
  exact ⟨_, _, if_neg hexit⟩

/-- When Locust exits with an error, the load phase is never invoked. -/
theorem unlogged_of_locustExit (hexit : w.locustExit ≠ 0) {s : Recording}
    (hfresh : job.loadCall ∉ s.calls) :
    job.loadCall ∉ (Script.stateOf (job.run w.station env w.numbers set s)).calls := by
  have hbystander := bystander_unlogged job
  have hlocust : Script.Keeps (fun s => job.loadCall ∉ s.calls)
      (runLocustLoadTest w.station env w.numbers set job.configPath job.milestoneDir job.client) :=
    hbystander.steady.keeps_runLocustLoadTest fun addresses s hs =>
      hbystander.log (.locust job.configPath job.milestoneDir job.client addresses) nofun s hs
  have hbody : Script.Keeps (fun s => job.loadCall ∉ s.calls)
      (job.body w.station env w.numbers set) := by
    rw [Benchmark.body]
    apply Script.Keeps.bind (keeps_startInfrastructure hbystander.spares _)
    intro _
    have hup : Script.Keeps (fun s => job.loadCall ∉ s.calls) (awaitRpc w.station) :=
      keeps_attempt fun _ hs => hs
    apply Script.Keeps.bind hup
    intro up
    split_ifs
    · apply Script.Keeps.bind (hbystander.steady.keeps_measure job)
      intro _
      exact Script.Keeps.bind_of_raises hlocust (raises_runLocustLoadTest hexit _ _ _)
    · exact fun s hs => hs
  have hstop : Script.Keeps (fun s => job.loadCall ∉ s.calls)
      (if job.stopMonitoring then stopInfrastructure w.station.toMachine env set
        else return ⟨⟩) := by
    split_ifs
    · exact keeps_stopInfrastructure hbystander.spares
    · exact Script.Keeps.pure _
  have hrun : Script.Keeps (fun s => job.loadCall ∉ s.calls)
      (job.run w.station env w.numbers set) :=
    Script.Keeps.bind (keeps_attempt fun _ hs => hs) fun _ => Script.Keeps.finallyDo hbody hstop
  exact hrun s hfresh

/-! ## The steps before the load test return -/

/-- Every command is found. -/
theorem LoadTest.subprocess_found (call : Call) (s : Recording) :
    ∃ completed, (w.subprocess call s).1 = some completed := by
  cases call with
  | aggregator client milestone phase failOnRegression =>
      rw [LoadTest.subprocess]
      dsimp only
      split_ifs <;> exact ⟨_, rfl⟩
  | _ => exact ⟨_, rfl⟩

theorem error_of_runCmd {call : Call} {argv : List String} {s t : Recording} {e : Exn}
    (h : runCmd w.station.toMachine call argv s = .error e t) : e = .calledProcessError argv := by
  obtain ⟨completed, hfound⟩ := w.subprocess_found call s
  have hpair : w.station.subprocess call s = (some completed, (w.subprocess call s).2) :=
    Prod.ext hfound rfl
  rw [runCmd, hpair] at h
  dsimp only at h
  split_ifs at h
  cases h
  rfl

theorem error_of_firstInt {numbers : NumberText} {stdout : String} {e : Exn}
    (h : firstInt numbers stdout = .error e) : isMeasurementError e = true := by
  rw [firstInt] at h
  split at h
  · cases h
    rfl
  · split at h <;> cases h
    rfl

theorem returns_measureDbSize (client : String) (s : Recording) :
    Script.Returns (measureDbSize w.station w.numbers set client) s fun v _ => IsDbSize v := by
  rw [measureDbSize]
  split
  · exact Script.Returns.pure (Or.inl rfl)
  · split_ifs
    · exact Script.Returns.pure (Or.inl rfl)
    · refine Script.Returns.handle (fun a t h => ?_) fun e t h => ?_
      · obtain ⟨result, t', -, hrest⟩ := Script.bind_eq_ok_iff.mp h
        obtain ⟨size, t'', -, hsize⟩ := Script.bind_eq_ok_iff.mp hrest
        cases hsize
        exact Or.inr ⟨size, rfl⟩
      · have hcaught : isMeasurementError e = true := by
          rcases Script.bind_eq_error_iff.mp h with hrun | ⟨result, t', -, hrest⟩
          · rw [error_of_runCmd hrun]
            rfl
          · rcases Script.bind_eq_error_iff.mp hrest with hint | ⟨size, t'', -, hpure⟩
            · cases hfirst : firstInt w.numbers result.stdout with
              | ok size =>
                  rw [hfirst] at hint
                  cases hint
              | error e' =>
                  rw [hfirst] at hint
                  cases hint
                  exact error_of_firstInt hfirst
            · cases hpure
        rw [if_pos hcaught]
        exact Script.Returns.pure (Or.inl rfl)

/-- A command whose failure is suppressed returns. -/
theorem returns_suppressed {handled : Exn → Bool}
    (hhandled : ∀ argv, handled (.calledProcessError argv) = true) (call : Call)
    (argv : List String) (s : Recording) :
    Script.Returns (Script.suppress handled (do
      let _ ← runCmd w.station.toMachine call argv)) s fun _ _ => True := by
  apply Script.Returns.suppress
  intro e t h
  rcases Script.bind_eq_error_iff.mp h with hrun | ⟨_, _, -, hpure⟩
  · rw [error_of_runCmd hrun]
    exact hhandled argv
  · cases hpure

theorem returns_runAggregator_sync (s : Recording) :
    Script.Returns (Script.suppress isCalledProcessError (runAggregator w.station job.configPath
      job.client job.milestone "sync" false)) s fun _ _ => True :=
  returns_suppressed (fun _ => rfl) _ _ s

theorem returns_exportDbSizeMetric (client : String) (size : Json) (s : Recording) :
    Script.Returns (exportDbSizeMetric w.station env set client size) s fun _ _ => True :=
  returns_suppressed (fun _ => rfl) _ _ s

/-- The sync returns a time and a size as the runner writes them. -/
theorem returns_sync {s t : Recording} (h : Succeeds w job env set s)
    (ht : t.syncMetrics = s.syncMetrics) :
    Script.Returns (job.sync w.station) t fun v _ => IsSyncTime v.1 ∧ IsDbSize v.2 := by
  rw [Benchmark.sync]
  split_ifs with hskip
  · have hreused : ∃ v, reusedSync t.syncMetrics = .ok v ∧ IsSyncTime v.1 ∧ IsDbSize v.2 := by
      rw [ht]
      rcases h.reused hskip with habsent | ⟨_, ⟨client, syncTime, dbSize, htime, hsize, rfl⟩, hv⟩
      · rw [habsent]
        exact ⟨_, rfl, Or.inl rfl, Or.inl rfl⟩
      · rw [hv]
        exact ⟨(syncTime, dbSize), rfl, htime, hsize⟩
    obtain ⟨v, hv, hwritten⟩ := hreused
    exact Script.Returns.ofExcept hv hwritten
  · obtain ⟨syncTime, hsyncTime⟩ := h.synced
    have hmeasured : Script.Returns (attempt w.station.measureSyncTime) t
        fun v _ => v = syncTime :=
      ⟨syncTime, t, attempt_of_ok (Prod.ext hsyncTime rfl), rfl⟩
    apply Script.Returns.bind hmeasured
    intro v t' _
    apply Script.Returns.bind (returns_runAggregator_sync t')
    intro _ t'' _
    refine Script.Returns.pure ⟨?_, Or.inl rfl⟩
    cases v with
    | none => exact Or.inl rfl
    | some q => exact Or.inr ⟨q, rfl⟩

/-- The steps before the load test return, with the sync metrics written. -/
theorem returns_measure {s t : Recording} (h : Succeeds w job env set s)
    (ht : t.syncMetrics = s.syncMetrics) :
    Script.Returns (job.measure w.station env w.numbers set) t
      fun _ u => ∃ v, WrittenSync v ∧ u.syncMetrics = .holds v := by
  rw [Benchmark.measure]
  apply Script.Returns.bind (returns_sync h ht)
  rintro ⟨syncTime, prevDbSize⟩ t₁ hsync
  apply Script.Returns.bind (returns_measureDbSize job.client t₁)
  intro measured t₂ hmeasured
  have hsize : IsDbSize (fallBack measured prevDbSize) := by
    rcases hmeasured with rfl | ⟨n, rfl⟩
    · exact hsync.2
    · exact Or.inr ⟨n, rfl⟩
  generalize fallBack measured prevDbSize = dbSize at hsize ⊢
  have hwritten : WrittenSync (syncPayload job.client syncTime dbSize) :=
    ⟨job.client, syncTime, dbSize, hsync.1, hsize, rfl⟩
  dsimp only
  have hwrite : Script.Returns (attempt (w.station.writeSyncMetrics job.milestoneDir job.client
      (syncPayload job.client syncTime dbSize))) t₂
      fun _ u => u.syncMetrics = .holds (syncPayload job.client syncTime dbSize) :=
    ⟨⟨⟩, _, attempt_of_ok rfl, rfl⟩
  apply Script.Returns.bind hwrite
  intro _ t₃ ht₃
  split
  · exact Script.Returns.pure ⟨_, hwritten, ht₃⟩
  · have hkeeps : Script.Keeps
        (fun u => u.syncMetrics = .holds (syncPayload job.client syncTime dbSize))
        (exportDbSizeMetric w.station env set job.client dbSize) :=
      keeps_exportDbSizeMetric fun s hs => hs
    obtain ⟨_, u, hexport, -, hu⟩ :=
      (returns_exportDbSizeMetric job.client dbSize t₃).keeping hkeeps ht₃
    exact ⟨⟨⟩, u, hexport, _, hwritten, hu⟩

/-- A load test without an error returns and leaves its statistics. -/
theorem returns_runLocustLoadTest {s : Recording} (h : Succeeds w job env set s)
    (hexit : w.locustExit = 0) (t : Recording) :
    Script.Returns (runLocustLoadTest w.station env w.numbers set job.configPath
        job.milestoneDir job.client) t
      fun _ u => u.stats = w.stats ∧ u.proofRows = w.proofRows ∧
        u.syncMetrics = t.syncMetrics ∧ u.benchmarks = t.benchmarks := by
  obtain ⟨argv, hargv⟩ := h.locustArgv
  obtain ⟨texts, htexts⟩ := h.addresses
  have hlocust : runCmd w.station.toMachine
      (.locust job.configPath job.milestoneDir job.client texts) argv t =
      .ok ⟨w.locustExit, ""⟩ { t with
        calls := t.calls ++ [.locust job.configPath job.milestoneDir job.client texts]
        stats := w.stats
        proofRows := w.proofRows } := by
    rw [runCmd]
    exact if_pos hexit
  have hreturned : runLocustLoadTest w.station env w.numbers set job.configPath
      job.milestoneDir job.client t =
      .ok ⟨⟩ { t with
        calls := t.calls ++ [.locust job.configPath job.milestoneDir job.client texts]
        stats := w.stats
        proofRows := w.proofRows } := by
    rw [runLocustLoadTest]
    apply (Script.ofExcept_bind hargv).trans
    apply (Script.bind_of_ok (h.attempt_makedirs _ t)).trans
    apply (Script.ofExcept_bind htexts).trans
    exact Script.bind_of_ok hlocust
  exact ⟨⟨⟩, _, hreturned, rfl, rfl, rfl, rfl⟩

/-- What the runner writes about the sync, the aggregator can merge. -/
theorem beforeLocust_isOk {run : LoadRun} {v : Json} (hv : WrittenSync v)
    (hrun : run.syncMetrics = .holds v) : ∃ before, run.beforeLocust = .ok before := by
  obtain ⟨client, syncTime, dbSize, htime, -, rfl⟩ := hv
  rw [LoadRun.beforeLocust, LoadRun.mergeSync, LoadRun.loadSyncMetrics, hrun]
  rcases htime with rfl | ⟨q, rfl⟩ <;> exact ⟨_, rfl⟩

/-- The load phase is called, and leaves what it writes among the milestones. -/
theorem stateOf_runAggregator (u : Recording) :
    Script.stateOf (runAggregator w.station job.configPath job.client job.milestone "load"
        job.failOnRegression u) =
      { u with
        calls := u.calls ++ [job.loadCall]
        benchmarks := u.benchmarks.after
          (w.loadRun job.client job.milestone job.failOnRegression u) w.listing } := by
  rw [runAggregator]
  refine Script.Keeps.after (P := fun t => t = _) ?_ fun _ => Script.Keeps.pure _
  rw [stateOf_runCmd]
  show (w.subprocess (.aggregator job.client job.milestone "load" job.failOnRegression) u).2 = _
  rw [LoadTest.subprocess]
  dsimp only
  rw [if_pos rfl]
  rfl

/-- On the statistics of the load test the load phase records it. -/
theorem recorded_runAggregator {per : Dict LocustEntry} {u : Recording}
    (hparse : Metrics.parseLocustStats w.numbers w.stats = .ok ⟨some agg, per⟩)
    (hproofs : ∀ row ∈ w.proofRows.getD [], Dict.get? row "response_bytes" ≠ some none)
    (hdirectory : ∃ tree, Metrics.Tree.makeDir u.benchmarks.tree job.milestone = .ok tree)
    (hsync : ∃ v, WrittenSync v ∧ u.syncMetrics = .holds v)
    (hstats : u.stats = w.stats) (hproofRows : u.proofRows = w.proofRows) :
    Recorded w job agg (Script.stateOf (runAggregator w.station job.configPath job.client
      job.milestone "load" job.failOnRegression u)) := by
  obtain ⟨tree, hmake⟩ := hdirectory
  obtain ⟨v, hv, hholds⟩ := hsync
  obtain ⟨proof, hproof⟩ : ∃ proof, Metrics.parseProofSizes w.numbers w.proofRows = .ok proof :=
    Metrics.parseProofSizes_isOk hproofs
  let run := w.loadRun job.client job.milestone job.failOnRegression u
  obtain ⟨before, hbefore⟩ : ∃ before, run.beforeLocust = .ok before :=
    beforeLocust_isOk hv hholds
  have hparse' : Metrics.parseLocustStats run.numbers run.stats = .ok ⟨some agg, per⟩ := by
    rw [← hparse, ← hstats]
    rfl
  have hproof' : Metrics.parseProofSizes run.numbers run.proofRows = .ok proof := by
    rw [← hproof, ← hproofRows]
    rfl
  obtain ⟨measured, hmeasured⟩ := Metrics.measured_isOk hbefore hparse' hproof'
  obtain ⟨report, hreport⟩ := Metrics.mainLoad_isOk u.benchmarks w.listing hmake hmeasured
  obtain ⟨entry, hentry, hname, hmetrics⟩ := Metrics.mem_treeAfter hmake hreport
  obtain ⟨hparsed, base, hbase, hvalid, hmerged⟩ := Metrics.mainLoad_spec hreport
  have hagg : report.rpc.aggregate = some agg := by
    rw [← Except.ok.inj (hparse'.symm.trans hparsed)]
  rw [stateOf_runAggregator]
  refine ⟨List.mem_append_right _ List.mem_cons_self, entry, hentry, report, base, hname,
    hmetrics, hagg, hbase, fun hle => ?_, fun hlt => ?_⟩
  · exact hvalid.trans (Metrics.mergeLocust_of_le hagg hle)
  · have hlow : run.config.maxFailureRatio < failureRatio agg := hlt
    have hgated : run.mergeLocust base report.rpc =
        (Dict.update base [("rpc_failure_ratio", .float (failureRatio agg))], false) :=
      Metrics.mergeLocust_of_lt hagg hlow
    rw [hgated] at hvalid hmerged
    exact ⟨hvalid, hmerged⟩

/-- Stopping the infrastructure leaves the record. -/
theorem keeps_recorded : Script.Keeps (Recorded w job agg)
    (if job.stopMonitoring then stopInfrastructure w.station.toMachine env set
      else return ⟨⟩) := by
  have hspares : Spares w.station.toMachine (Recorded w job agg) :=
    spares_station
      (fun _ _ _ hs => ⟨List.mem_append_left _ hs.1, hs.2⟩)
      (fun _ _ hs => hs)
  split_ifs
  · exact keeps_stopInfrastructure hspares
  · exact Script.Keeps.pure _

/-- A benchmark whose load test met no failed request is recorded. -/
theorem recorded_of_locustExit {per : Dict LocustEntry} {s : Recording}
    (h : Succeeds w job env set s)
    (hparse : Metrics.parseLocustStats w.numbers w.stats = .ok ⟨some agg, per⟩)
    (hexit : w.locustExit = 0) :
    Recorded w job agg (Script.stateOf (job.run w.station env w.numbers set s)) := by
  rw [Benchmark.run, Script.bind_of_ok (h.attempt_makedirs _ s)]
  refine Script.Keeps.afterBody ?_ keeps_recorded
  rw [Benchmark.body]
  have hstarted : Script.Returns (startInfrastructure w.station.toMachine env set job.client) s
      fun _ t => t.syncMetrics = s.syncMetrics ∧ t.benchmarks = s.benchmarks := by
    obtain ⟨t, hstart⟩ := h.started
    have hreturns : Script.Returns (startInfrastructure w.station.toMachine env set job.client) s
        fun _ _ => True := ⟨⟨⟩, t, hstart, trivial⟩
    have hspares : Spares w.station.toMachine
        fun t => t.syncMetrics = s.syncMetrics ∧ t.benchmarks = s.benchmarks :=
      spares_station (fun _ _ _ hs => hs) (fun _ _ hs => hs)
    obtain ⟨_, t', hstart', -, ht'⟩ :=
      hreturns.keeping (keeps_startInfrastructure hspares job.client) ⟨rfl, rfl⟩
    exact ⟨⟨⟩, t', hstart', ht'⟩
  apply hstarted.after
  intro _ t ht
  have hup : Script.Returns (awaitRpc w.station) t fun up u => up = true ∧ u = t :=
    ⟨true, t, attempt_of_ok (Prod.mk_inj.mpr ⟨h.rpcUp, rfl⟩), rfl, rfl⟩
  apply hup.after
  rintro _ _ ⟨rfl, rfl⟩
  rw [if_pos rfl]
  -- The sync metrics are written while the milestones' files stay as they are.
  have hfiles : Bystander job fun u => u.benchmarks = s.benchmarks :=
    ⟨fun _ _ _ hu => hu, fun _ _ hu => hu, fun _ _ hu => hu⟩
  have hmeasured := (returns_measure h ht.1).keeping (hfiles.steady.keeps_measure job) ht.2
  apply hmeasured.after
  intro _ u hu
  apply (returns_runLocustLoadTest h hexit u).after
  intro _ v hv
  obtain ⟨hstats, hproofRows, hsync, hbenchmarks⟩ := hv
  refine recorded_runAggregator hparse h.proofs ?_ ?_ hstats hproofRows
  · rw [hbenchmarks, hu.2]
    exact h.directory
  · rw [hsync]
    exact hu.1

/-- **A load test is recorded exactly when none of its requests failed.** -/
theorem run_recorded_iff {per : Dict LocustEntry} {s : Recording}
    (h : Succeeds w job env set s)
    (hparse : Metrics.parseLocustStats w.numbers w.stats = .ok ⟨some agg, per⟩)
    (hfailures : 0 ≤ agg.failureCount)
    (hexit : w.locustExit ≠ 0 ↔ 0 < agg.failureCount) :
    Recorded w job agg (Script.stateOf (job.run w.station env w.numbers set s)) ↔
      agg.failureCount = 0 := by
  constructor
  · intro hrecorded
    by_contra hfailed
    have hraised : w.locustExit ≠ 0 := hexit.mpr (lt_of_le_of_ne hfailures (Ne.symm hfailed))
    have hfresh : job.loadCall ∉ s.calls := by
      rw [h.fresh]
      exact List.not_mem_nil
    exact unlogged_of_locustExit hraised hfresh hrecorded.1
  · intro hnone
    have hreturned : w.locustExit = 0 := by
      by_contra hne
      exact (hexit.mp hne).ne' hnone
    exact recorded_of_locustExit h hparse hreturned

/-- Locust's aggregate row of a hundred requests. -/
def hundredRequests (failures : String) : CsvRow :=
  [("Name", some "Aggregated"), ("50%", some "2"), ("95%", some "2"), ("99%", some "2"),
    ("Average Response Time", some "2"), ("Requests/s", some "2"),
    ("Request Count", some "100"), ("Failure Count", some failures)]

def hundredEntry (failures : ℤ) : LocustEntry := ⟨2, 2, 2, 2, 2, 100, failures, 0⟩

/-- A load test of a hundred requests in which everything else succeeds. -/
def hundredTest (locustExit : ℤ) (failures : String) : LoadTest where
  completed _ := ⟨0, ""⟩
  makedirs _ := .ok ⟨⟩
  popen := some 1
  terminate := .ok ⟨⟩
  wait := .ok ⟨⟩
  kill := .ok ⟨⟩
  rpcUp := .ok true
  syncTime := .ok none
  seedState := .absent
  locustExit := locustExit
  stats := some [hundredRequests failures]
  proofRows := none
  config := { queries := [], clientQueries := [], loadWindow := "5m", higherIsBetter := [] }
  answer _ := none
  syncPhase := .absent
  numbers :=
    { float := fun s => if s = "2" then some 2 else none
      int := fun s => if s = "100" then some 100 else if s = "1" then some 1
        else if s = "0" then some 0 else none }
  timestamp := "2026-01-01T00:00:00+00:00"
  listing := Metrics.asListed

def firstJob : Benchmark where
  client := "nethermind"
  milestone := "v1"
  skipSync := false
  configPath := "config.yml"
  stopMonitoring := false
  failOnRegression := false

def plainPaths : PathEnv := ⟨fun v => match v with | .str s => s | _ => "", fun p => p⟩

def plainSettings : Settings where
  rpcUrl := "http://localhost:8545"
  sshPrefix := none
  manageInfra := true
  monitoringCompose := "docker/docker-compose.monitoring.yml"
  clientsCompose := "docker/docker-compose.clients.yml"
  composeCommand := ["docker", "compose"]
  envFileExists := false
  consensusMode := "none"
  mockCl := .obj []
  stopTimeoutSec := 600
  overlay := .null
  configPath := "config.yml"
  dataDirs := []
  config := .obj []
  rpcStartupTimeout := 300

def nothingRun : Recording := ⟨[], none, .absent, none, none, Metrics.noMilestones⟩

theorem hundredTest_succeeds (locustExit : ℤ) (failures : String) :
    Succeeds (hundredTest locustExit failures) firstJob plainPaths plainSettings nothingRun where
  fresh := rfl
  makedirs _ := rfl
  directory := ⟨_, rfl⟩
  started := ⟨_, rfl⟩
  rpcUp := rfl
  synced := ⟨_, rfl⟩
  reused := nofun
  locustArgv := ⟨_, rfl⟩
  addresses := ⟨_, rfl⟩
  proofs := nofun

/-- One failure in a hundred is tolerated, and is not recorded. -/
theorem oneFailure_not_recorded :
    Succeeds (hundredTest 1 "1") firstJob plainPaths plainSettings nothingRun ∧
      Metrics.parseLocustStats (hundredTest 1 "1").numbers (hundredTest 1 "1").stats =
        .ok ⟨some (hundredEntry 1), []⟩ ∧
      0 ≤ failureRatio (hundredEntry 1) ∧
      failureRatio (hundredEntry 1) ≤ (hundredTest 1 "1").config.maxFailureRatio ∧
      ¬ Recorded (hundredTest 1 "1") firstJob (hundredEntry 1)
        (Script.stateOf (firstJob.run (hundredTest 1 "1").station plainPaths
          (hundredTest 1 "1").numbers plainSettings nothingRun)) := by
  have hratio : failureRatio (hundredEntry 1) = 1 / 100 := by
    norm_num [failureRatio, hundredEntry]
  have htolerated : (hundredTest 1 "1").config.maxFailureRatio = 1 / 10 := rfl
  refine ⟨hundredTest_succeeds 1 "1", rfl, ?_, ?_, fun h => ?_⟩
  · rw [hratio]
    norm_num
  · rw [hratio, htolerated]
    norm_num
  · exact unlogged_of_locustExit (by decide) List.not_mem_nil h.1

/-- Without a failure it is. -/
theorem noFailure_recorded :
    Recorded (hundredTest 0 "0") firstJob (hundredEntry 0)
      (Script.stateOf (firstJob.run (hundredTest 0 "0").station plainPaths
        (hundredTest 0 "0").numbers plainSettings nothingRun)) :=
  (run_recorded_iff (hundredTest_succeeds 0 "0") rfl (by decide)
    (by decide)).mpr rfl

end StateBenchmarks.Orchestrator
