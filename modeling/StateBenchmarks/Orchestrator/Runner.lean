/-
# A benchmark of one client

`run_benchmark_for_client` of `src/orchestrator/runner.py`: bring the node up,
time its sync, measure its database, put it under load, and have the aggregator
write the milestone's metrics.  Waiting for the RPC server and timing the sync
poll the node; the script takes them by what they return.
-/

import StateBenchmarks.Orchestrator.Infrastructure

namespace StateBenchmarks.Orchestrator

open Python Control

/-- Everything `run_benchmark_for_client` uses besides the commands it runs. -/
structure Workstation (σ : Type) extends Machine σ where
  makedirs : String → σ → Except Exn PUnit × σ
  /-- `wait_for_rpc`.  It raises what `rpc_probe` does not catch, as for an answer that
  is not an object. -/
  waitForRpc : σ → Except Exn Bool × σ
  /-- `measure_sync_time`. -/
  measureSyncTime : σ → Except Exn (Option ℚ) × σ
  /-- `sync_metrics_<client>.json` in a milestone's directory. -/
  syncMetrics : String → String → σ → JsonFile
  writeSyncMetrics : String → String → Json → σ → Except Exn PUnit × σ
  /-- `SEED_STATE_FILE`. -/
  seedState : σ → JsonFile

variable {σ : Type} (W : Workstation σ) (env : PathEnv) (numbers : NumberText) (set : Settings)

/-- Performing an operation that may raise. -/
def attempt {α : Type} (operation : σ → Except Exn α × σ) : Script Exn σ α := fun s =>
  match operation s with
  | (.ok a, s') => .ok a s'
  | (.error e, s') => .error e s'

theorem attempt_of_ok {α : Type} {operation : σ → Except Exn α × σ} {s t : σ} {a : α}
    (h : operation s = (.ok a, t)) : attempt operation s = .ok a t := by
  rw [attempt, h]

theorem attempt_of_error {α : Type} {operation : σ → Except Exn α × σ} {s t : σ} {e : Exn}
    (h : operation s = (.error e, t)) : attempt operation s = .error e t := by
  rw [attempt, h]

/-- Reading a file. -/
def observe {α : Type} (read : σ → Except Exn α) : Script Exn σ α := fun s =>
  Script.ofExcept (read s) s

/-- Waiting for the RPC server. -/
def awaitRpc : Script Exn σ Bool := attempt W.waitForRpc

/-- `int(result.stdout.split()[0])`. -/
def firstInt (stdout : String) : Except Exn ℤ :=
  match splitWords stdout with
  | [] => .error .indexError
  | word :: _ =>
      match numbers.int word with
      | some n => .ok n
      | none =>
          .error (.valueError
            [.text "invalid literal for int() with base 10: ", .repr (.str word)])

/-- `except (subprocess.CalledProcessError, ValueError, IndexError)`. -/
def isMeasurementError : Exn → Bool
  | .calledProcessError _ => true
  | .valueError _ => true
  | .indexError => true
  | _ => false

/-- `measure_db_size`, `None` as JSON's null. -/
def measureDbSize (client : String) : Script Exn σ Json :=
  match Dict.get? set.dataDirs client with
  | none => pure .null
  | some dir =>
      if dir = "" then pure .null
      else
        Script.handle
          (do
            let result ← runCmd W.toMachine (.diskUsage client dir)
              (set.finalCmd ["docker", "exec", "benchmark_" ++ client, "du", "-sb", dir])
            let size ← Script.ofExcept (firstInt numbers result.stdout)
            return .int size)
          (fun e => if isMeasurementError e then pure .null else throw e)

/-- `TEXTFILE_METRICS_DIR`. -/
def textfileMetricsDir : String := "docker/textfile_metrics"

/-- The script `export_db_size_metric` hands to the shell. -/
def exportScript (client size : String) : String :=
  let path := joinPath textfileMetricsDir "benchmark_db_size.prom"
  let content :=
    "# HELP benchmark_db_size_bytes Client database size measured by the orchestrator" ++
    " (du -sb of the nodes.data_dirs path).\n" ++
    "# TYPE benchmark_db_size_bytes gauge\n" ++
    "benchmark_db_size_bytes\x7bclient=\"" ++ client ++ "\"\x7d " ++ size ++ "\n"
  "mkdir -p " ++ shellQuote textfileMetricsDir ++ " && printf '%s' " ++ shellQuote content ++
    " > " ++ shellQuote (path ++ ".tmp") ++ " && mv " ++ shellQuote (path ++ ".tmp") ++ " " ++
    shellQuote path

/-- `except (subprocess.CalledProcessError, FileNotFoundError)`. -/
def isExportError : Exn → Bool
  | .calledProcessError _ => true
  | .fileNotFoundError _ => true
  | _ => false

/-- `export_db_size_metric`. -/
def exportDbSizeMetric (client : String) (size : Json) : Script Exn σ PUnit :=
  Script.suppress isExportError
    (runStep W.toMachine set (.exportDbSize client (env.str size))
      ["sh", "-c", exportScript client (env.str size)])

/-- The size measured, or else the one captured before. -/
def fallBack (measured previous : Json) : Json :=
  match measured with
  | .null => previous
  | size => size

/-- The payload of `write_sync_metrics`. -/
def syncPayload (client : String) (syncTime dbSize : Json) : Json :=
  .obj [("client", .str client), ("sync_time_sec", syncTime), ("db_size_bytes", dbSize)]

/-- The sync time and the database size of an existing snapshot. -/
def reusedSync (existing : JsonFile) : Except Exn (Json × Json) := do
  match existing with
  | .absent => return (.null, .null)
  | .unreadable => throw (.external "JSONDecodeError")
  | .holds prev =>
      let syncTime ← prev.get "sync_time_sec"
      let dbSize ← prev.get "db_size_bytes"
      return (syncTime, dbSize)

/-- `int(v)`. -/
def intOf (v : Json) : Except Exn ℤ :=
  match v with
  | .str text =>
      match numbers.int text with
      | some n => .ok n
      | none =>
          .error (.valueError [.text "invalid literal for int() with base 10: ", .repr v])
  | v =>
      match v.number? with
      | some q => .ok (q.num.tdiv q.den)
      | none => .error .typeError

/-- The words of `run_locust_load_test`. -/
def locustArgv (csvPrefix : String) : Except Exn (List String) := do
  let loadCfg ← set.config.getD "load_test" (.obj [])
  let users ← intOf numbers (← loadCfg.getD "users" (.int 20))
  let spawnRate ← intOf numbers (← loadCfg.getD "spawn_rate" (.int 10))
  let runTime ← loadCfg.getD "run_time" (.str "5m")
  return ["uv", "run", "locust", "-f", "src/load_tests/locustfile.py", "--headless",
    "-u", toString users, "-r", toString spawnRate, "--run-time", env.str runTime,
    "--host", set.rpcUrl, "--csv", csvPrefix]

/-- `load_seeded_addresses`; a file that cannot be used is passed over. -/
def loadSeededAddresses (seedState : JsonFile) : List Json :=
  match seedState with
  | .holds state =>
      match state.get "contract_address" with
      | .ok contract => if contract.truthy then [contract] else []
      | .error _ => []
  | _ => []

/-- The items of `",".join(seeded)`. -/
def addressTexts (seeded : List Json) : Except Exn (List String) :=
  seeded.mapM fun address =>
    match address with
    | .str text => .ok text
    | _ => .error .typeError

/-- `run_locust_load_test`. -/
def runLocustLoadTest (configPath milestoneDir client : String) : Script Exn σ PUnit := do
  let clientDir := joinPath milestoneDir client
  let argv ← Script.ofExcept (locustArgv env numbers set (joinPath clientDir "locust_stats"))
  attempt (W.makedirs clientDir)
  let addresses ← observe fun s => addressTexts (loadSeededAddresses (W.seedState s))
  let _ ← runCmd W.toMachine (.locust configPath milestoneDir client addresses) argv

/-- The words of `run_aggregator`. -/
def aggregatorArgv (configPath client milestone phase : String) (failOnRegression : Bool) :
    List String :=
  ["uv", "run", "python", "src/metrics/aggregator.py", "--config", configPath,
    "--client", client, "--milestone", milestone, "--phase", phase] ++
    if failOnRegression then ["--fail-on-regression"] else []

/-- `run_aggregator`. -/
def runAggregator (configPath client milestone phase : String) (failOnRegression : Bool) :
    Script Exn σ PUnit := do
  let _ ← runCmd W.toMachine (.aggregator client milestone phase failOnRegression)
    (aggregatorArgv configPath client milestone phase failOnRegression)

/-- The arguments of `run_benchmark_for_client`. -/
structure Benchmark where
  client : String
  milestone : String
  skipSync : Bool
  configPath : String
  stopMonitoring : Bool
  failOnRegression : Bool

namespace Benchmark

variable (job : Benchmark)

def milestoneDir : String := joinPath "benchmarks" job.milestone

/-- The sync: its time, and the database size of a sync that is skipped. -/
def sync : Script Exn σ (Json × Json) := do
  if job.skipSync then
    observe fun s => reusedSync (W.syncMetrics job.milestoneDir job.client s)
  else
    let syncTime ← attempt W.measureSyncTime
    Script.suppress isCalledProcessError
      (runAggregator W job.configPath job.client job.milestone "sync" false)
    return (match syncTime with | some t => .float t | none => .null, .null)

/-- From the sync to the load test. -/
def measure : Script Exn σ PUnit := do
  let (syncTime, prevDbSize) ← job.sync W
  let measured ← measureDbSize W numbers set job.client
  let dbSize := fallBack measured prevDbSize
  attempt (W.writeSyncMetrics job.milestoneDir job.client
    (syncPayload job.client syncTime dbSize))
  match dbSize with
  | .null => return ⟨⟩
  | size => exportDbSizeMetric W env set job.client size

/-- The body of the `try`. -/
def body : Script Exn σ PUnit := do
  startInfrastructure W.toMachine env set job.client
  let up ← awaitRpc W
  if up then
    job.measure W env numbers set
    runLocustLoadTest W env numbers set job.configPath job.milestoneDir job.client
    runAggregator W job.configPath job.client job.milestone "load" job.failOnRegression
  else
    throw (.runtimeError
      [.text "RPC for ", .str (.str job.client), .text " failed to come up within ",
        .str (.int set.rpcStartupTimeout), .text "s."])

/-- `run_benchmark_for_client`. -/
def run : Script Exn σ PUnit := do
  attempt (W.makedirs job.milestoneDir)
  Script.finallyDo (job.body W env numbers set)
    (if job.stopMonitoring then stopInfrastructure W.toMachine env set else return ⟨⟩)

end Benchmark

variable {P : σ → Prop}

theorem keeps_attempt {α : Type} {operation : σ → Except Exn α × σ}
    (h : ∀ s, P s → P (operation s).2) : Script.Keeps P (attempt operation) := by
  intro s hs
  have hstep := h s hs
  rw [attempt]
  rcases hperformed : operation s with ⟨_ | _, t⟩ <;> rw [hperformed] at hstep <;> exact hstep

theorem keeps_observe {α : Type} (read : σ → Except Exn α) : Script.Keeps P (observe read) :=
  fun s hs => Script.Keeps.ofExcept (read s) s hs

theorem keeps_exportDbSizeMetric {W : Workstation σ} {env : PathEnv} {set : Settings}
    {client : String} {size : Json}
    (h : ∀ s, P s → P (W.subprocess (.exportDbSize client (env.str size)) s).2) :
    Script.Keeps P (exportDbSizeMetric W env set client size) :=
  Script.Keeps.suppress (keeps_runStep h _)

/-- Locust, and the load phase of the aggregator. -/
def Call.isLoad : Call → Bool
  | .locust _ _ _ _ => true
  | .aggregator _ _ phase _ => phase == "load"
  | _ => false

/-- What a benchmark does, apart from the load test, keeps `P`. -/
structure Steady (W : Workstation σ) (P : σ → Prop) : Prop where
  subprocess : ∀ call, call.isLoad = false → ∀ s, P s → P (W.subprocess call s).2
  makedirs : ∀ path s, P s → P (W.makedirs path s).2
  waitForRpc : ∀ s, P s → P (W.waitForRpc s).2
  measureSyncTime : ∀ s, P s → P (W.measureSyncTime s).2
  writeSyncMetrics : ∀ dir client payload s, P s → P (W.writeSyncMetrics dir client payload s).2

namespace Steady

variable {W env numbers set}

theorem keeps_awaitRpc (h : Steady W P) : Script.Keeps P (awaitRpc W) :=
  keeps_attempt h.waitForRpc

theorem keeps_sync (h : Steady W P) (job : Benchmark) : Script.Keeps P (job.sync W) := by
  rw [Benchmark.sync]
  split_ifs
  · exact keeps_observe _
  · apply Script.Keeps.bind (keeps_attempt h.measureSyncTime)
    intro syncTime
    refine Script.Keeps.bind (Script.Keeps.suppress ?_) fun _ => Script.Keeps.pure _
    -- The sync phase of the aggregator is another command than the load phase.
    exact Script.Keeps.bind (keeps_runCmd (h.subprocess _ rfl) _) fun _ =>
      Script.Keeps.pure _

theorem keeps_measureDbSize (h : Steady W P) (client : String) :
    Script.Keeps P (measureDbSize W numbers set client) := by
  rw [measureDbSize]
  split
  · exact Script.Keeps.pure _
  · split_ifs
    · exact Script.Keeps.pure _
    · refine Script.Keeps.handle ?_ fun e => ?_
      · exact Script.Keeps.bind (keeps_runCmd (h.subprocess _ rfl) _) fun result =>
          Script.Keeps.bind (Script.Keeps.ofExcept _) fun _ => Script.Keeps.pure _
      · split_ifs
        · exact Script.Keeps.pure _
        · exact fun s hs => hs

theorem keeps_measure (h : Steady W P) (job : Benchmark) :
    Script.Keeps P (job.measure W env numbers set) := by
  rw [Benchmark.measure]
  refine Script.Keeps.bind (h.keeps_sync job) fun (syncTime, prevDbSize) => ?_
  apply Script.Keeps.bind (h.keeps_measureDbSize job.client)
  intro measured
  refine Script.Keeps.bind (keeps_attempt (h.writeSyncMetrics _ _ _)) fun _ => ?_
  split
  · exact Script.Keeps.pure _
  · exact keeps_exportDbSizeMetric (h.subprocess _ rfl)

theorem keeps_runLocustLoadTest (h : Steady W P) {configPath milestoneDir client : String}
    (hlocust : ∀ addresses s, P s →
      P (W.subprocess (.locust configPath milestoneDir client addresses) s).2) :
    Script.Keeps P
      (runLocustLoadTest W env numbers set configPath milestoneDir client) := by
  rw [runLocustLoadTest]
  refine Script.Keeps.bind (Script.Keeps.ofExcept _) fun argv => ?_
  apply Script.Keeps.bind (keeps_attempt (h.makedirs _))
  intro _
  refine Script.Keeps.bind (keeps_observe _) fun addresses => ?_
  exact Script.Keeps.bind (keeps_runCmd (hlocust addresses) _) fun _ => Script.Keeps.pure _

end Steady

end StateBenchmarks.Orchestrator
