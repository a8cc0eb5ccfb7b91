/-
# Where a metric comes from

The aggregator runs twice for a benchmark.  Right after the sync, `--phase sync` writes
what Prometheus answers to a file; after the load test the other phase asks again, merges
that file under `sync_` names, and goes on with what the runner, Locust and the proof sizes
say.  All of it ends up in one flat dictionary.

The queries are named by the configuration, so two sources may have a metric of one name.
Each source goes over what the earlier ones left, and this is all there is to it: a
metric is that of the last source that has one of its name.
-/

import StateBenchmarks.Metrics.Aggregator
import StateBenchmarks.Python.JsonRoundTrip

namespace StateBenchmarks.Metrics

open Python

/-- What Prometheus answers, under the names of the queries. -/
def answered (answer : String → Option ℚ) (client window : String) (queries : Dict String) :
    Dict Json :=
  queries.filterMap fun (name, template) =>
    (answer (renderQuery template client window)).map fun value => (name, .float value)

/-- The names of the queries it does not answer. -/
def unanswered (answer : String → Option ℚ) (client window : String) (queries : Dict String) :
    List String :=
  (queries.filter fun (_, template) =>
    (answer (renderQuery template client window)).isNone).map Prod.fst

theorem gatherPrometheusMetrics_eq (answer : String → Option ℚ) (client window : String)
    (queries clientQueries : Dict String) :
    gatherPrometheusMetrics answer client window queries clientQueries =
      (Dict.update [] (answered answer client window (queries ++ clientQueries)),
        unanswered answer client window (queries ++ clientQueries)) := by
  rw [gatherPrometheusMetrics]
  generalize queries ++ clientQueries = all
  induction all using List.reverseRecOn with
  | nil => rfl
  | append_singleton all query ih =>
      obtain ⟨name, template⟩ := query
      rw [List.foldl_append, ih, List.foldl_cons, List.foldl_nil]
      cases hanswer : answer (renderQuery template client window) with
      | none => simp [answered, unanswered, hanswer]
      | some value => simp [answered, unanswered, hanswer, Dict.update]

/-- Keys of the snapshot of the sync phase. -/
def syncNames (fields : Dict Json) : Dict Json := fields.map fun (name, v) => ("sync_" ++ name, v)

namespace LoadRun

variable (run : LoadRun)

def prometheusSource : Dict Json :=
  answered run.answer run.client run.config.loadWindow
    (run.config.queries ++ run.config.clientQueries)

/-- Step 1b. -/
def syncPhaseSource : Dict Json :=
  match run.syncPhase with
  | .holds syncPhase =>
      match syncPhase.getD "metrics" (.obj []) with
      | .ok (.obj fields) => syncNames fields
      | _ => []
  | _ => []

/-- Step 2: the sync time that was converted to a float. -/
def syncTimeSource : Dict Json :=
  match run.loadSyncMetrics.get "sync_time_sec" with
  | .ok .null => []
  | .ok v =>
      match run.floatOf v with
      | .ok value => [("sync_time_sec", .float value)]
      | .error _ => []
  | .error _ => []

/-- Step 3. -/
def locustSource (rpc : LocustStats) : Dict Json :=
  match rpc.aggregate with
  | none => []
  | some agg => (locustAggregateMetrics agg run.config.maxFailureRatio).1

/-- Step 4. -/
def proofSource (proof : Dict Json) : Dict Json :=
  if proof = [] then []
  else
    [("proof_p50_bytes", Dict.get proof "p50_bytes"),
      ("proof_p95_bytes", Dict.get proof "p95_bytes"),
      ("proof_p99_bytes", Dict.get proof "p99_bytes")]

/-- The sources of a report, the last first. -/
def sources (report : Report) : List (Dict Json) :=
  [proofSource report.proofSizes, run.locustSource report.rpc, run.syncTimeSource,
    run.syncPhaseSource, run.prometheusSource]

theorem mergeSyncPhase_eq (metrics : Dict Json) :
    run.mergeSyncPhase metrics = Dict.update metrics run.syncPhaseSource := by
  rw [mergeSyncPhase, syncPhaseSource]
  cases run.syncPhase with
  | absent => rfl
  | unreadable => rfl
  | holds syncPhase =>
      dsimp only
      cases syncPhase.getD "metrics" (.obj []) with
      | error e => rfl
      | ok v => cases v <;> rfl

theorem mergeSync_eq {metrics merged : Dict Json} {stateSize : Json}
    (h : run.mergeSync metrics = .ok (merged, stateSize)) :
    merged = Dict.update metrics run.syncTimeSource := by
  rw [mergeSync] at h
  obtain ⟨syncTime, htime, h⟩ := except_bind_eq_ok h
  rw [syncTimeSource, htime]
  have hset (v : Json) (hv : (do
      let value ← run.floatOf v
      let stateSize ← run.loadSyncMetrics.get "db_size_bytes"
      return (Dict.set metrics "sync_time_sec" (.float value), stateSize)) =
        .ok (merged, stateSize)) :
      merged = Dict.update metrics (match run.floatOf v with
        | .ok value => [("sync_time_sec", .float value)]
        | .error _ => []) := by
    obtain ⟨value, hvalue, hv⟩ := except_bind_eq_ok hv
    obtain ⟨size, -, hv⟩ := except_bind_eq_ok hv
    cases hv
    rw [hvalue]
    rfl
  cases syncTime with
  | null =>
      obtain ⟨kept, hkept, h⟩ := except_bind_eq_ok h
      obtain ⟨size, -, h⟩ := except_bind_eq_ok h
      cases hkept
      cases h
      rfl
  | bool b => exact hset _ h
  | int n => exact hset _ h
  | float q => exact hset _ h
  | str text => exact hset _ h
  | arr items => exact hset _ h
  | obj fields => exact hset _ h

theorem mergeLocust_eq (metrics : Dict Json) (rpc : LocustStats) :
    (run.mergeLocust metrics rpc).1 = Dict.update metrics (run.locustSource rpc) := by
  rw [mergeLocust, locustSource]
  cases rpc.aggregate <;> rfl

theorem mergeProof_eq (metrics proof : Dict Json) :
    mergeProof metrics proof = Dict.update metrics (proofSource proof) := by
  rw [mergeProof, proofSource]
  split_ifs <;> rfl

end LoadRun

/-- What a run of the sync phase reads. -/
structure SyncPhaseRun where
  client : String
  answer : String → Option ℚ
  queries : Dict String
  clientQueries : Dict String
  syncWindow : String
  timestamp : String

namespace SyncPhaseRun

variable (sync : SyncPhaseRun)

def answered : Dict Json :=
  Metrics.answered sync.answer sync.client sync.syncWindow (sync.queries ++ sync.clientQueries)

/-- What `run_sync_phase` dumps. -/
def payload : Json :=
  let (metrics, missing) := gatherPrometheusMetrics sync.answer sync.client sync.syncWindow
    sync.queries sync.clientQueries
  .obj [("client", .str sync.client), ("window", .str sync.syncWindow),
    ("timestamp", .str sync.timestamp), ("metrics", .obj metrics),
    ("missing_metrics", .arr (missing.map .str))]

/-- The text of the file: `json.dump(…, indent=2)`. -/
def fileText (floatText : ℚ → List Char) : String :=
  JsonText.dumps (.indented 2) floatText sync.payload

end SyncPhaseRun

theorem findSome?_cons_eq_or {α β : Type} (f : α → Option β) (x : α) (xs : List α) :
    (x :: xs).findSome? f = (f x).or (xs.findSome? f) := by
  cases h : f x <;> simp [h]

/-- The metrics of a measured report: those of each source over those of the ones before. -/
theorem metrics_of_measured {run : LoadRun} {report : Report} (h : run.measured = .ok report)
    (key : String) :
    report.metrics.get? key = (run.sources report).findSome? fun source => lastSet source key := by
  obtain ⟨⟨hparsed, base, hbefore, hvalid, hmetrics⟩, -⟩ := measured_spec h
  rw [LoadRun.beforeLocust] at hbefore
  have hsync := run.mergeSync_eq hbefore
  rw [run.mergeSyncPhase_eq, gatherPrometheusMetrics_eq] at hsync
  rw [hmetrics, LoadRun.mergeProof_eq, run.mergeLocust_eq, hsync, Dict.get?_update,
    Dict.get?_update, Dict.get?_update, Dict.get?_update, Dict.get?_update]
  simp only [LoadRun.sources, findSome?_cons_eq_or]
  rfl

theorem missing_of_measured {run : LoadRun} {report : Report} (h : run.measured = .ok report) :
    report.missingMetrics = unanswered run.answer run.client run.config.loadWindow
      (run.config.queries ++ run.config.clientQueries) := by
  rw [LoadRun.measured, gatherPrometheusMetrics_eq] at h
  obtain ⟨synced, -, h⟩ := except_bind_eq_ok h
  obtain ⟨rpc, -, h⟩ := except_bind_eq_ok h
  obtain ⟨proof, -, h⟩ := except_bind_eq_ok h
  cases h
  rfl

/-- Under the names of the snapshot nothing changes, and there are no others. -/
theorem lastSet_syncNames (entries : Dict Json) (name : String) :
    lastSet (syncNames entries) ("sync_" ++ name) = lastSet entries name := by
  induction entries using List.reverseRecOn with
  | nil => rfl
  | append_singleton entries entry ih =>
      have hnames : "sync_" ++ name = "sync_" ++ entry.1 ↔ name = entry.1 := by
        rw [String.ext_iff, String.toList_append, String.toList_append,
          List.append_cancel_left_eq, ← String.ext_iff]
      rw [syncNames, List.map_append, List.map_singleton, lastSet_concat, lastSet_concat]
      simp only [hnames]
      rw [← ih, syncNames]

theorem lastSet_syncNames_of_ne (entries : Dict Json) {key : String}
    (h : ∀ name, key ≠ "sync_" ++ name) : lastSet (syncNames entries) key = none := by
  induction entries using List.reverseRecOn with
  | nil => rfl
  | append_singleton entries entry ih =>
      rw [syncNames, List.map_append, List.map_singleton, lastSet_concat, if_neg (h entry.1)]
      exact ih

/-- Only the last value of a name matters. -/
theorem lastSet_syncNames_update (entries : Dict Json) (key : String) :
    lastSet (syncNames (Dict.update [] entries)) key = lastSet (syncNames entries) key := by
  by_cases h : ∃ name, key = "sync_" ++ name
  · obtain ⟨name, rfl⟩ := h
    have hnodup : ((Dict.update [] entries).map Prod.fst).Nodup :=
      Dict.nodup_update [] entries List.nodup_nil
    rw [lastSet_syncNames, lastSet_syncNames, lastSet_eq_get? _ _ hnodup, Dict.get?_update]
    exact Option.or_none
  · rw [lastSet_syncNames_of_ne _ (not_exists.mp h), lastSet_syncNames_of_ne _ (not_exists.mp h)]

namespace SyncPhaseRun

variable (sync : SyncPhaseRun) {floatOf : List Char → ℚ} {floatText : ℚ → List Char}

/-- The file is read back. -/
theorem jsonFile_fileText (hfloats : ∀ query value, sync.answer query = some value →
      JsonText.ReadsBack floatOf floatText value) :
    JsonText.jsonFile floatOf (sync.fileText floatText) = .holds sync.payload := by
  have hmetrics : JsonText.Readable floatOf floatText (.obj (Dict.update [] sync.answered)) := by
    refine JsonText.proper_update ?_ fun entry hentry => ?_
    · exact ⟨List.nodup_nil, trivial⟩
    · obtain ⟨⟨name, template⟩, -, hentry⟩ := List.mem_filterMap.mp hentry
      obtain ⟨value, hvalue, rfl⟩ := Option.map_eq_some_iff.mp hentry
      exact hfloats _ value hvalue
  have hmissing (names : List String) :
      JsonText.ReadableItems floatOf floatText (names.map .str) := by
    refine JsonText.properItems_iff.mpr fun v hv => ?_
    obtain ⟨name, -, rfl⟩ := List.mem_map.mp hv
    trivial
  have hnames : ["client", "window", "timestamp", "metrics", "missing_metrics"].Nodup := by
    decide
  have hreadable : JsonText.Readable floatOf floatText sync.payload := by
    rw [payload, gatherPrometheusMetrics_eq]
    exact ⟨hnames, trivial, trivial, trivial, hmetrics, hmissing _, trivial⟩
  exact JsonText.jsonFile_dumps (JsonText.blank_indented 2) hreadable

end SyncPhaseRun

/-- **Whatever the queries are called: after both phases a metric is that of the last source
that has one of its name, and nothing else is in the report.**  The sync phase's file is
read back from its text. -/
theorem metrics_of_phases {floatOf : List Char → ℚ} {floatText : ℚ → List Char}
    {sync : SyncPhaseRun} (hfloats : ∀ query value, sync.answer query = some value →
      JsonText.ReadsBack floatOf floatText value)
    {run : LoadRun} (hfile : run.syncPhase = JsonText.jsonFile floatOf (sync.fileText floatText))
    {report : Report} (h : run.measured = .ok report) :
    (∀ key, report.metrics.get? key =
      [LoadRun.proofSource report.proofSizes, run.locustSource report.rpc, run.syncTimeSource,
        syncNames sync.answered, run.prometheusSource].findSome?
          fun source => lastSet source key) ∧
    report.missingMetrics = unanswered run.answer run.client run.config.loadWindow
      (run.config.queries ++ run.config.clientQueries) := by
  have hsource : run.syncPhaseSource = syncNames (Dict.update [] sync.answered) := by
    rw [LoadRun.syncPhaseSource, hfile, sync.jsonFile_fileText hfloats, SyncPhaseRun.payload,
      gatherPrometheusMetrics_eq]
    rfl
  refine ⟨fun key => ?_, missing_of_measured h⟩
  rw [metrics_of_measured h, LoadRun.sources, hsource]
  simp only [findSome?_cons_eq_or, lastSet_syncNames_update]

/-- A sync phase with one answer. -/
def onePeak : SyncPhaseRun where
  client := "nethermind"
  answer _ := some (3 / 2)
  queries := [("cpu_percent_peak", "max(cpu)")]
  clientQueries := []
  syncWindow := "1h"
  timestamp := "2026-01-01T00:00:00+00:00"

def floatOfPeak : List Char → ℚ := fun _ => 3 / 2

def peakText : ℚ → List Char := fun _ => ['1', '.', '5']

theorem readsBack_peakText : JsonText.ReadsBack floatOfPeak peakText (3 / 2) where
  head := ⟨'1', ['.', '5'], rfl, .inr rfl⟩
  read rest h := by
    have hinteger : JsonText.readInteger ('1' :: '.' :: '5' :: rest) =
        some (['1'], '.' :: '5' :: rest) := rfl
    have htake := @JsonText.takeWhile_digits ['5'] rest (by simp) h
    have hdrop := @JsonText.dropWhile_digits ['5'] rest (by simp) h
    rw [List.singleton_append] at htake hdrop
    have hfraction : JsonText.readFraction ('.' :: '5' :: rest) = (['.', '5'], rest) := by
      rw [JsonText.readFraction, htake, hdrop]
      rfl
    show JsonText.readMagnitude floatOfPeak false ('1' :: '.' :: '5' :: rest) = _
    rw [JsonText.readMagnitude, hinteger]
    simp [hfraction, JsonText.readExponent_of_stops h, floatOfPeak]

/-- A load phase that has this file of the sync phase, and nothing else. -/
def onlyAfter (syncPhase : JsonFile) : LoadRun where
  client := "nethermind"
  milestone := "v1"
  failOnRegression := false
  config :=
    { queries := [("cpu_percent_peak", "max(cpu)")], clientQueries := [], loadWindow := "5m",
      higherIsBetter := [] }
  answer _ := none
  syncPhase := syncPhase
  syncMetrics := .absent
  stats := none
  proofRows := none
  numbers := ⟨fun _ => none, fun _ => none⟩
  timestamp := "2026-01-01T01:00:00+00:00"

theorem measured_onlyAfter (syncPhase : JsonFile) :
    ∃ report, (onlyAfter syncPhase).measured = .ok report ∧ report.rpc = ⟨none, []⟩ ∧
      report.proofSizes = [] :=
  ⟨_, rfl, rfl, rfl⟩

theorem metrics_of_phases_onePeak :
    ∃ report,
      (onlyAfter (JsonText.jsonFile floatOfPeak (onePeak.fileText peakText))).measured =
        .ok report ∧
      report.metrics.get? "sync_cpu_percent_peak" = some (.float (3 / 2)) ∧
      report.metrics.get? "cpu_percent_peak" = none := by
  have hfloats : ∀ query value, onePeak.answer query = some value →
      JsonText.ReadsBack floatOfPeak peakText value := by
    intro query value hvalue
    obtain rfl : (3 / 2 : ℚ) = value := Option.some_inj.mp hvalue
    exact readsBack_peakText
  generalize hfile : JsonText.jsonFile floatOfPeak (onePeak.fileText peakText) = file
  obtain ⟨report, hreport, hrpc, hproof⟩ := measured_onlyAfter file
  have hphases := (metrics_of_phases hfloats hfile.symm hreport).1
  rw [hrpc, hproof] at hphases
  refine ⟨report, hreport, ?_, ?_⟩
  · rw [hphases]
    rfl
  · rw [hphases]
    rfl

end StateBenchmarks.Metrics
