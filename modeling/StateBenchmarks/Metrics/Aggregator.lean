/-
# The metrics aggregator

`src/metrics/aggregator.py` gathers what a run measured, compares it with the
most recent run of another milestone, and writes `metrics_<client>.json`.  Its
inputs are files that may be missing or hold anything, and answers of Prometheus
that may be missing; what it reads is the input `LoadRun`, and the files the
other milestones left are the state.

Floats are exact rationals, and `float` and `int` on the text of a cell are
parameters.  The CSV summary, which nothing reads back, is left out.
-/

import StateBenchmarks.Control.Sorting
import StateBenchmarks.Python.Json
import Mathlib.Data.Rat.Floor

namespace StateBenchmarks.Metrics

open Python Control

/-- A row of `csv.DictReader`; the cells a short row lacks are `None`. -/
abbrev CsvRow := Dict (Option String)

/-- `render_query`. -/
def renderQuery (template client window : String) : String :=
  (template.replace "{client}" client).replace "{window}" window

/-- `gather_prometheus_metrics`: the metrics that were answered, and the names of
those that were not. -/
def gatherPrometheusMetrics (answer : String → Option ℚ) (client window : String)
    (queries clientQueries : Dict String) : Dict Json × List String :=
  (queries ++ clientQueries).foldl
    (fun (metrics, missing) (name, template) =>
      match answer (renderQuery template client window) with
      | some value => (Dict.set metrics name (.float value), missing)
      | none => (metrics, missing ++ [name]))
    ([], [])

/-- A parsed row of Locust's statistics. -/
structure LocustEntry where
  p50Ms : ℚ
  p95Ms : ℚ
  p99Ms : ℚ
  meanMs : ℚ
  requestsPerSec : ℚ
  requestCount : ℤ
  failureCount : ℤ
  avgContentBytes : ℚ

/-- The result of `parse_locust_stats`. -/
structure LocustStats where
  aggregate : Option LocustEntry
  perMethod : Dict LocustEntry

/-- `row[key]`. -/
def cell (row : CsvRow) (key : String) : Except Exn (Option String) :=
  match Dict.get? row key with
  | some value => .ok value
  | none => .error (.external "KeyError")

/-- `float(row[key])` or `int(row[key])`, by the conversion of a text. -/
def numberCell {α : Type} (convert : String → Option α) (row : CsvRow) (key : String) :
    Except Exn α := do
  match ← cell row key with
  | none => throw .typeError
  | some text =>
      match convert text with
      | some value => return value
      | none => throw (.valueError [.text "could not convert ", .repr (.str text)])

/-- `float(row.get('Average Content Size', 0) or 0)`. -/
def contentCell (numbers : NumberText) (row : CsvRow) : Except Exn ℚ :=
  match (Dict.get? row "Average Content Size").join with
  | none => .ok 0
  | some text =>
      if text = "" then .ok 0
      else
        match numbers.float text with
        | some value => .ok value
        | none => .error (.valueError [.text "could not convert ", .repr (.str text)])

/-- The entry of one row. -/
def parseEntry (numbers : NumberText) (row : CsvRow) : Except Exn LocustEntry := do
  let p50Ms ← numberCell numbers.float row "50%"
  let p95Ms ← numberCell numbers.float row "95%"
  let p99Ms ← numberCell numbers.float row "99%"
  let meanMs ← numberCell numbers.float row "Average Response Time"
  let requestsPerSec ← numberCell numbers.float row "Requests/s"
  let requestCount ← numberCell numbers.int row "Request Count"
  let failureCount ← numberCell numbers.int row "Failure Count"
  let avgContentBytes ← contentCell numbers row
  return ⟨p50Ms, p95Ms, p99Ms, meanMs, requestsPerSec, requestCount, failureCount,
    avgContentBytes⟩

/-- `except (KeyError, ValueError)`. -/
def isKeyOrValueError : Exn → Bool
  | .external "KeyError" => true
  | .valueError _ => true
  | _ => false

/-- One iteration of `parse_locust_stats`. -/
def parseRow (numbers : NumberText) (out : LocustStats) (row : CsvRow) :
    Except Exn LocustStats :=
  match Dict.get? row "Name" with
  | none => .ok out
  | some none => .ok out
  | some (some name) =>
      if name = "" then .ok out
      else
        match parseEntry numbers row with
        | .error e => if isKeyOrValueError e then .ok out else .error e
        | .ok entry =>
            if name = "Aggregated" then .ok { out with aggregate := some entry }
            else .ok { out with perMethod := Dict.set out.perMethod name entry }

/-- `parse_locust_stats`, from the rows of the file if there is one. -/
def parseLocustStats (numbers : NumberText) (rows : Option (List CsvRow)) :
    Except Exn LocustStats :=
  (rows.getD []).foldlM (parseRow numbers) ⟨none, []⟩

/-- `failure_count / request_count`, or zero without requests. -/
def failureRatio (agg : LocustEntry) : ℚ :=
  if agg.requestCount = 0 then 0 else agg.failureCount / agg.requestCount

/-- `locust_aggregate_metrics`. -/
def locustAggregateMetrics (agg : LocustEntry) (maxFailureRatio : ℚ) : Dict Json × Bool :=
  let metrics : Dict Json := [("rpc_failure_ratio", .float (failureRatio agg))]
  if failureRatio agg > maxFailureRatio then (metrics, false)
  else
    (Dict.update metrics
      [("rpc_p50_latency_ms", .float agg.p50Ms), ("rpc_p95_latency_ms", .float agg.p95Ms),
        ("rpc_p99_latency_ms", .float agg.p99Ms), ("rpc_mean_latency_ms", .float agg.meanMs),
        ("rpc_requests_sec", .float agg.requestsPerSec)], true)

/-- `round(q)`: to the nearest integer, halves to the even one. -/
def roundHalfEven (q : ℚ) : ℤ :=
  let rest := q - ⌊q⌋
  if rest < 1 / 2 then ⌊q⌋
  else if rest > 1 / 2 then ⌊q⌋ + 1
  else if ⌊q⌋ % 2 = 0 then ⌊q⌋ else ⌊q⌋ + 1

/-- The nearest-rank percentile of sorted sizes. -/
def rankPercentile (sizes : List ℤ) (p : ℚ) : ℚ :=
  let idx := min (sizes.length - 1) (roundHalfEven (p * (sizes.length - 1))).toNat
  sizes.getD idx 0

/-- One iteration of `parse_proof_sizes`; a cell that does not parse is skipped. -/
def parseSize (numbers : NumberText) (sizes : List ℤ) (row : CsvRow) : Except Exn (List ℤ) :=
  match numberCell numbers.int row "response_bytes" with
  | .ok size => .ok (sizes ++ [size])
  | .error e => if isKeyOrValueError e then .ok sizes else .error e

/-- `parse_proof_sizes`. -/
def parseProofSizes (numbers : NumberText) (rows : Option (List CsvRow)) :
    Except Exn (Dict Json) := do
  let sizes ← (rows.getD []).foldlM (parseSize numbers) []
  if sizes = [] then return []
  let sorted := sizes.mergeSort (· ≤ ·)
  return [("p50_bytes", .float (rankPercentile sorted (1 / 2))),
    ("p95_bytes", .float (rankPercentile sorted (95 / 100))),
    ("p99_bytes", .float (rankPercentile sorted (99 / 100))),
    ("mean_bytes", .float (sorted.sum / sorted.length)),
    ("sample_count", .int sorted.length)]

/-- An entry of the `benchmarks` directory: a milestone's directory, or something
else, and the `metrics_<client>.json` in it. -/
structure TreeEntry where
  name : String
  isDir : Bool
  metrics : JsonFile

/-- The `benchmarks` directory in the order it is listed. -/
abbrev Tree := List TreeEntry

/-- A candidate of `find_previous_milestone`. -/
structure Candidate where
  milestone : String
  timestamp : Json
  payload : Json

/-- The candidate in an entry, if its file can be read as an object. -/
def candidateOf (current : String) (entry : TreeEntry) : Option Candidate :=
  if entry.name = current then none
  else if entry.isDir = false then none
  else
    match entry.metrics with
    | .holds payload =>
        match payload.getD "timestamp" (.str "") with
        | .ok timestamp => some ⟨entry.name, timestamp, payload⟩
        | .error _ => none
    | _ => none

/-- The order of the sort: by timestamp, then by name. -/
def candidateLt (a b : Candidate) : Except Exn Bool :=
  if a.timestamp.pyEq b.timestamp then .ok (decide (a.milestone < b.milestone))
  else a.timestamp.pyLt b.timestamp

/-- `find_previous_milestone`. -/
def findPreviousMilestone (current : String) (tree : Tree) : Except Exn (Option Candidate) := do
  let candidates := tree.filterMap (candidateOf current)
  if candidates.isEmpty then return none
  let sorted ← sortM candidateLt candidates
  return sorted.getLast?

/-- A reported regression. -/
structure Regression where
  metric : String
  previousMilestone : String
  previous : Json
  current : Json
  deltaPct : ℚ

/-- One iteration of `compare_against_previous`. -/
def compareMetric (prevMilestone : String) (prevMetrics : Json) (higherIsBetter : List String)
    (threshold : ℚ) (key : String) (current : Json) : Except Exn (Option Regression) := do
  if ← prevMetrics.contains key then
    let previous ← prevMetrics.item key
    match current.number?, previous.number? with
    | some c, some p =>
        if p = 0 then return none
        let delta := (c - p) / p
        let regressed := if key ∈ higherIsBetter then delta < -threshold else delta > threshold
        if regressed then
          return some ⟨key, prevMilestone, previous, current,
            (roundHalfEven (delta * 100 * 100) : ℚ) / 100⟩
        else return none
    | _, _ => return none
  else return none

/-- `compare_against_previous`. -/
def compareAgainstPrevious (current : Dict Json) (prev : Candidate)
    (higherIsBetter : List String) (threshold : ℚ) : Except Exn (List Regression) := do
  let prevMetrics ← prev.payload.getD "metrics" (.obj [])
  if prevMetrics.truthy = false then return []
  let compared ← current.mapM fun (key, value) =>
    compareMetric prev.milestone prevMetrics higherIsBetter threshold key value
  return compared.reduceOption

/-! ## The load phase -/

/-- The `metrics` section as `main` reads it. -/
structure MetricsConfig where
  queries : Dict String
  clientQueries : Dict String
  loadWindow : String
  higherIsBetter : List String
  /-- `DEFAULT_REGRESSION_THRESHOLD`. -/
  regressionThreshold : ℚ := 1 / 4
  /-- `DEFAULT_MAX_FAILURE_RATIO`. -/
  maxFailureRatio : ℚ := 1 / 10

/-- What a run of the load phase reads, apart from the other milestones. -/
structure LoadRun where
  client : String
  milestone : String
  failOnRegression : Bool
  config : MetricsConfig
  answer : String → Option ℚ
  syncPhase : JsonFile
  syncMetrics : JsonFile
  stats : Option (List CsvRow)
  proofRows : Option (List CsvRow)
  numbers : NumberText
  timestamp : String

namespace LoadRun

variable (run : LoadRun)

/-- Step 1b: the sync-phase snapshot, if it can be read. -/
def mergeSyncPhase (metrics : Dict Json) : Dict Json :=
  match run.syncPhase with
  | .holds syncPhase =>
      match syncPhase.getD "metrics" (.obj []) with
      | .ok (.obj fields) => Dict.update metrics (fields.map fun (name, v) => ("sync_" ++ name, v))
      | _ => metrics
  | _ => metrics

/-- `load_sync_metrics`. -/
def loadSyncMetrics : Json :=
  match run.syncMetrics with
  | .holds sync => sync
  | _ => .obj []

/-- `float(v)`. -/
def floatOf (v : Json) : Except Exn ℚ :=
  match v with
  | .str text =>
      match run.numbers.float text with
      | some value => .ok value
      | none => .error (.valueError [.text "could not convert string to float: ", .repr v])
  | v =>
      match v.number? with
      | some value => .ok value
      | none => .error .typeError

/-- Step 2: the sync time and the database size. -/
def mergeSync (metrics : Dict Json) : Except Exn (Dict Json × Json) := do
  let syncTime ← run.loadSyncMetrics.get "sync_time_sec"
  let metrics ←
    match syncTime with
    | .null => pure metrics
    | v => do
        let value ← run.floatOf v
        pure (Dict.set metrics "sync_time_sec" (.float value))
  let stateSize ← run.loadSyncMetrics.get "db_size_bytes"
  return (metrics, stateSize)

/-- Step 3: the Locust metrics behind the failure gate, and whether the load test
is valid. -/
def mergeLocust (metrics : Dict Json) (rpc : LocustStats) : Dict Json × Bool :=
  match rpc.aggregate with
  | none => (metrics, true)
  | some agg =>
      let (rpcMetrics, valid) := locustAggregateMetrics agg run.config.maxFailureRatio
      (Dict.update metrics rpcMetrics, valid)

/-- Step 4: the proof sizes. -/
def mergeProof (metrics proof : Dict Json) : Dict Json :=
  if proof = [] then metrics
  else
    Dict.update metrics
      [("proof_p50_bytes", Dict.get proof "p50_bytes"),
        ("proof_p95_bytes", Dict.get proof "p95_bytes"),
        ("proof_p99_bytes", Dict.get proof "p99_bytes")]

end LoadRun

/-- What `main` assembles into the payload. -/
structure Report where
  stateSize : Json
  loadTestValid : Bool
  metrics : Dict Json
  missingMetrics : List String
  rpc : LocustStats
  proofSizes : Dict Json
  regressions : List Regression

/-- A dictionary of `parse_locust_stats`. -/
def LocustEntry.toJson (entry : LocustEntry) : Json :=
  .obj [("p50_ms", .float entry.p50Ms), ("p95_ms", .float entry.p95Ms),
    ("p99_ms", .float entry.p99Ms), ("mean_ms", .float entry.meanMs),
    ("requests_per_sec", .float entry.requestsPerSec),
    ("request_count", .int entry.requestCount), ("failure_count", .int entry.failureCount),
    ("avg_content_bytes", .float entry.avgContentBytes)]

def LocustStats.toJson (rpc : LocustStats) : Json :=
  .obj
    ((if rpc.perMethod = [] then []
      else [("per_method", .obj (rpc.perMethod.map fun (name, e) => (name, e.toJson)))]) ++
    match rpc.aggregate with
    | some entry => [("aggregate", entry.toJson)]
    | none => [])

def Regression.toJson (r : Regression) : Json :=
  .obj [("metric", .str r.metric), ("previous_milestone", .str r.previousMilestone),
    ("previous", r.previous), ("current", r.current), ("delta_pct", .float r.deltaPct)]

namespace LoadRun

variable (run : LoadRun)

/-- Steps 1 to 4: everything but the comparison. -/
def measured : Except Exn Report := do
  let (metrics, missing) := gatherPrometheusMetrics run.answer run.client
    run.config.loadWindow run.config.queries run.config.clientQueries
  let (metrics, stateSize) ← run.mergeSync (run.mergeSyncPhase metrics)
  let rpc ← parseLocustStats run.numbers run.stats
  let (metrics, valid) := run.mergeLocust metrics rpc
  let proof ← parseProofSizes run.numbers run.proofRows
  return ⟨stateSize, valid, mergeProof metrics proof, missing, rpc, proof, []⟩

/-- Step 5: the comparison with the previous milestone. -/
def compared (tree : Tree) (report : Report) : Except Exn Report := do
  match ← findPreviousMilestone run.milestone tree with
  | none => return report
  | some prev =>
      let regressions ← compareAgainstPrevious report.metrics prev run.config.higherIsBetter
        run.config.regressionThreshold
      return { report with regressions }

/-- Step 6: the payload. -/
def payload (report : Report) : Json :=
  .obj [("client", .str run.client), ("milestone", .str run.milestone),
    ("timestamp", .str run.timestamp), ("state_size_bytes", report.stateSize),
    ("load_test_valid", .bool report.loadTestValid), ("metrics", .obj report.metrics),
    ("missing_metrics", .arr (report.missingMetrics.map .str)), ("rpc", report.rpc.toJson),
    ("proof_sizes", .obj report.proofSizes),
    ("regressions", .arr (report.regressions.map Regression.toJson))]

/-- The exit status of a run that has written its payload. -/
def exitStatus (report : Report) : ℤ :=
  if run.failOnRegression = true ∧ report.loadTestValid = false then 2
  else if report.regressions ≠ [] ∧ run.failOnRegression = true then 2
  else 0

end LoadRun

namespace Tree

/-- `os.makedirs(milestone_dir, exist_ok=True)`. -/
def makeDir (tree : Tree) (milestone : String) : Except Exn Tree :=
  match tree.find? (·.name == milestone) with
  | none => .ok (tree ++ [⟨milestone, true, .absent⟩])
  | some entry => if entry.isDir then .ok tree else .error (.external "FileExistsError")

/-- Writing `metrics_<client>.json` into a milestone's directory. -/
def write (tree : Tree) (milestone : String) (payload : Json) : Tree :=
  tree.map fun entry =>
    if entry.name = milestone then { entry with metrics := .holds payload } else entry

end Tree

/-- An order in which a directory is listed. -/
structure Listing where
  order : Tree → Tree
  perm : ∀ tree, (order tree).Perm tree

/-- `main` in the load phase on a tree that has the milestone's directory: what it
reports before it writes. -/
def mainLoad (run : LoadRun) (listing : Listing) (tree : Tree) : Except Exn Report := do
  let report ← run.measured
  run.compared (listing.order tree) report

/-- The tree after `main`, which leaves its directory behind also where it
raises. -/
def treeAfter (run : LoadRun) (listing : Listing) (tree : Tree) : Tree :=
  match tree.makeDir run.milestone with
  | .error _ => tree
  | .ok tree' =>
      match mainLoad run listing tree' with
      | .error _ => tree'
      | .ok report => tree'.write run.milestone (run.payload report)

/-- The exit status of `main`; an exception that leaves it ends the process with
one. -/
def exitAfter (run : LoadRun) (listing : Listing) (tree : Tree) : ℤ :=
  match tree.makeDir run.milestone with
  | .error _ => 1
  | .ok tree' =>
      match mainLoad run listing tree' with
      | .error _ => 1
      | .ok report => run.exitStatus report

/-- The metrics before those of the load test are merged, and the state size. -/
def LoadRun.beforeLocust (run : LoadRun) : Except Exn (Dict Json × Json) :=
  run.mergeSync (run.mergeSyncPhase (gatherPrometheusMetrics run.answer run.client
    run.config.loadWindow run.config.queries run.config.clientQueries).1)

/-- A report gates the load test it parsed. -/
structure Gated (run : LoadRun) (report : Report) : Prop where
  parsed : parseLocustStats run.numbers run.stats = .ok report.rpc
  merged : ∃ base, run.beforeLocust = .ok (base, report.stateSize) ∧
    report.loadTestValid = (run.mergeLocust base report.rpc).2 ∧
    report.metrics = LoadRun.mergeProof (run.mergeLocust base report.rpc).1 report.proofSizes

theorem measured_spec {run : LoadRun} {report : Report} (h : run.measured = .ok report) :
    Gated run report ∧ report.regressions = [] := by
  simp only [LoadRun.measured, bind, Except.bind, pure, Except.pure] at h
  split at h
  · cases h
  · rename_i synced hsync
    split at h
    · cases h
    · rename_i rpc hparse
      split at h
      · cases h
      · cases h
        exact ⟨⟨hparse, synced.1, hsync, rfl, rfl⟩, rfl⟩

/-- A run measures where nothing it reads fails to convert. -/
theorem measured_isOk {run : LoadRun} {before : Dict Json × Json} {rpc : LocustStats}
    {proof : Dict Json} (hbefore : run.beforeLocust = .ok before)
    (hrpc : parseLocustStats run.numbers run.stats = .ok rpc)
    (hproof : parseProofSizes run.numbers run.proofRows = .ok proof) :
    ∃ report, run.measured = .ok report := by
  rw [LoadRun.beforeLocust] at hbefore
  simp only [LoadRun.measured, bind, Except.bind, hbefore, hrpc, hproof]
  exact ⟨_, rfl⟩

/-- The comparison only adds the regressions. -/
theorem compared_spec {run : LoadRun} {tree : Tree} {report report' : Report}
    (h : run.compared tree report = .ok report') :
    report' = { report with regressions := report'.regressions } := by
  simp only [LoadRun.compared, bind, Except.bind, pure, Except.pure] at h
  split at h
  · cases h
  · split at h
    · cases h
      rfl
    · split at h
      · cases h
      · cases h
        rfl

/-- What a run writes, it has measured. -/
theorem mainLoad_spec {run : LoadRun} {listing : Listing} {tree : Tree} {report : Report}
    (h : mainLoad run listing tree = .ok report) : Gated run report := by
  simp only [mainLoad, bind, Except.bind] at h
  split at h
  · cases h
  · rename_i measured hmeasured
    rw [compared_spec h]
    obtain ⟨⟨hparsed, hmerged⟩, -⟩ := measured_spec hmeasured
    exact ⟨hparsed, hmerged⟩

theorem foldlM_isOk {α β : Type} {f : β → α → Except Exn β} {xs : List α}
    (h : ∀ x ∈ xs, ∀ acc, ∃ acc', f acc x = .ok acc') (acc : β) :
    ∃ result, xs.foldlM f acc = .ok result := by
  induction xs generalizing acc with
  | nil => exact ⟨acc, rfl⟩
  | cons x xs ih =>
      obtain ⟨acc', hstep⟩ := h x List.mem_cons_self acc
      obtain ⟨result, hrest⟩ := ih (fun x' hx' => h x' (List.mem_cons_of_mem x hx')) acc'
      refine ⟨result, ?_⟩
      rw [List.foldlM_cons, hstep]
      exact hrest

/-- A number is read or passed over, unless its row ends before it. -/
theorem numberCell_cases {α : Type} (convert : String → Option α) {row : CsvRow} {key : String}
    (h : Dict.get? row key ≠ some none) :
    (∃ value, numberCell convert row key = .ok value) ∨
      ∃ e, numberCell convert row key = .error e ∧ isKeyOrValueError e = true := by
  rw [numberCell, cell]
  rcases hcell : Dict.get? row key with _ | _ | text
  · exact Or.inr ⟨_, rfl, rfl⟩
  · exact absurd hcell h
  · simp only [bind, Except.bind]
    cases convert text with
    | none => exact Or.inr ⟨_, rfl, rfl⟩
    | some value => exact Or.inl ⟨value, rfl⟩

/-- The proof sizes are read from rows that all have one. -/
theorem parseProofSizes_isOk {numbers : NumberText} {rows : Option (List CsvRow)}
    (h : ∀ row ∈ rows.getD [], Dict.get? row "response_bytes" ≠ some none) :
    ∃ proof, parseProofSizes numbers rows = .ok proof := by
  obtain ⟨sizes, hsizes⟩ : ∃ sizes,
      (rows.getD []).foldlM (parseSize numbers) [] = .ok sizes := by
    refine foldlM_isOk (fun row hrow sizes => ?_) []
    rw [parseSize]
    rcases numberCell_cases numbers.int (h row hrow) with ⟨size, hsize⟩ | ⟨e, he, hcaught⟩
    · rw [hsize]
      exact ⟨_, rfl⟩
    · rw [he]
      exact ⟨sizes, if_pos hcaught⟩
  rw [parseProofSizes, hsizes]
  simp only [bind, Except.bind]
  split_ifs <;> exact ⟨_, rfl⟩

/-- A tolerated load test is valid. -/
theorem mergeLocust_of_le {run : LoadRun} {base : Dict Json} {rpc : LocustStats}
    {agg : LocustEntry} (hagg : rpc.aggregate = some agg)
    (h : failureRatio agg ≤ run.config.maxFailureRatio) : (run.mergeLocust base rpc).2 = true := by
  rw [LoadRun.mergeLocust, hagg]
  dsimp only
  rw [locustAggregateMetrics, if_neg h.not_gt]

/-- Of any other only the failure ratio is kept. -/
theorem mergeLocust_of_lt {run : LoadRun} {base : Dict Json} {rpc : LocustStats}
    {agg : LocustEntry} (hagg : rpc.aggregate = some agg)
    (h : run.config.maxFailureRatio < failureRatio agg) :
    run.mergeLocust base rpc =
      (Dict.update base [("rpc_failure_ratio", .float (failureRatio agg))], false) := by
  rw [LoadRun.mergeLocust, hagg]
  dsimp only
  rw [locustAggregateMetrics, if_pos h]

end StateBenchmarks.Metrics
