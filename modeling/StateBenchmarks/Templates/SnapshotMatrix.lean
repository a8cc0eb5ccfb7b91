/-
# The sweep over a list of snapshots

`templates/<client>/run_snapshot_matrix.sh` serves the entries of a manifest one
after the other: stop the node, fetch the snapshot into a directory named after
its block, point the configuration at the database inside, run the benchmark at
each duration, and leave the infrastructure up or tear it down.

What the machine answers while an entry is served (whether a directory is there,
how a download ends, whether the node comes up) is an input.  Of the files the
script edits only the configuration's `lowerdir` is read back: the next entry
takes the directory to remove from it.
-/

import Mathlib.Logic.Function.Basic
import StateBenchmarks.Python.Paths

namespace StateBenchmarks.Templates

open Python

def rstripSlashes (cs : List Char) : List Char := (cs.reverse.dropWhile (· == '/')).reverse

/-- `dirname`. -/
def shellDirname (p : String) : String :=
  let body := rstripSlashes p.toList
  let head := (body.reverse.dropWhile (· != '/')).reverse
  if head = [] then (if body = [] ∧ p ≠ "" then "/" else ".")
  else if rstripSlashes head = [] then "/"
  else String.ofList (rstripSlashes head)

/-- `basename`. -/
def shellBasename (p : String) : String :=
  let body := rstripSlashes p.toList
  if body = [] then (if p = "" then "" else "/")
  else String.ofList (body.reverse.takeWhile (· != '/')).reverse

/-- `=~ ^[0-9]+$`. -/
def isNumeric (s : String) : Bool := s.toList != [] && s.toList.all Char.isDigit

/-- The environment-overridable knobs.  Alias, label and suffix are parts of one
directory name, and the subdirectory of a fetch is inside it. -/
structure Knobs where
  durations : List String
  snapBase : String
  snapLabel : String
  snapAlias : String
  snapSuffix : String
  dbSubdir : String
  fetchSubdir : String
  keepSnapshots : String
  skipFetch : String
  keepInfra : String
  label_noSlash : '/' ∉ snapLabel.toList
  alias_noSlash : '/' ∉ snapAlias.toList
  suffix_noSlash : '/' ∉ snapSuffix.toList
  fetchSubdir_inside : ['.', '.'] ∉ fetchSubdir.toList.splitOn '/'

/-- A line of the manifest, by its URL; what its payload file is like is among the
machine's answers. -/
structure Entry where
  url : String

/-- How polling the container `snap_dl` ends. -/
inductive FetchEnd where
  | timedOut
  | exited (code : String)
  deriving DecidableEq

/-- `metrics_<client>.json` after a benchmark. -/
inductive MetricsFile where
  | missing
  | withoutPeak
  | withPeak

/-- What the machine answers during one duration. -/
structure RunOutcome where
  rpcReady : Bool
  metrics : MetricsFile

/-- What the machine answers while an entry is served. -/
structure Outcome where
  /-- The target is a directory that holds something. -/
  targetFilled : Bool
  fetch : FetchEnd
  dbSubdirExists : Bool
  mainnetExists : Bool
  payloadsExist : Bool
  payloadsAtHead : Bool
  runs : ℕ → RunOutcome

/-- What the sweep does to the machine.  A fetch wipes the directory it extracts into. -/
inductive Event where
  | infraDown
  | infraUp
  | cleanContainers
  | removePrevious (path : String)
  | removeTarget (path : String)
  | fetch (url dir : String) (ended : FetchEnd)
  | benchmark (milestone : String)

/-- What an entry does, the `lowerdir` it leaves in the configuration, and its lines
of the summary. -/
structure Visit where
  events : List Event
  lowerdir : Option String
  summary : List (String × String)

/-- An event, and the target of the entry it was performed for. -/
structure Moment where
  target : String
  event : Event

/-- The configured `lowerdir`, what has been done, and the summary. -/
structure Sweep where
  lowerdir : Option String
  trace : List Moment
  summary : List (String × String)

namespace Knobs

variable (k : Knobs)

/-- The block an entry is named after. -/
def block (e : Entry) : String := shellBasename (shellDirname e.url)

/-- What directories and milestones of a block are called. -/
def label (block : String) : String := k.snapAlias ++ "-" ++ k.snapLabel ++ "-" ++ block

def dirName (e : Entry) : String := k.label (block e) ++ k.snapSuffix

/-- `target`. -/
def target (e : Entry) : String := k.snapBase ++ "/" ++ k.dirName e

/-- `fetch_target`. -/
def fetchTarget (e : Entry) : String :=
  if k.fetchSubdir = "" then k.target e else k.target e ++ "/" ++ k.fetchSubdir

/-- The DB directory inside the extract. -/
def dbDir (e : Entry) (o : Outcome) : String :=
  if k.dbSubdir ≠ "" ∧ o.dbSubdirExists then k.target e ++ "/" ++ k.dbSubdir
  else if o.mainnetExists then k.target e ++ "/mainnet"
  else k.target e

/-- `prev_root`: the configured `lowerdir`, without the DB directory. -/
def prevRoot (lowerdir : String) : String :=
  let suffix := '/' :: k.dbSubdir.toList
  if k.dbSubdir ≠ "" ∧ suffix <:+ lowerdir.toList then
    String.ofList (lowerdir.toList.take (lowerdir.toList.length - suffix.length))
  else lowerdir

/-- The guard of the removal before a fetch. -/
def Removable (e : Entry) (prev : String) : Prop :=
  prev ≠ "" ∧ (k.snapBase ++ "/").toList <+: prev.toList ∧ prev ≠ k.snapBase ∧ prev ≠ k.target e

instance (e : Entry) (prev : String) : Decidable (k.Removable e prev) :=
  inferInstanceAs (Decidable (_ ∧ _ ∧ _ ∧ _))

/-- `SKIP_FETCH=1`, and the target holds something. -/
def reuses (o : Outcome) : Bool := k.skipFetch == "1" && o.targetFilled

/-- The removal before a fetch. -/
def removePrevious (lowerdir : Option String) (e : Entry) : List Event :=
  let prev := k.prevRoot (lowerdir.getD "")
  if k.Removable e prev then [.removePrevious prev] else []

/-- Getting the snapshot, unless it is reused. -/
def acquire (lowerdir : Option String) (e : Entry) (o : Outcome) : List Event :=
  if k.reuses o then []
  else k.removePrevious lowerdir e ++ [.fetch e.url (k.fetchTarget e) o.fetch]

/-- Why the snapshot is not there, if it is not. -/
def acquireFailure (o : Outcome) : Option String :=
  if k.reuses o then none
  else
    match o.fetch with
    | .timedOut => some "SKIP:fetch-timeout"
    | .exited code => if code = "0" then none else some "SKIP:fetch-failed"

/-- Why the payloads cannot be replayed, if they cannot. -/
def payloadsFailure (o : Outcome) : Option String :=
  if o.payloadsExist = false then some "SKIP:no-payloads"
  else if o.payloadsAtHead = false then some "SKIP:payloads-not-head+1"
  else none

/-- What is done for a duration. -/
def runEvents (e : Entry) (dur : String) (o : RunOutcome) : List Event :=
  [.infraDown, .cleanContainers, .infraUp] ++
    if o.rpcReady then [.benchmark (k.label (block e) ++ "-" ++ dur)] else []

/-- What the summary says about a duration. -/
def runStatus (o : RunOutcome) : String :=
  if o.rpcReady then
    match o.metrics with
    | .withPeak => "OK"
    | .withoutPeak => "PARTIAL:no-resource-metrics"
    | .missing => "FAIL:no-metrics"
  else "SKIP:rpc-not-ready"

/-- The end of an entry whose benchmarks were run. -/
def finish (e : Entry) : List Event :=
  if k.keepInfra = "1" then []
  else .infraDown :: if k.keepSnapshots = "0" then [.removeTarget (k.target e)] else []

/-- `run_one_snapshot`, from the `lowerdir` the configuration quotes if it does. -/
def runOneSnapshot (lowerdir : Option String) (e : Entry) (o : Outcome) : Visit :=
  if isNumeric (block e) = false then ⟨[], lowerdir, [(e.url, "SKIP:bad-url")]⟩
  else
    let acquired := .infraDown :: k.acquire lowerdir e o
    match k.acquireFailure o with
    | some status => ⟨acquired, lowerdir, [(block e, status)]⟩
    | none =>
        let configured := lowerdir.map fun _ => k.dbDir e o
        match payloadsFailure o with
        | some status => ⟨acquired, configured, [(block e, status)]⟩
        | none =>
            ⟨acquired ++ (k.durations.mapIdx fun i dur => k.runEvents e dur (o.runs i)).flatten ++
                k.finish e,
              configured,
              k.durations.mapIdx fun i dur =>
                (k.label (block e) ++ "-" ++ dur, runStatus (o.runs i))⟩

end Knobs

/-- What `run_benchmark.sh` wrote to `metrics_<client>.json`. -/
inductive Written where
  | withoutPeak
  | withPeak

def Written.file : Written → MetricsFile
  | .withoutPeak => .withoutPeak
  | .withPeak => .withPeak

/-- How the run of a duration goes.  The exit status of `run_benchmark.sh` is not looked
at. -/
structure Attempt where
  rpcReady : Bool
  wrote : Option Written

/-- The run of a duration. -/
structure Run where
  milestone : String
  attempt : Attempt

/-- `metrics_<client>.json` in the directories of `benchmarks/`. -/
abbrev Benchmarks := String → MetricsFile

namespace Run

/-- `run_benchmark.sh` was started, and wrote the metrics of its milestone. -/
def Wrote (r : Run) : Prop := r.attempt.rpcReady = true ∧ r.attempt.wrote ≠ none

/-- What the run leaves in `benchmarks/`. -/
def leaves (r : Run) (files : Benchmarks) : Benchmarks :=
  match r.attempt with
  | ⟨true, some written⟩ => Function.update files r.milestone written.file
  | _ => files

end Run

/-- What some runs leave in `benchmarks/`, one after the other. -/
def leftBy (prior : Benchmarks) (runs : List Run) : Benchmarks :=
  runs.foldl (fun files r => r.leaves files) prior

/-- What the machine answers for an entry.  Which metrics its runs find is not an answer: it
is what is in `benchmarks/` by then. -/
structure Answers where
  outcome : Outcome
  /-- `SNAP_HEAD`, or the snapshot's own metadata, gives the head. -/
  headKnown : Bool
  attempts : ℕ → Attempt

/-- An entry of the manifest, with the answers. -/
structure Serving extends Answers where
  entry : Entry

/-- A sweep, the runs it has performed, and whether its main loop is over. -/
structure Report where
  sweep : Sweep
  runs : List Run
  ended : Bool

/-- The digits of a number with a leading zero are octal in bash, and eight and nine an
error. -/
def misreadsBlock (block : String) : Bool :=
  block.toList.head? == some '0' && block.toList.any fun c => c == '8' || c == '9'

namespace Knobs

variable (k : Knobs)

/-- The entry gets its snapshot, and the configuration points into it. -/
def serves (step : Entry × Outcome) : Bool :=
  isNumeric (block step.1) && (k.acquireFailure step.2).isNone

/-- What serving an entry adds to a sweep. -/
def serve (w : Sweep) (step : Entry × Outcome) : Sweep :=
  let visit := k.runOneSnapshot w.lowerdir step.1 step.2
  { lowerdir := visit.lowerdir
    trace := w.trace ++ visit.events.map (Moment.mk (k.target step.1))
    summary := w.summary ++ visit.summary }

/-- The block is added one to, for the message about missing payloads or as the head, and
cannot be. -/
def stops (step : Serving) : Bool :=
  k.serves (step.entry, step.outcome) && misreadsBlock (block step.entry) &&
    (!step.outcome.payloadsExist || !step.headKnown)

/-- The benchmarks of the entry are run. -/
def benchmarks (step : Serving) : Bool :=
  k.serves (step.entry, step.outcome) && (payloadsFailure step.outcome).isNone && !k.stops step

/-- `milestone`. -/
def milestone (e : Entry) (dur : String) : String := k.label (block e) ++ "-" ++ dur

/-- The runs of an entry. -/
def runsOf (step : Serving) : List Run :=
  if k.benchmarks step then
    k.durations.mapIdx fun i dur => ⟨k.milestone step.entry dur, step.attempts i⟩
  else []

/-- The outcome of an entry after the runs of those before it. -/
def outcomeAfter (prior : Benchmarks) (past : List Run) (step : Serving) : Outcome :=
  { step.outcome with
    runs := fun i =>
      ⟨(step.attempts i).rpcReady,
        leftBy prior (past ++ (k.runsOf step).take (i + 1))
          (k.milestone step.entry (k.durations.getD i ""))⟩ }

/-- One iteration of the main loop.  An entry that ends it has done what one with the wrong
payloads does, but has no line. -/
def serveNext (prior : Benchmarks) (r : Report) (step : Serving) : Report :=
  if r.ended then r
  else if k.stops step then
    let served := k.serve r.sweep (step.entry, { step.outcome with payloadsAtHead := false })
    { r with sweep := { served with summary := r.sweep.summary }, ended := true }
  else
    { sweep := k.serve r.sweep (step.entry, k.outcomeAfter prior r.runs step)
      runs := r.runs ++ k.runsOf step
      ended := false }

/-- The main loop over the entries of a manifest, with what is in `benchmarks/` before. -/
def report (prior : Benchmarks) (lowerdir : Option String) (steps : List Serving) : Report :=
  steps.foldl (k.serveNext prior) ⟨⟨lowerdir, [], []⟩, [], false⟩

end Knobs

end StateBenchmarks.Templates
