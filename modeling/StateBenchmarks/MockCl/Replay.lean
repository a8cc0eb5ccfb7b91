/-
# The replay driver

`ReplayDriver.run` feeds recorded payloads to an execution client, advances its
head with `forkchoiceUpdated`, and writes a latency row per block.  The client
is adversarial: at each call site of each record it may return any JSON value
or raise, and the clock and the stop event answer as they like.  That behaviour
is the input `Turn`, one per record, so a run is a function of its inputs.

Polling can go on for as long as the client keeps a block queued.  A turn
supplies finitely many poll answers; when they are used up the run is still
waiting for the next one, and the model says so rather than inventing an end.
Every finite part of an endless run is therefore a run of the model.
-/

import StateBenchmarks.Control.Loop
import StateBenchmarks.MockCl.Engine
import StateBenchmarks.MockCl.Payloads
import Mathlib.Algebra.Order.Ring.Rat

namespace StateBenchmarks.MockCl

open Python Control

/-- The answer to one engine call, with the `perf_counter` readings around it:
just before, just after, and the next reading the driver takes. -/
structure Reply where
  result : Except Exn Json
  before : ℚ
  after : ℚ
  later : ℚ

/-- Everything outside the driver during one iteration: whether the stop event
is set (an absent event never is), and the answers at the three call sites. -/
structure Turn where
  stopSet : Bool
  base : Reply
  newPayload : Reply
  polls : List Reply

/-- The constructor arguments `run` reads. -/
structure ReplayDriver where
  advanceHead : Bool
  count : Option ℤ
  latencyCsv : Option String
  newpayloadVersion : Option ℤ
  fcuWaitSeconds : ℚ

/-- A latency row; the status cell is the text of an f-string. -/
structure Row where
  blockNumber : ℤ
  newPayloadMs : ℚ
  fcuMs : Option ℚ
  syncWaitMs : Option ℚ
  status : FString

/-- The file at `latency_csv`: what an earlier run left there (`none` when there
is no file), or the header and rows this run wrote. -/
inductive LatencyFile where
  | earlier (content : Option String)
  | written (rows : List Row)

/-- The three places `run` calls the engine from. -/
inductive CallSite where
  | preflight
  | submission
  | landing
  deriving DecidableEq

/-- An engine call that was made, in the iteration and at the place it was made,
with its answer. -/
structure Exchange where
  turn : ℕ
  site : CallSite
  call : EngineCall
  result : Except Exn Json

/-- The local variables of `run`, the latency file, and the calls made so far. -/
structure Progress where
  rows : List Row
  newPayloadMs : List ℚ
  fcuMs : List ℚ
  syncWaitMs : List ℚ
  prevHash : Json
  file : LatencyFile
  trace : List Exchange

/-- How the loop over the records can be left. -/
inductive Exit where
  | stop
  | raised (e : Exn)
  | waiting

/-- What `run` returns. -/
structure Summary where
  blocks : ℕ
  newPayloadMsP50 : Option ℚ
  newPayloadMsP95 : Option ℚ
  fcuMsP50 : Option ℚ
  fcuMsP95 : Option ℚ
  syncWaitMsP50 : Option ℚ
  syncWaitMsP95 : Option ℚ

/-- How a run stands once its inputs are used up. -/
inductive Outcome where
  | returned (summary : Summary)
  | raised (e : Exn)
  | waiting

/-- `statistics.quantiles(values, n=100, method="inclusive")`: ninety-nine cut
points, each interpolated between two neighbours of the sorted data. -/
def inclusiveQuantiles (values : List ℚ) : List ℚ :=
  let data := values.mergeSort (· ≤ ·)
  let m := data.length - 1
  (List.range' 1 99).map fun i =>
    let j := i * m / 100
    let delta : ℚ := ((i * m % 100 : ℕ) : ℚ)
    (data.getD j 0 * (100 - delta) + data.getD (j + 1) 0 * delta) / 100

/-- `_percentile`. -/
def percentile (values : List ℚ) (pct : ℤ) : Option ℚ :=
  match values with
  | [] => none
  | [value] => some value
  | _ =>
      let quantiles := inclusiveQuantiles values
      let idx := min (max (pct - 1) 0) (quantiles.length - 1)
      quantiles[idx.toNat]?

/-- The statuses of a `newPayload` answer that mean the block was taken. -/
def accepted (status : Json) : Bool :=
  status.pyEq (.str "VALID") || status.pyEq (.str "ACCEPTED") || status.pyEq (.str "SYNCING")

/-- The milliseconds a call took. -/
def Reply.elapsedMs (reply : Reply) : ℚ := (reply.after - reply.before) * 1000

namespace Progress

/-- The state `run` starts in. -/
def start (content : Option String) : Progress where
  rows := []
  newPayloadMs := []
  fcuMs := []
  syncWaitMs := []
  prevHash := .null
  file := .earlier content
  trace := []

/-- Note one engine call. -/
def exchange (s : Progress) (turn : ℕ) (site : CallSite) (call : EngineCall)
    (result : Except Exn Json) : Progress :=
  { s with trace := s.trace ++ [⟨turn, site, call, result⟩] }

end Progress

namespace ReplayDriver

variable (d : ReplayDriver)

/-- `_maybe_write_csv(rows)`: replace the file by the header and all rows so
far, unless no path (or an empty one) was given. -/
def writeCsv (s : Progress) : Progress :=
  match d.latencyCsv with
  | none | some "" => s
  | some _ => { s with file := .written s.rows }

/-- `rows.append(row)` and the flush that follows it everywhere. -/
def record (row : Row) (s : Progress) : Progress :=
  d.writeCsv { s with rows := s.rows ++ [row] }

/-- The version passed to `new_payload`: the override, then the record's own,
then the one its fork implies. -/
def version (r : PayloadRecord) : Except Exn Json :=
  let override : Json :=
    match d.newpayloadVersion with
    | some v => .int v
    | none => .null
  if override.truthy then .ok override
  else if r.newpayloadVersion.truthy then .ok r.newpayloadVersion
  else newpayloadVersionForFork r.fork

/-- The `new_payload` call for a record. -/
def submission (r : PayloadRecord) : Except Exn EngineCall := do
  let version ← d.version r
  return .newPayload r.payload r.versionedHashes r.parentBeaconBlockRoot version
    r.executionRequests

/-- The iteration is cut off by `count`. -/
def countReached (i : ℕ) : Bool :=
  match d.count with
  | some c => c ≤ i
  | none => false

/-! The errors `run` raises itself. -/

def baseMismatch (r : PayloadRecord) (status : Json) : Exn :=
  .runtimeError
    [.text "payload file base mismatch: EL does not recognize the first payload's parent ",
      .str r.parentHash, .text " (block ", .str (.int r.blockNumber), .text ", FCU status ",
      .str status, .text "); the file must start at snapshot head + 1"]

def chainGap (r : PayloadRecord) (prevHash : Json) : Exn :=
  .runtimeError
    [.text "payload chain gap at block ", .str (.int r.blockNumber), .text ": parentHash ",
      .str r.parentHash, .text " != previous blockHash ", .str prevHash]

def unexpectedStatus (r : PayloadRecord) (status npResult : Json) : Exn :=
  .runtimeError
    [.text "newPayload returned unexpected status ", .repr status, .text " at block ",
      .str (.int r.blockNumber), .text ": ", .str npResult]

def fcuInvalid (r : PayloadRecord) (fcuResult : Json) : FString :=
  [.text "forkchoiceUpdated returned INVALID at block ", .str (.int r.blockNumber),
    .text ": ", .str fcuResult]

def fcuTimeout (r : PayloadRecord) (fcuStatus : Json) : FString :=
  [.text "forkchoiceUpdated stuck on ", .str fcuStatus, .text " for ",
    .general d.fcuWaitSeconds, .text "s at block ", .str (.int r.blockNumber)]

/-- The row `_fail` appends. -/
def failureRow (r : PayloadRecord) (npMs : ℚ) (label : FString) : Row :=
  ⟨r.blockNumber, npMs, none, none, label⟩

/-- The label of a block that was not taken. -/
def rejectedLabel : Json → FString
  | .null => [.text "NO_STATUS"]
  | status => [.str status]

/-- Parent chaining, and the base preflight where no hash is remembered. -/
def checkParent (i : ℕ) (r : PayloadRecord) (t : Turn) (s : Progress) :
    Option Exit × Progress :=
  match s.prevHash with
  | .null =>
      if d.advanceHead then
        let s := s.exchange i .preflight (.forkchoiceUpdated r.parentHash) t.base.result
        match t.base.result >>= forkchoiceStatus with
        | .error e => (some (.raised e), s)
        | .ok status =>
            if status.pyEq (.str "VALID") then (none, s)
            else (some (.raised (baseMismatch r status)), s)
      else (none, s)
  | prevHash =>
      if r.parentHash.pyEq prevHash then (none, s)
      else (some (.raised (chainGap r prevHash)), s)

/-- How the poll of one block can end. -/
inductive PollEnd where
  | landed (reply : Reply)
  | raised (e : Exn)
  | failed (label message : FString)

/-- What one poll answer decides; `none` sleeps and polls again. -/
def pollVerdict (r : PayloadRecord) (deadline : ℚ) (reply : Reply) : Option PollEnd :=
  match reply.result with
  | .error e => some (.raised e)
  | .ok fcuResult =>
      match forkchoiceStatus fcuResult with
      | .error e => some (.raised e)
      | .ok status =>
          if status.pyEq (.str "VALID") then some (.landed reply)
          else if status.pyEq (.str "INVALID") then
            some (.failed [.text "FCU_", .str status] (fcuInvalid r fcuResult))
          else if reply.later > deadline then
            some (.failed [.text "FCU_TIMEOUT_", .str status] (d.fcuTimeout r status))
          else none

/-- The polling loop for one block. -/
def poll (i : ℕ) (r : PayloadRecord) (deadline : ℚ) (polls : List Reply) (s : Progress) :
    Option PollEnd × Progress :=
  forEach
    (fun _ reply s =>
      (d.pollVerdict r deadline reply,
        s.exchange i .landing (.forkchoiceUpdated r.blockHash) reply.result))
    0 polls s

/-- The deadline of the poll that follows a `new_payload` answer. -/
def deadline (t : Turn) : ℚ := t.newPayload.later + d.fcuWaitSeconds

/-- The row of a block the driver is done with. -/
def landedRow (r : PayloadRecord) (t : Turn) (status : Json) (reply : Reply) : Row where
  blockNumber := r.blockNumber
  newPayloadMs := t.newPayload.elapsedMs
  fcuMs := some reply.elapsedMs
  syncWaitMs :=
    if status.pyEq (.str "SYNCING") then some ((reply.later - t.newPayload.later) * 1000)
    else none
  status := if status.pyEq (.str "SYNCING") then [.text "SYNCING_LANDED"] else [.str status]

/-- After an accepted payload: advance the head if asked to, then record the row. -/
def settle (i : ℕ) (r : PayloadRecord) (t : Turn) (status : Json) (s : Progress) :
    Option Exit × Progress :=
  if d.advanceHead then
    match d.poll i r (d.deadline t) t.polls s with
    | (none, s) => (some .waiting, s)
    | (some (.raised e), s) => (some (.raised e), s)
    | (some (.failed label message), s) =>
        (some (.raised (.runtimeError message)),
          d.record (failureRow r t.newPayload.elapsedMs label) s)
    | (some (.landed reply), s) =>
        let row := landedRow r t status reply
        (none, d.record row
          { s with
            fcuMs := s.fcuMs ++ row.fcuMs.toList
            syncWaitMs := s.syncWaitMs ++ row.syncWaitMs.toList })
  else
    (none, d.record ⟨r.blockNumber, t.newPayload.elapsedMs, none, none, [.str status]⟩ s)

/-- Send the payload and act on its status. -/
def submit (i : ℕ) (r : PayloadRecord) (t : Turn) (s : Progress) : Option Exit × Progress :=
  let s := { s with prevHash := r.blockHash }
  match d.submission r with
  | .error e => (some (.raised e), s)
  | .ok call =>
      let s := s.exchange i .submission call t.newPayload.result
      match t.newPayload.result with
      | .error e => (some (.raised e), s)
      | .ok npResult =>
          let s := { s with newPayloadMs := s.newPayloadMs ++ [t.newPayload.elapsedMs] }
          match payloadStatus npResult with
          | .error e => (some (.raised e), s)
          | .ok status =>
              if accepted status then d.settle i r t status s
              else
                (some (.raised (unexpectedStatus r status npResult)),
                  d.record (failureRow r t.newPayload.elapsedMs (rejectedLabel status)) s)

/-- One iteration of the loop over the records. -/
def turn (i : ℕ) (step : PayloadRecord × Turn) (s : Progress) : Option Exit × Progress :=
  if d.countReached i || step.2.stopSet then (some .stop, s)
  else
    match d.checkParent i step.1 step.2 s with
    | (none, s) => d.submit i step.1 step.2 s
    | exit => exit

/-- The returned dictionary. -/
def summary (s : Progress) : Summary where
  blocks := s.rows.length
  newPayloadMsP50 := percentile s.newPayloadMs 50
  newPayloadMsP95 := percentile s.newPayloadMs 95
  fcuMsP50 := percentile s.fcuMs 50
  fcuMsP95 := percentile s.fcuMs 95
  syncWaitMsP50 := percentile s.syncWaitMs 50
  syncWaitMsP95 := percentile s.syncWaitMs 95

/-- `ReplayDriver.run`, on records paired with the behaviour met in each
iteration, where `content` is what the latency file held before. -/
def run (content : Option String) (steps : List (PayloadRecord × Turn)) :
    Outcome × Progress :=
  match forEach d.turn 0 steps (.start content) with
  | (some (.raised e), s) => (.raised e, s)
  | (some .waiting, s) => (.waiting, s)
  | (_, s) => (.returned (summary (d.writeCsv s)), d.writeCsv s)

end ReplayDriver

end StateBenchmarks.MockCl
