/-
# The latency file of a replay

The rows and the file are updated at several places of one iteration, and an
iteration can be left at every one of them.  A row is missing at the end exactly
when an exception leaves `run` between the answer of `new_payload` and the row:
from a poll, or from reading an answer that is not an object.  The failures that
`run` raises itself go through `_fail`, which records the row first.

The file is written for the first time with the first row, so a run that fails
before that leaves the file of an earlier run where it was.
-/

import StateBenchmarks.MockCl.ReplayRuns
import Mathlib.Data.List.Forall2

namespace StateBenchmarks.MockCl

open Python Control

/-- A `new_payload` call that returned. -/
def Exchange.returned (x : Exchange) : Bool :=
  match x.site, x.result with
  | .submission, .ok _ => true
  | _, _ => false

/-- The `new_payload` calls of a trace that returned. -/
def returnedCalls (trace : List Exchange) : List Exchange := trace.filter Exchange.returned

theorem returnedCalls_append (front back : List Exchange) :
    returnedCalls (front ++ back) = returnedCalls front ++ returnedCalls back := by
  simp [returnedCalls]

@[simp]
theorem returnedCalls_nil : returnedCalls [] = [] := rfl

@[simp]
theorem returnedCalls_pollExchanges (i : ℕ) (r : PayloadRecord) (replies : List Reply) :
    returnedCalls (Progress.pollExchanges i r replies) = [] := by
  simp [returnedCalls, Progress.pollExchanges, Exchange.returned]

/-- What `_maybe_write_csv([])` writes. -/
def emptyCsv : String := "block_number,new_payload_ms,fcu_ms,sync_wait_ms,status\r\n"

/-- The row is that of the record the call was made for. -/
def RowOf (steps : List (PayloadRecord × Turn)) (x : Exchange) (row : Row) : Prop :=
  ∃ r t, steps[x.turn]? = some (r, t) ∧ row.blockNumber = r.blockNumber ∧
    row.newPayloadMs = t.newPayload.elapsedMs

/-- The file has one row for each returned call and no others.  A file this run
never wrote qualifies only as a bare header, when no call returned. -/
def TellsRun (steps : List (PayloadRecord × Turn)) (trace : List Exchange) :
    LatencyFile → Prop
  | .written rows => List.Forall₂ (RowOf steps) (returnedCalls trace) rows
  | .earlier content => content = some emptyCsv ∧ returnedCalls trace = []

/-- However the run ends, its file tells what it did. -/
def CsvExact (steps : List (PayloadRecord × Turn)) (result : Outcome × Progress) : Prop :=
  result.1 ≠ .waiting → TellsRun steps result.2.trace result.2.file

namespace ReplayDriver

variable (d : ReplayDriver)

/-- `new_payload` is called and returns. -/
def Answers (i : ℕ) (r : PayloadRecord) (t : Turn) (prevHash : Json) : Prop :=
  (∃ call, d.Sent i r t call prevHash) ∧ ∃ answer, t.newPayload.result = .ok answer

/-- `new_payload` returns, and an exception then escapes: its answer is no
object, or a poll raises or answers with no object. -/
def LosesRow (i : ℕ) (r : PayloadRecord) (t : Turn) (prevHash : Json) : Prop :=
  d.Answers i r t prevHash ∧
    ((∃ e, t.newPayload.result >>= payloadStatus = .error e) ∨
      (∃ status, Takes t status) ∧ d.advanceHead = true ∧
        ∃ e, d.pollEnd r t = some (.raised e))

/-- No record the run gets to loses its row, and if the run fails before the
first row, there is no older file in the way. -/
structure KeepsRows (content : Option String) (steps : List (PayloadRecord × Turn)) : Prop where
  recorded : ∀ k r t, d.Reaches steps k → steps[k]? = some (r, t) →
    ¬ d.LosesRow k r t (prevHashAt steps k)
  fresh : ∀ r t, steps[0]? = some (r, t) → ¬ d.Cut 0 t → ¬ d.Answers 0 r t .null →
    content = some emptyCsv

/-- What one iteration does to the rows and the file, next to the `new_payload`
call it may have completed. -/
inductive RowStep (i : ℕ) (r : PayloadRecord) (t : Turn) (s : Progress) :
    Option Exit → Progress → Prop
  /-- Cut off. -/
  | stopped (hcut : d.Cut i t) : RowStep i r t s (some .stop) s
  /-- Left before `new_payload` returned. -/
  | unanswered (e : Exn) (s' : Progress) (hcut : ¬ d.Cut i t)
      (hanswers : ¬ d.Answers i r t s.prevHash) (hrows : s'.rows = s.rows)
      (hfile : s'.file = s.file) (hcalls : returnedCalls s'.trace = returnedCalls s.trace) :
      RowStep i r t s (some (.raised e)) s'
  /-- Left between the answer and the row. -/
  | lost (e : Exn) (call : EngineCall) (s' : Progress) (hloses : d.LosesRow i r t s.prevHash)
      (hrows : s'.rows = s.rows) (hfile : s'.file = s.file)
      (hcalls : returnedCalls s'.trace =
        returnedCalls s.trace ++ [⟨i, .submission, call, t.newPayload.result⟩]) :
      RowStep i r t s (some (.raised e)) s'
  /-- Not over yet. -/
  | waiting (s' : Progress) (hanswers : d.Answers i r t s.prevHash)
      (hkeeps : ¬ d.LosesRow i r t s.prevHash) : RowStep i r t s (some .waiting) s'
  /-- The row was recorded and flushed. -/
  | recorded (exit : Option Exit) (call : EngineCall) (row : Row) (s' : Progress)
      (hanswers : d.Answers i r t s.prevHash) (hkeeps : ¬ d.LosesRow i r t s.prevHash)
      (hexit : exit = none ∨ ∃ e, exit = some (.raised e))
      (hnumber : row.blockNumber = r.blockNumber)
      (hms : row.newPayloadMs = t.newPayload.elapsedMs) (hrows : s'.rows = s.rows ++ [row])
      (hfile : s'.file = .written s'.rows)
      (hcalls : returnedCalls s'.trace =
        returnedCalls s.trace ++ [⟨i, .submission, call, t.newPayload.result⟩]) :
      RowStep i r t s exit s'

section Frames

variable (i : ℕ) (r : PayloadRecord) (t : Turn) (s : Progress)

@[simp]
theorem returnedCalls_preflightCalls (prevHash : Json) :
    returnedCalls (d.preflightCalls i r t prevHash) = [] := by
  unfold preflightCalls
  split
  · split <;> rfl
  · rfl

theorem returnedCalls_submission (call : EngineCall) {answer : Json} (rest : List Exchange)
    (h : t.newPayload.result = .ok answer) :
    returnedCalls (⟨i, .submission, call, t.newPayload.result⟩ :: rest) =
      ⟨i, .submission, call, t.newPayload.result⟩ :: returnedCalls rest :=
  List.filter_cons_of_pos (by simp [Exchange.returned, h])

/-- The trace after an answer has one returned call more. -/
theorem returnedCalls_answered (call : EngineCall) {answer : Json}
    (h : t.newPayload.result = .ok answer) :
    returnedCalls (d.answered i r t call s).trace =
      returnedCalls s.trace ++ [⟨i, .submission, call, t.newPayload.result⟩] := by
  simp [answered, submitted, returnedCalls_append, returnedCalls_submission i t call _ h]

@[simp]
theorem returnedCalls_polled (replies : List Reply) :
    returnedCalls (s.polled i r replies).trace = returnedCalls s.trace := by
  simp [Progress.polled, returnedCalls_append]

end Frames

variable {d} {content : Option String} {steps : List (PayloadRecord × Turn)} {i k : ℕ}
  {r : PayloadRecord} {t : Turn} {s : Progress} {prevHash : Json}

/-- A taken payload loses its row through its poll or not at all. -/
theorem losesRow_iff_of_takes {status : Json} (hanswers : d.Answers i r t prevHash)
    (htakes : Takes t status) :
    d.LosesRow i r t prevHash ↔
      d.advanceHead = true ∧ ∃ e, d.pollEnd r t = some (.raised e) := by
  constructor
  · rintro ⟨-, ⟨e, herror⟩ | ⟨-, hadvance, hpoll⟩⟩
    · cases htakes.1.symm.trans herror
    · exact ⟨hadvance, hpoll⟩
  · rintro ⟨hadvance, hpoll⟩
    exact ⟨hanswers, Or.inr ⟨⟨status, htakes⟩, hadvance, hpoll⟩⟩

/-- A payload that was taken was answered. -/
theorem answers_of_takes {call : EngineCall} {status : Json}
    (hsent : d.Sent i r t call prevHash) (htakes : Takes t status) :
    d.Answers i r t prevHash := by
  refine ⟨⟨call, hsent⟩, ?_⟩
  obtain ⟨hstatus, -⟩ := htakes
  rcases hresult : t.newPayload.result with e | answer
  · rw [hresult] at hstatus
    cases hstatus
  · exact ⟨answer, rfl⟩

/-- A taken payload whose poll does not raise keeps its row. -/
theorem not_losesRow_of_takes {call : EngineCall} {status : Json}
    (hsent : d.Sent i r t call prevHash) (htakes : Takes t status)
    (hpoll : ∀ e, d.pollEnd r t ≠ some (.raised e)) : ¬ d.LosesRow i r t prevHash := by
  rw [losesRow_iff_of_takes (answers_of_takes hsent htakes) htakes]
  rintro ⟨-, e, herror⟩
  exact hpoll e herror

/-- The step lemma, case by case of what an iteration can do. -/
theorem turn_rowStep (hcsv : d.KeepsCsv) (i : ℕ) (r : PayloadRecord) (t : Turn) (s : Progress) :
    d.RowStep i r t s (d.turn i (r, t) s).1 (d.turn i (r, t) s).2 := by
  have hstep := d.turn_step i r t s
  generalize d.turn i (r, t) s = result at hstep
  cases hstep with
  | stopped hcut => exact .stopped hcut
  | refused e hcut hparent =>
      refine .unanswered e _ hcut ?_ (by simp) (by simp) (by simp [returnedCalls_append])
      rintro ⟨⟨call, hsent⟩, -⟩
      exact hparent hsent.parentOk
  | unversioned e hcut hparent hcall =>
      refine .unanswered e _ hcut ?_ (by simp) (by simp) (by simp [returnedCalls_append])
      rintro ⟨⟨call, hsent⟩, -⟩
      cases hsent.call_eq.symm.trans hcall
  | escaped e call hsent hresult =>
      refine .unanswered e _ hsent.notCut ?_ (by simp) (by simp) ?_
      · rintro ⟨-, answer, hanswer⟩
        cases hresult.symm.trans hanswer
      · simp [submitted, returnedCalls_append]
        simp [returnedCalls, Exchange.returned, hresult]
  | unreadable e call answer hsent hanswer hstatus =>
      refine .lost e call _ ⟨⟨⟨call, hsent⟩, answer, hanswer⟩, Or.inl ⟨e, ?_⟩⟩
        (by simp) (by simp) (d.returnedCalls_answered i r t s call hanswer)
      rw [hanswer]
      exact hstatus
  | rejected call answer status hsent hanswer hstatus hrejected =>
      have hread : (t.newPayload.result >>= payloadStatus) = .ok status := by
        rw [hanswer]
        exact hstatus
      refine .recorded _ call _ _ ⟨⟨call, hsent⟩, answer, hanswer⟩ ?_ (Or.inr ⟨_, rfl⟩) rfl rfl
        (by rw [record_rows, answered_rows]) (d.record_file hcsv _ _)
        (by rw [record_trace, d.returnedCalls_answered i r t s call hanswer])
      rintro ⟨-, ⟨e, herror⟩ | ⟨⟨status', hread', haccepted⟩, -⟩⟩
      · cases hread.symm.trans herror
      · obtain rfl := Except.ok.inj (hread.symm.trans hread')
        rw [hrejected] at haccepted
        cases haccepted
  | executed call status hsent htakes hadvance =>
      have hanswers := answers_of_takes hsent htakes
      obtain ⟨answer, hanswer⟩ := hanswers.2
      refine .recorded _ call _ _ hanswers ?_ (Or.inl rfl) rfl rfl
        (by rw [record_rows, answered_rows]) (d.record_file hcsv _ _)
        (by rw [record_trace, d.returnedCalls_answered i r t s call hanswer])
      rw [losesRow_iff_of_takes hanswers htakes, hadvance]
      exact fun h => Bool.false_ne_true h.1
  | polling call status hsent htakes hadvance hpoll =>
      refine .waiting _ (answers_of_takes hsent htakes) ?_
      exact not_losesRow_of_takes hsent htakes fun e => by simp [hpoll]
  | lost e call status replies hsent htakes hadvance hpoll =>
      have hanswers := answers_of_takes hsent htakes
      obtain ⟨answer, hanswer⟩ := hanswers.2
      exact .lost e call _ ((losesRow_iff_of_takes hanswers htakes).mpr ⟨hadvance, e, hpoll⟩)
        (by simp) (by simp) (by simp [d.returnedCalls_answered i r t s call hanswer])
  | failed call status label message replies hsent htakes hadvance hpoll =>
      have hanswers := answers_of_takes hsent htakes
      obtain ⟨answer, hanswer⟩ := hanswers.2
      exact .recorded _ call _ _ hanswers
        (not_losesRow_of_takes hsent htakes fun e => by simp [hpoll]) (Or.inr ⟨_, rfl⟩) rfl rfl
        (by rw [record_rows, Progress.polled_rows, answered_rows]) (d.record_file hcsv _ _)
        (by simp [d.returnedCalls_answered i r t s call hanswer])
  | landed call status front reply fcuMs syncWaitMs hsent htakes hadvance hpoll hvalid =>
      have hanswers := answers_of_takes hsent htakes
      obtain ⟨answer, hanswer⟩ := hanswers.2
      exact .recorded _ call _ _ hanswers
        (not_losesRow_of_takes hsent htakes fun e => by simp [hpoll]) (Or.inl rfl) rfl rfl
        (by rw [record_rows, Progress.polled_rows, answered_rows]) (d.record_file hcsv _ _)
        (by simp [d.returnedCalls_answered i r t s call hanswer])

/-- The invariant on arrival: the rows match the calls, and the file has them
once there is one to have. -/
structure RowsKept (content : Option String) (steps : List (PayloadRecord × Turn)) (k : ℕ)
    (s : Progress) : Prop where
  rows : List.Forall₂ (RowOf steps) (returnedCalls s.trace) s.rows
  file : k = 0 ∧ s.file = .earlier content ∧ returnedCalls s.trace = [] ∨
    s.file = .written s.rows

/-- A recorded row keeps the rows and the calls matched. -/
theorem RowsKept.record {call : EngineCall} {row : Row} (h : RowsKept content steps k s)
    (hitem : steps[k]? = some (r, t)) (hnumber : row.blockNumber = r.blockNumber)
    (hms : row.newPayloadMs = t.newPayload.elapsedMs) :
    List.Forall₂ (RowOf steps)
      (returnedCalls s.trace ++ [⟨k, .submission, call, t.newPayload.result⟩])
      (s.rows ++ [row]) := by
  apply List.rel_append h.rows
  exact .cons ⟨r, t, hitem, hnumber, hms⟩ .nil

theorem rowsKept_of_arrives (hcsv : d.KeepsCsv)
    (h : Arrives d.turn steps (.start content) k s) : RowsKept content steps k s := by
  induction h with
  | start => exact ⟨.nil, Or.inl ⟨rfl, rfl, rfl⟩⟩
  | @next k step s s' here item falls ih =>
      obtain ⟨r, t⟩ := step
      have hstep := turn_rowStep hcsv k r t s
      rw [falls] at hstep
      cases hstep with
      | recorded _ call row _ hanswers hkeeps hexit hnumber hms hrows hfile hcalls =>
          refine ⟨?_, Or.inr hfile⟩
          rw [hcalls, hrows]
          exact ih.record item hnumber hms

/-- Returning flushes the rows. -/
theorem RowsKept.csvExact_returned (hcsv : d.KeepsCsv) (h : RowsKept content steps k s) :
    CsvExact steps (d.ending none s) := by
  intro _
  rw [ending_trace]
  show TellsRun steps s.trace (d.writeCsv s).file
  rw [d.writeCsv_file hcsv]
  exact h.rows

/-- An iteration that loses its row ends the run with a file that lacks it. -/
theorem not_csvExact_of_losesRow (hcsv : d.KeepsCsv) (hreaches : d.Reaches steps k)
    (hitem : steps[k]? = some (r, t)) (hloses : d.LosesRow k r t (prevHashAt steps k)) :
    ¬ CsvExact steps (d.run content steps) := by
  obtain ⟨s, hs⟩ : ∃ s, Arrives d.turn steps (.start content) k s := arrives_iff.mpr hreaches
  rw [← prevHash_of_arrives hs] at hloses
  have hkept := rowsKept_of_arrives hcsv hs
  have hstep := turn_rowStep hcsv k r t s
  rcases hturn : d.turn k (r, t) s with ⟨exit, s'⟩
  rw [hturn] at hstep
  cases hstep with
  | stopped hcut =>
      obtain ⟨⟨⟨call, hsent⟩, -⟩, -⟩ := hloses
      exact absurd hcut hsent.notCut
  | unanswered e _ hcut hanswers => exact absurd hloses.1 hanswers
  | waiting _ hanswers hkeeps => exact absurd hloses hkeeps
  | recorded _ _ _ _ hanswers hkeeps => exact absurd hloses hkeeps
  | lost e call _ _ hrows hfile hcalls =>
      intro hexact
      rw [run_eq_of_leaves hs hitem hturn] at hexact
      have htells : TellsRun steps s'.trace s'.file := hexact nofun
      rw [hfile] at htells
      rcases hkept.file with ⟨-, hearlier, -⟩ | hwritten
      · rw [hearlier] at htells
        have hnone := htells.2
        rw [hcalls] at hnone
        simp at hnone
      · rw [hwritten] at htells
        have hlength := List.Forall₂.length_eq htells
        rw [hcalls, ← List.Forall₂.length_eq hkept.rows] at hlength
        simp at hlength

/-- A run that fails before the first row leaves the file as it was. -/
theorem content_of_unanswered (hcsv : d.KeepsCsv) (hitem : steps[0]? = some (r, t))
    (hcut : ¬ d.Cut 0 t) (hanswers : ¬ d.Answers 0 r t .null)
    (hexact : CsvExact steps (d.run content steps)) : content = some emptyCsv := by
  have hs : Arrives d.turn steps (.start content) 0 (.start content) := .start
  have hstep := turn_rowStep hcsv 0 r t (.start content)
  rcases hturn : d.turn 0 (r, t) (.start content) with ⟨exit, s'⟩
  rw [hturn] at hstep
  cases hstep with
  | stopped hcut' => exact absurd hcut' hcut
  | unanswered e _ _ _ hrows hfile hcalls =>
      rw [run_eq_of_leaves hs hitem hturn] at hexact
      have htells : TellsRun steps s'.trace s'.file := hexact nofun
      rw [hfile] at htells
      exact htells.1
  | lost e call _ hloses => exact absurd hloses.1 hanswers
  | waiting _ hanswers' => exact absurd hanswers' hanswers
  | recorded _ _ _ _ hanswers' => exact absurd hanswers' hanswers

/-- **The file tells the run exactly when no row is lost.** -/
theorem run_csvExact_iff (d : ReplayDriver) (hcsv : d.KeepsCsv) (content : Option String)
    (steps : List (PayloadRecord × Turn)) :
    CsvExact steps (d.run content steps) ↔ d.KeepsRows content steps := by
  constructor
  · intro hexact
    refine ⟨?_, ?_⟩
    · intro k r t hreaches hitem hloses
      exact not_csvExact_of_losesRow hcsv hreaches hitem hloses hexact
    · intro r t hitem hcut hanswers
      exact content_of_unanswered hcsv hitem hcut hanswers hexact
  · intro hkeeps
    rcases d.run_cases content steps with
      ⟨s, hs, hrun⟩ | ⟨k, r, t, s, exit, s', hs, item, hturn, hrun⟩
    · rw [hrun]
      exact (rowsKept_of_arrives hcsv hs).csvExact_returned hcsv
    · have hkept := rowsKept_of_arrives hcsv hs
      have hprev := prevHash_of_arrives hs
      have hstep := turn_rowStep hcsv k r t s
      rw [hturn] at hstep
      rw [hrun]
      cases hstep with
      | stopped hcut => exact hkept.csvExact_returned hcsv
      | waiting => exact fun hended => absurd rfl hended
      | lost e call _ hloses =>
          rw [hprev] at hloses
          exact absurd hloses (hkeeps.recorded k r t (arrives_iff.mp ⟨s, hs⟩) item)
      | recorded _ call row _ hanswers hnotLost hexit hnumber hms hrows hfile hcalls =>
          obtain ⟨e, rfl⟩ : ∃ e, exit = .raised e := by simpa using hexit
          intro _
          show TellsRun steps s'.trace s'.file
          rw [hfile, hrows]
          show List.Forall₂ (RowOf steps) (returnedCalls s'.trace) (s.rows ++ [row])
          rw [hcalls]
          exact hkept.record item hnumber hms
      | unanswered e _ hcut hanswers hrows hfile hcalls =>
          intro _
          show TellsRun steps s'.trace s'.file
          rw [hfile]
          rcases hkept.file with ⟨rfl, hearlier, hnone⟩ | hwritten
          · rw [hearlier]
            rw [hprev] at hanswers
            exact ⟨hkeeps.fresh r t item hcut hanswers, by rw [hcalls, hnone]⟩
          · rw [hwritten]
            show List.Forall₂ (RowOf steps) (returnedCalls s'.trace) s.rows
            rw [hcalls]
            exact hkept.rows

/-- The client takes the only block and then drops the connection. -/
def dropped : Turn where
  stopSet := false
  base := ⟨.ok (.obj [("payloadStatus", .obj [("status", .str "VALID")])]), 0, 0, 0⟩
  newPayload := ⟨.ok (.obj [("status", .str "VALID")]), 0, 0, 0⟩
  polls := [⟨.error (.external "ConnectionError"), 0, 0, 0⟩]

/-- The record of a block whose payload has both hashes. -/
def hashedRecord : PayloadRecord where
  payload := [("parentHash", .str "0x01"), ("blockHash", .str "0x02")]
  blockHash := .str "0x02"
  blockNumber := 1
  versionedHashes := .null
  parentBeaconBlockRoot := .str zeroBeaconRoot
  fork := .null
  executionRequests := .null
  newpayloadVersion := .null

/-- A replay of one block that flushes its rows. -/
def flushingReplay : ReplayDriver where
  advanceHead := true
  count := none
  latencyCsv := some "latency.csv"
  newpayloadVersion := none
  fcuWaitSeconds := 600

/-- The block was executed, and the file still holds the rows of an older run. -/
theorem dropped_not_csvExact :
    ¬ CsvExact [(hashedRecord, dropped)]
      (flushingReplay.run (some "rows of an older run") [(hashedRecord, dropped)]) := by
  intro h
  obtain ⟨hcontent, -⟩ := h nofun
  exact absurd hcontent (by decide)

/-- The same turn, with the poll answered. -/
def accepting : Turn := { dropped with polls := [dropped.base] }

/-- With no connection lost, the older rows give way to those of this run. -/
theorem accepting_csvExact :
    CsvExact [(hashedRecord, accepting)]
      (flushingReplay.run (some "rows of an older run") [(hashedRecord, accepting)]) := by
  apply (run_csvExact_iff flushingReplay ⟨"latency.csv", by decide, rfl⟩ _ _).mpr
  constructor
  · rintro (_ | k) r t - hitem hloses
    · obtain ⟨rfl, rfl⟩ := Prod.mk.inj (Option.some.inj hitem)
      obtain ⟨-, ⟨e, herror⟩ | ⟨-, -, e, hpoll⟩⟩ := hloses
      · exact absurd (show Except.ok (Json.str "VALID") = Except.error e from herror) nofun
      · exact absurd (show some (PollEnd.landed dropped.base) = some (.raised e) from hpoll) nofun
    · exact absurd (show none = some (r, t) from hitem) nofun
  · intro r t hitem hcut hanswers
    obtain ⟨rfl, rfl⟩ := Prod.mk.inj (Option.some.inj hitem)
    exact absurd ⟨⟨_, hcut, fun _ => rfl, rfl⟩, _, rfl⟩ hanswers

end ReplayDriver

end StateBenchmarks.MockCl
