/-
# What one iteration of the replay can do

The loop body of `ReplayDriver.run` has eleven ways to end.  This module states
them once, each with the inputs that lead to it and the exact state it leaves,
and derives every later fact about runs from that list.

It also describes the iterations that fall through in terms of inputs alone
(`Lands`): the record passes its parent check, the payload is taken, and the
poll sees the block land.  A run reaches record `k` exactly when every earlier
iteration lands, which is what lets a condition on a run be read off its inputs.
-/

import StateBenchmarks.MockCl.Replay

namespace StateBenchmarks.MockCl

open Python Control

namespace Progress

variable (s : Progress) (turn : ℕ) (site : CallSite) (call : EngineCall)
  (result : Except Exn Json)

@[simp]
theorem exchange_trace :
    (s.exchange turn site call result).trace = s.trace ++ [⟨turn, site, call, result⟩] := rfl

@[simp]
theorem exchange_rows : (s.exchange turn site call result).rows = s.rows := rfl

@[simp]
theorem exchange_file : (s.exchange turn site call result).file = s.file := rfl

@[simp]
theorem exchange_prevHash : (s.exchange turn site call result).prevHash = s.prevHash := rfl

/-- The exchanges of a poll for `r` in iteration `turn`. -/
def pollExchanges (turn : ℕ) (r : PayloadRecord) (replies : List Reply) : List Exchange :=
  replies.map fun reply => ⟨turn, .landing, .forkchoiceUpdated r.blockHash, reply.result⟩

/-- The state after polling through `replies`. -/
def polled (turn : ℕ) (r : PayloadRecord) (replies : List Reply) : Progress :=
  { s with trace := s.trace ++ pollExchanges turn r replies }

@[simp]
theorem polled_rows (r : PayloadRecord) (replies : List Reply) :
    (s.polled turn r replies).rows = s.rows := rfl

@[simp]
theorem polled_file (r : PayloadRecord) (replies : List Reply) :
    (s.polled turn r replies).file = s.file := rfl

theorem foldl_exchange_eq_polled (r : PayloadRecord) (replies : List Reply) :
    replies.foldl
        (fun s reply => s.exchange turn .landing (.forkchoiceUpdated r.blockHash) reply.result)
        s =
      s.polled turn r replies := by
  induction replies generalizing s with
  | nil => simp [polled, pollExchanges]
  | cons reply rest ih =>
      rw [List.foldl_cons, ih]
      simp [polled, pollExchanges, exchange]

end Progress

namespace ReplayDriver

variable (d : ReplayDriver)

@[simp]
theorem writeCsv_trace (s : Progress) : (d.writeCsv s).trace = s.trace := by
  unfold writeCsv
  split <;> rfl

@[simp]
theorem writeCsv_rows (s : Progress) : (d.writeCsv s).rows = s.rows := by
  unfold writeCsv
  split <;> rfl

@[simp]
theorem writeCsv_prevHash (s : Progress) : (d.writeCsv s).prevHash = s.prevHash := by
  unfold writeCsv
  split <;> rfl

/-- A latency file is kept: a non-empty path was given. -/
def KeepsCsv : Prop := ∃ path, path ≠ "" ∧ d.latencyCsv = some path

theorem writeCsv_file (hcsv : d.KeepsCsv) (s : Progress) :
    (d.writeCsv s).file = .written s.rows := by
  obtain ⟨path, hpath, hsome⟩ := hcsv
  unfold writeCsv
  split
  · simp_all
  · simp_all
  · rfl

@[simp]
theorem record_trace (row : Row) (s : Progress) : (d.record row s).trace = s.trace := by
  simp [record]

@[simp]
theorem record_rows (row : Row) (s : Progress) :
    (d.record row s).rows = s.rows ++ [row] := by
  simp [record]

@[simp]
theorem record_prevHash (row : Row) (s : Progress) :
    (d.record row s).prevHash = s.prevHash := by
  simp [record]

theorem record_file (hcsv : d.KeepsCsv) (row : Row) (s : Progress) :
    (d.record row s).file = .written (d.record row s).rows := by
  rw [record_rows, record, writeCsv_file d hcsv]

/-- The iteration is cut off before it looks at its record. -/
def Cut (i : ℕ) (t : Turn) : Prop := d.countReached i = true ∨ t.stopSet = true

/-- The record passes its parent check against the remembered hash; with no hash
remembered, the base preflight is answered `VALID` if there is one. -/
def ParentOk (r : PayloadRecord) (t : Turn) (prevHash : Json) : Prop :=
  match prevHash with
  | .null =>
      d.advanceHead = true → t.base.result >>= forkchoiceStatus = .ok (.str "VALID")
  | prevHash => r.parentHash.pyEq prevHash = true

/-- The engine took the payload, answering with this status. -/
def Takes (t : Turn) (status : Json) : Prop :=
  (t.newPayload.result >>= payloadStatus) = .ok status ∧ accepted status = true

/-- How the poll of the block ends, if it does. -/
def pollEnd (r : PayloadRecord) (t : Turn) : Option PollEnd :=
  t.polls.findSome? (d.pollVerdict r (d.deadline t))

/-- The block landed: its poll ended with a `VALID` answer. -/
def PollLands (r : PayloadRecord) (t : Turn) : Prop :=
  ∃ reply, d.pollEnd r t = some (.landed reply)

/-- The iteration falls through to the next record. -/
structure Lands (i : ℕ) (r : PayloadRecord) (t : Turn) (prevHash : Json) : Prop where
  notCut : ¬ d.Cut i t
  parentOk : d.ParentOk r t prevHash
  submitted : ∃ call, d.submission r = .ok call
  takes : ∃ status, Takes t status
  lands : d.advanceHead = true → d.PollLands r t

/-- The state after the base preflight, if one is sent. -/
def preflighted (i : ℕ) (r : PayloadRecord) (t : Turn) (s : Progress) : Progress :=
  match s.prevHash with
  | .null =>
      if d.advanceHead then
        s.exchange i .preflight (.forkchoiceUpdated r.parentHash) t.base.result
      else s
  | _ => s

@[simp]
theorem preflighted_rows (i : ℕ) (r : PayloadRecord) (t : Turn) (s : Progress) :
    (d.preflighted i r t s).rows = s.rows := by
  unfold preflighted
  split
  · split <;> rfl
  · rfl

@[simp]
theorem preflighted_file (i : ℕ) (r : PayloadRecord) (t : Turn) (s : Progress) :
    (d.preflighted i r t s).file = s.file := by
  unfold preflighted
  split
  · split <;> rfl
  · rfl

/-- The state once `new_payload` has answered or raised. -/
def submitted (i : ℕ) (r : PayloadRecord) (t : Turn) (call : EngineCall) (s : Progress) :
    Progress :=
  ({ d.preflighted i r t s with prevHash := r.blockHash }).exchange i .submission call
    t.newPayload.result

/-- The state once the latency of a returned `new_payload` is noted. -/
def answered (i : ℕ) (r : PayloadRecord) (t : Turn) (call : EngineCall) (s : Progress) :
    Progress :=
  let s := d.submitted i r t call s
  { s with newPayloadMs := s.newPayloadMs ++ [t.newPayload.elapsedMs] }

@[simp]
theorem submitted_rows (i : ℕ) (r : PayloadRecord) (t : Turn) (call : EngineCall)
    (s : Progress) : (d.submitted i r t call s).rows = s.rows := by
  simp [submitted]

@[simp]
theorem submitted_file (i : ℕ) (r : PayloadRecord) (t : Turn) (call : EngineCall)
    (s : Progress) : (d.submitted i r t call s).file = s.file := by
  simp [submitted]

@[simp]
theorem answered_rows (i : ℕ) (r : PayloadRecord) (t : Turn) (call : EngineCall)
    (s : Progress) : (d.answered i r t call s).rows = s.rows := by
  simp [answered]

@[simp]
theorem answered_file (i : ℕ) (r : PayloadRecord) (t : Turn) (call : EngineCall)
    (s : Progress) : (d.answered i r t call s).file = s.file := by
  simp [answered]

/-- What the caller learns from a `new_payload` that was sent. -/
structure Sent (i : ℕ) (r : PayloadRecord) (t : Turn) (call : EngineCall) (prevHash : Json) :
    Prop where
  notCut : ¬ d.Cut i t
  parentOk : d.ParentOk r t prevHash
  call_eq : d.submission r = .ok call

/-- Every way one iteration can end, with the state it leaves. -/
inductive TurnStep (i : ℕ) (r : PayloadRecord) (t : Turn) (s : Progress) :
    Option Exit × Progress → Prop
  /-- `count` or the stop event. -/
  | stopped (hcut : d.Cut i t) : TurnStep i r t s (some .stop, s)
  /-- A chain gap, a base mismatch, or a preflight that raised. -/
  | refused (e : Exn) (hcut : ¬ d.Cut i t) (hparent : ¬ d.ParentOk r t s.prevHash) :
      TurnStep i r t s (some (.raised e), d.preflighted i r t s)
  /-- The fork of the record is not text. -/
  | unversioned (e : Exn) (hcut : ¬ d.Cut i t) (hparent : d.ParentOk r t s.prevHash)
      (hcall : d.submission r = .error e) :
      TurnStep i r t s
        (some (.raised e), { d.preflighted i r t s with prevHash := r.blockHash })
  /-- `new_payload` raised. -/
  | escaped (e : Exn) (call : EngineCall) (hsent : d.Sent i r t call s.prevHash)
      (hresult : t.newPayload.result = .error e) :
      TurnStep i r t s (some (.raised e), d.submitted i r t call s)
  /-- `new_payload` returned something without a `get` method. -/
  | unreadable (e : Exn) (call : EngineCall) (answer : Json) (hsent : d.Sent i r t call s.prevHash)
      (hresult : t.newPayload.result = .ok answer) (hstatus : payloadStatus answer = .error e) :
      TurnStep i r t s (some (.raised e), d.answered i r t call s)
  /-- The block was not taken. -/
  | rejected (call : EngineCall) (answer status : Json)
      (hsent : d.Sent i r t call s.prevHash) (hresult : t.newPayload.result = .ok answer)
      (hstatus : payloadStatus answer = .ok status) (hrejected : accepted status = false) :
      TurnStep i r t s
        (some (.raised (unexpectedStatus r status answer)),
          d.record (failureRow r t.newPayload.elapsedMs (rejectedLabel status))
            (d.answered i r t call s))
  /-- Taken, and the head is not to be advanced. -/
  | executed (call : EngineCall) (status : Json) (hsent : d.Sent i r t call s.prevHash)
      (htakes : Takes t status) (hadvance : d.advanceHead = false) :
      TurnStep i r t s
        (none,
          d.record ⟨r.blockNumber, t.newPayload.elapsedMs, none, none, [.str status]⟩
            (d.answered i r t call s))
  /-- Taken, and still polling. -/
  | polling (call : EngineCall) (status : Json) (hsent : d.Sent i r t call s.prevHash)
      (htakes : Takes t status) (hadvance : d.advanceHead = true)
      (hpoll : d.pollEnd r t = none) :
      TurnStep i r t s (some .waiting, (d.answered i r t call s).polled i r t.polls)
  /-- Taken, and a poll call raised or returned something unreadable. -/
  | lost (e : Exn) (call : EngineCall) (status : Json) (replies : List Reply)
      (hsent : d.Sent i r t call s.prevHash) (htakes : Takes t status)
      (hadvance : d.advanceHead = true) (hpoll : d.pollEnd r t = some (.raised e)) :
      TurnStep i r t s (some (.raised e), (d.answered i r t call s).polled i r replies)
  /-- Taken, then found `INVALID` or out of time. -/
  | failed (call : EngineCall) (status : Json) (label message : FString)
      (replies : List Reply) (hsent : d.Sent i r t call s.prevHash) (htakes : Takes t status)
      (hadvance : d.advanceHead = true) (hpoll : d.pollEnd r t = some (.failed label message)) :
      TurnStep i r t s
        (some (.raised (.runtimeError message)),
          d.record (failureRow r t.newPayload.elapsedMs label)
            ((d.answered i r t call s).polled i r replies))
  /-- Taken and landed. -/
  | landed (call : EngineCall) (status : Json) (front : List Reply) (reply : Reply)
      (fcuMs syncWaitMs : List ℚ) (hsent : d.Sent i r t call s.prevHash) (htakes : Takes t status)
      (hadvance : d.advanceHead = true) (hpoll : d.pollEnd r t = some (.landed reply))
      (hvalid : (reply.result >>= forkchoiceStatus) = .ok (.str "VALID")) :
      TurnStep i r t s
        (none,
          d.record (landedRow r t status reply)
            { (d.answered i r t call s).polled i r (front ++ [reply]) with
              fcuMs := fcuMs
              syncWaitMs := syncWaitMs })

/-- The parent check does exactly one of two things. -/
theorem checkParent_eq (i : ℕ) (r : PayloadRecord) (t : Turn) (s : Progress) :
    d.ParentOk r t s.prevHash ∧ d.checkParent i r t s = (none, d.preflighted i r t s) ∨
      ¬ d.ParentOk r t s.prevHash ∧
        ∃ e, d.checkParent i r t s = (some (.raised e), d.preflighted i r t s) := by
  unfold checkParent ParentOk preflighted
  cases hprev : s.prevHash with
  | null =>
      cases hadvance : d.advanceHead with
      | false => simp
      | true =>
          rcases hbase : t.base.result >>= forkchoiceStatus with e | status
          · simp
          · by_cases hvalid : status.pyEq (.str "VALID") = true
            · simp [Json.pyEq_str_iff.mp hvalid]
            · have hne : status ≠ .str "VALID" := fun h => hvalid (Json.pyEq_str_iff.mpr h)
              simp [hvalid, hne]
  | bool | int | float | str | arr | obj =>
      by_cases hchained : r.parentHash.pyEq s.prevHash = true
      · simp_all
      · simp_all

/-- A `VALID` verdict was reached on a `VALID` answer. -/
theorem forkchoiceStatus_of_landed {r : PayloadRecord} {deadline : ℚ} {reply landed : Reply}
    (h : d.pollVerdict r deadline reply = some (.landed landed)) :
    landed = reply ∧ (reply.result >>= forkchoiceStatus) = .ok (.str "VALID") := by
  unfold pollVerdict at h
  split at h
  · cases h
  · rename_i answer hanswer
    split at h
    · cases h
    · rename_i status hstatus
      split at h
      · rename_i hvalid
        cases h
        refine ⟨rfl, ?_⟩
        rw [hanswer, ← Json.pyEq_str_iff.mp hvalid, ← hstatus]
        rfl
      · split at h
        · cases h
        · split at h <;> cases h

/-- The poll uses up all its answers, or stops at the first that decides. -/
theorem poll_eq (i : ℕ) (r : PayloadRecord) (t : Turn) (s : Progress) :
    (∀ reply ∈ t.polls, d.pollVerdict r (d.deadline t) reply = none) ∧
        d.pollEnd r t = none ∧
        d.poll i r (d.deadline t) t.polls s = (none, s.polled i r t.polls) ∨
      ∃ front reply pollEnd, front ++ [reply] <+: t.polls ∧
        (∀ earlier ∈ front, d.pollVerdict r (d.deadline t) earlier = none) ∧
        d.pollVerdict r (d.deadline t) reply = some pollEnd ∧
        d.pollEnd r t = some pollEnd ∧
        d.poll i r (d.deadline t) t.polls s =
          (some pollEnd, s.polled i r (front ++ [reply])) := by
  rcases forEach_verdict (d.pollVerdict r (d.deadline t))
      (fun reply s => s.exchange i .landing (.forkchoiceUpdated r.blockHash) reply.result)
      0 t.polls s with ⟨hall, hrun⟩ | ⟨front, reply, back, pollEnd, hpolls, hfront, hverdict, hrun⟩
  · refine Or.inl ⟨hall, List.findSome?_eq_none_iff.mpr hall, ?_⟩
    rw [poll, hrun, Progress.foldl_exchange_eq_polled]
  · refine Or.inr ⟨front, reply, pollEnd, ⟨back, by rw [hpolls]; simp⟩, hfront, hverdict, ?_, ?_⟩
    · rw [ReplayDriver.pollEnd, hpolls, List.findSome?_append,
        List.findSome?_eq_none_iff.mpr hfront, List.findSome?_cons, hverdict]
      rfl
    · rw [poll, hrun, Progress.foldl_exchange_eq_polled]

variable {d}

/-- What follows a payload that was taken. -/
theorem settle_step {i : ℕ} {r : PayloadRecord} {t : Turn} {call : EngineCall} {s : Progress}
    {status : Json} (hsent : d.Sent i r t call s.prevHash) (htakes : Takes t status) :
    d.TurnStep i r t s (d.settle i r t status (d.answered i r t call s)) := by
  unfold settle
  cases hadvance : d.advanceHead with
  | false => exact .executed call status hsent htakes hadvance
  | true =>
      rcases d.poll_eq i r t (d.answered i r t call s) with
        ⟨-, hpoll, hrun⟩ | ⟨front, reply, pollEnd, -, -, hverdict, hpoll, hrun⟩
      · rw [if_pos rfl, hrun]
        exact .polling call status hsent htakes hadvance hpoll
      · rw [if_pos rfl, hrun]
        cases pollEnd with
        | raised e => exact .lost e call status _ hsent htakes hadvance hpoll
        | failed label message =>
            exact .failed call status label message _ hsent htakes hadvance hpoll
        | landed landed =>
            obtain ⟨rfl, hvalid⟩ := d.forkchoiceStatus_of_landed hverdict
            exact .landed call status front landed _ _ hsent htakes hadvance hpoll hvalid

/-- What follows a record that passed its parent check. -/
theorem submit_step {i : ℕ} {r : PayloadRecord} {t : Turn} {s : Progress}
    (hcut : ¬ d.Cut i t) (hparent : d.ParentOk r t s.prevHash) :
    d.TurnStep i r t s (d.submit i r t (d.preflighted i r t s)) := by
  rcases hcall : d.submission r with e | call
  · rw [submit, hcall]
    exact .unversioned e hcut hparent hcall
  · have hsent : d.Sent i r t call s.prevHash := ⟨hcut, hparent, hcall⟩
    rcases hresult : t.newPayload.result with e | answer
    · have hrun : d.submit i r t (d.preflighted i r t s) =
          (some (.raised e), d.submitted i r t call s) := by
        simp only [submit, submitted, hcall, hresult]
      rw [hrun]
      exact .escaped e call hsent hresult
    · rcases hstatus : payloadStatus answer with e | status
      · have hrun : d.submit i r t (d.preflighted i r t s) =
            (some (.raised e), d.answered i r t call s) := by
          simp only [submit, submitted, answered, hcall, hresult, hstatus]
        rw [hrun]
        exact .unreadable e call answer hsent hresult hstatus
      · have hrun : d.submit i r t (d.preflighted i r t s) =
            if accepted status then d.settle i r t status (d.answered i r t call s)
            else
              (some (.raised (unexpectedStatus r status answer)),
                d.record (failureRow r t.newPayload.elapsedMs (rejectedLabel status))
                  (d.answered i r t call s)) := by
          simp only [submit, submitted, answered, hcall, hresult, hstatus]
        rw [hrun]
        cases haccepted : accepted status with
        | false => exact .rejected call answer status hsent hresult hstatus haccepted
        | true =>
            have htakes : Takes t status := ⟨by rw [hresult]; exact hstatus, haccepted⟩
            exact settle_step hsent htakes

/-- An iteration that is not cut off and passes its parent check submits its record. -/
theorem turn_eq_submit {i : ℕ} {r : PayloadRecord} {t : Turn} {s : Progress}
    (hcut : ¬ d.Cut i t) (hparent : d.ParentOk r t s.prevHash) :
    d.turn i (r, t) s = d.submit i r t (d.preflighted i r t s) := by
  unfold turn
  rw [if_neg (by simpa [Cut, Bool.or_eq_true] using hcut)]
  rcases d.checkParent_eq i r t s with ⟨-, hcheck⟩ | ⟨hnot, -⟩
  · rw [hcheck]
  · exact absurd hparent hnot

/-- An iteration whose payload is taken goes on to settle it. -/
theorem turn_eq_settle {i : ℕ} {r : PayloadRecord} {t : Turn} {call : EngineCall} {s : Progress}
    {status : Json} (hsent : d.Sent i r t call s.prevHash) (htakes : Takes t status) :
    d.turn i (r, t) s = d.settle i r t status (d.answered i r t call s) := by
  obtain ⟨hread, haccepted⟩ := htakes
  obtain ⟨answer, hresult, hstatus⟩ := except_bind_eq_ok hread
  rw [turn_eq_submit hsent.notCut hsent.parentOk]
  simp only [submit, submitted, answered, hsent.call_eq, hresult, hstatus, haccepted, if_true]

/-- Every iteration is one of the listed steps. -/
theorem turn_step (d : ReplayDriver) (i : ℕ) (r : PayloadRecord) (t : Turn) (s : Progress) :
    d.TurnStep i r t s (d.turn i (r, t) s) := by
  by_cases hcut : d.Cut i t
  · unfold turn
    rw [if_pos (by simpa [Cut, Bool.or_eq_true] using hcut)]
    exact .stopped hcut
  · rcases d.checkParent_eq i r t s with ⟨hparent, -⟩ | ⟨hparent, e, hcheck⟩
    · rw [turn_eq_submit hcut hparent]
      exact submit_step hcut hparent
    · unfold turn
      rw [if_neg (by simpa [Cut, Bool.or_eq_true] using hcut), hcheck]
      exact .refused e hcut hparent

end ReplayDriver

end StateBenchmarks.MockCl
