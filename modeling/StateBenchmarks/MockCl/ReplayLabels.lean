/-
# Row labels and samples of a replay

`run` fills four lists at different points of an iteration: the rows, and the samples
behind the percentiles of `newPayload`, `forkchoiceUpdated` and the wait.  An iteration
adds at most one row, and the samples it adds are those of its row and of its answered
`newPayload`, so the lists stay aligned block by block.

A failure row repeats the status the engine answered, whatever text that is.  That is
the one way to a row labelled `SYNCING_LANDED` whose block did not land.
-/

import StateBenchmarks.MockCl.ReplayCsv

namespace StateBenchmarks.MockCl

open Python Control

/-- A piece of a label as text.  A status that is no text prints as digits, brackets or one
of `None`, `True` and `False`, and has no say in whether a label is one of the driver's. -/
def word? : Fragment → Option String
  | .text s => some s
  | .str (.str s) => some s
  | _ => none

/-- The text in the status cell of a row. -/
def Row.label (row : Row) : Option String := (row.status.mapM word?).map String.join

/-- The polls an iteration made for its block. -/
def landings (trace : List Exchange) (k : ℕ) : List Exchange :=
  trace.filter fun x => x.turn == k && x.site == .landing

/-- A call was answered `VALID`. -/
def Exchange.Valid (x : Exchange) : Prop :=
  (x.result >>= forkchoiceStatus) = .ok (.str "VALID")

namespace ReplayDriver

variable (d : ReplayDriver)

/-- The payload was taken with this status, and the poll of its block went through the
replies in `front` to one that is `VALID`. -/
structure Landing (t : Turn) (status : Json) (front : List Reply) (reply : Reply) : Prop where
  taken : Takes t status
  asked : front ++ [reply] <+: t.polls
  queued : ∀ earlier ∈ front, (earlier.result >>= forkchoiceStatus) ≠ .ok (.str "VALID")
  valid : (reply.result >>= forkchoiceStatus) = .ok (.str "VALID")

/-- The row of a block that landed so, in a run that made the calls of `trace`. -/
structure LandedRow (trace : List Exchange) (k : ℕ) (r : PayloadRecord) (row : Row)
    (status : Json) (front : List Reply) (reply : Reply) : Prop where
  polled : landings trace k = Progress.pollExchanges k r (front ++ [reply])
  fcuMs : row.fcuMs = some reply.elapsedMs
  landed : row.label = some "SYNCING_LANDED" ↔ status = .str "SYNCING"
  echoed : status ≠ .str "SYNCING" → row.status = [.str status]
  waited : row.syncWaitMs ≠ none ↔ row.label = some "SYNCING_LANDED"

/-- The row of a block the driver got past. -/
structure FinishedRow (trace : List Exchange) (k : ℕ) (r : PayloadRecord) (t : Turn)
    (row : Row) : Prop where
  blockNumber : row.blockNumber = r.blockNumber
  newPayloadMs : row.newPayloadMs = t.newPayload.elapsedMs
  advanced : d.advanceHead = true → ∃ status front reply,
    Landing t status front reply ∧ LandedRow trace k r row status front reply
  unadvanced : d.advanceHead = false → row.fcuMs = none ∧ row.syncWaitMs = none ∧
    row.label ≠ some "SYNCING_LANDED" ∧ ∃ status, Takes t status ∧ row.status = [.str status]

/-- The row of a block the driver failed on: without the samples of a landing, and without
its label unless the engine answered with just that. -/
structure FailureRow (r : PayloadRecord) (t : Turn) (row : Row) : Prop where
  blockNumber : row.blockNumber = r.blockNumber
  newPayloadMs : row.newPayloadMs = t.newPayload.elapsedMs
  fcuMs : row.fcuMs = none
  syncWaitMs : row.syncWaitMs = none
  echoed : row.label = some "SYNCING_LANDED" →
    (t.newPayload.result >>= payloadStatus) = .ok (.str "SYNCING_LANDED")

/-- The sample is the time the call took. -/
def SampleOf (steps : List (PayloadRecord × Turn)) (x : Exchange) (ms : ℚ) : Prop :=
  ∃ r t, steps[x.turn]? = some (r, t) ∧ ms = t.newPayload.elapsedMs

/-- One `newPayload` sample for each call that returned, and for the rest the samples of
the rows. -/
structure SamplesAligned (steps : List (PayloadRecord × Turn)) (s : Progress) : Prop where
  newPayloadMs : List.Forall₂ (SampleOf steps) (returnedCalls s.trace) s.newPayloadMs
  fcuMs : s.fcuMs = s.rows.filterMap Row.fcuMs
  syncWaitMs : s.syncWaitMs = s.rows.filterMap Row.syncWaitMs

/-- The rows of a run are those of the blocks it got past, one for each iteration, and
at most one of a failure it raised.  The percentiles are computed from their samples. -/
structure RowsSound (steps : List (PayloadRecord × Turn)) (result : Outcome × Progress)
    (past : List Row) (failure : Option Row) : Prop where
  rows : result.2.rows = past ++ failure.toList
  finished : ∀ k row, past[k]? = some row →
    ∃ r t, steps[k]? = some (r, t) ∧ d.FinishedRow result.2.trace k r t row
  landed : ∀ x ∈ result.2.trace, x.site = .landing → x.Valid → x.turn < past.length
  failed : ∀ row ∈ failure, (∃ e, result.1 = .raised e) ∧
    ∃ r t, steps[past.length]? = some (r, t) ∧ FailureRow r t row
  samples : SamplesAligned steps result.2
  summary : ∀ summary, result.1 = .returned summary → summary = ReplayDriver.summary result.2

/-- The calls of an iteration, the row it records if any, and their samples. -/
structure Adds (i : ℕ) (t : Turn) (s s' : Progress) (calls : List Exchange)
    (row : Option Row) : Prop where
  trace : s'.trace = s.trace ++ calls
  turn : ∀ x ∈ calls, x.turn = i
  rows : s'.rows = s.rows ++ row.toList
  newPayloadMs : s'.newPayloadMs =
    s.newPayloadMs ++ (returnedCalls calls).map fun _ => t.newPayload.elapsedMs
  fcuMs : s'.fcuMs = s.fcuMs ++ row.toList.filterMap Row.fcuMs
  syncWaitMs : s'.syncWaitMs = s.syncWaitMs ++ row.toList.filterMap Row.syncWaitMs

/-- An iteration either finishes its block and records the row, or ends the loop with
no block landed. -/
inductive LabelStep (i : ℕ) (r : PayloadRecord) (t : Turn) (s : Progress) :
    Option Exit × Progress → Prop
  | finished (s' : Progress) (calls : List Exchange) (row : Row)
      (hadds : Adds i t s s' calls (some row)) (hrow : d.FinishedRow calls i r t row) :
      LabelStep i r t s (none, s')
  | ended (exit : Exit) (s' : Progress) (calls : List Exchange) (failure : Option Row)
      (hadds : Adds i t s s' calls failure)
      (hqueued : ∀ x ∈ calls, x.site = .landing → ¬ x.Valid)
      (hfailure : ∀ row ∈ failure, (∃ e, exit = .raised e) ∧ FailureRow r t row) :
      LabelStep i r t s (some exit, s')

section Frames

variable (i : ℕ) (r : PayloadRecord) (t : Turn) (s : Progress)

@[simp]
theorem writeCsv_newPayloadMs : (d.writeCsv s).newPayloadMs = s.newPayloadMs := by
  unfold writeCsv
  split <;> rfl

@[simp]
theorem writeCsv_fcuMs : (d.writeCsv s).fcuMs = s.fcuMs := by
  unfold writeCsv
  split <;> rfl

@[simp]
theorem writeCsv_syncWaitMs : (d.writeCsv s).syncWaitMs = s.syncWaitMs := by
  unfold writeCsv
  split <;> rfl

theorem preflighted_samples :
    (d.preflighted i r t s).newPayloadMs = s.newPayloadMs ∧
      (d.preflighted i r t s).fcuMs = s.fcuMs ∧
      (d.preflighted i r t s).syncWaitMs = s.syncWaitMs := by
  unfold preflighted
  split
  · split <;> exact ⟨rfl, rfl, rfl⟩
  · exact ⟨rfl, rfl, rfl⟩

end Frames

variable {d} {content : Option String} {steps : List (PayloadRecord × Turn)} {i k : ℕ}
  {r : PayloadRecord} {t : Turn} {s s' : Progress} {calls : List Exchange}

variable (d i r t s) in
/-- The preflight adds its call. -/
theorem adds_preflighted :
    Adds i t s (d.preflighted i r t s) (d.preflightCalls i r t s.prevHash) none := by
  obtain ⟨hnewPayloadMs, hfcuMs, hsyncWaitMs⟩ := d.preflighted_samples i r t s
  exact ⟨preflighted_trace i r t s, turn_of_mem_preflightCalls, by simp, by simp [hnewPayloadMs],
    by simp [hfcuMs], by simp [hsyncWaitMs]⟩

/-- A payload adds its call, and its sample when it was answered. -/
theorem Adds.submitted {sent : Progress} (hadds : Adds i t s s' calls none) (call : EngineCall)
    (htrace : sent.trace = s'.trace ++ [⟨i, .submission, call, t.newPayload.result⟩])
    (hrows : sent.rows = s'.rows) (hfcuMs : sent.fcuMs = s'.fcuMs)
    (hsyncWaitMs : sent.syncWaitMs = s'.syncWaitMs)
    (hnewPayloadMs : sent.newPayloadMs = s'.newPayloadMs ++
      (returnedCalls [⟨i, .submission, call, t.newPayload.result⟩]).map
        fun _ => t.newPayload.elapsedMs) :
    Adds i t s sent (calls ++ [⟨i, .submission, call, t.newPayload.result⟩]) none := by
  refine ⟨?_, ?_, hrows.trans hadds.rows, ?_, hfcuMs.trans hadds.fcuMs,
    hsyncWaitMs.trans hadds.syncWaitMs⟩
  · rw [htrace, hadds.trace, List.append_assoc]
  · intro x hx
    rcases List.mem_append.mp hx with hx | hx
    · exact hadds.turn x hx
    · rw [List.mem_singleton.mp hx]
  · rw [hnewPayloadMs, hadds.newPayloadMs, returnedCalls_append, List.map_append,
      List.append_assoc]

theorem adds_escaped {call : EngineCall} {e : Exn} (hresult : t.newPayload.result = .error e) :
    Adds i t s (d.submitted i r t call s)
      (d.preflightCalls i r t s.prevHash ++ [⟨i, .submission, call, t.newPayload.result⟩])
      none := by
  refine (adds_preflighted d i r t s).submitted call rfl rfl rfl rfl ?_
  rw [returnedCalls, List.filter_cons_of_neg (by simp [Exchange.returned, hresult])]
  exact (List.append_nil _).symm

theorem adds_answered {call : EngineCall} {answer : Json}
    (hresult : t.newPayload.result = .ok answer) :
    Adds i t s (d.answered i r t call s)
      (d.preflightCalls i r t s.prevHash ++ [⟨i, .submission, call, t.newPayload.result⟩])
      none := by
  refine (adds_preflighted d i r t s).submitted call rfl rfl rfl rfl ?_
  rw [returnedCalls_submission i t call [] hresult]
  rfl

/-- A poll adds its calls. -/
theorem Adds.polled (h : Adds i t s s' calls none) (r : PayloadRecord) (replies : List Reply) :
    Adds i t s (s'.polled i r replies) (calls ++ Progress.pollExchanges i r replies) none := by
  refine ⟨?_, ?_, h.rows, ?_, h.fcuMs, h.syncWaitMs⟩
  · rw [← List.append_assoc, ← h.trace]
    rfl
  · intro x hx
    rcases List.mem_append.mp hx with hx | hx
    · exact h.turn x hx
    · exact turn_of_mem_pollExchanges x hx
  · rw [returnedCalls_append, returnedCalls_pollExchanges, List.append_nil]
    exact h.newPayloadMs

/-- A row is recorded next to its samples. -/
theorem Adds.record (h : Adds i t s s' calls none) (row : Row) :
    Adds i t s
      (d.record row
        { s' with
          fcuMs := s'.fcuMs ++ row.fcuMs.toList
          syncWaitMs := s'.syncWaitMs ++ row.syncWaitMs.toList })
      calls (some row) := by
  have hsample : ∀ f : Row → Option ℚ, [row].filterMap f = (f row).toList := by
    intro f
    cases hf : f row <;> simp [hf]
  refine ⟨?_, h.turn, ?_, ?_, ?_, ?_⟩
  · simp [h.trace]
  · simp [h.rows]
  · simp [ReplayDriver.record, h.newPayloadMs]
  · simp only [ReplayDriver.record, writeCsv_fcuMs, h.fcuMs, Option.toList, hsample]
    simp
  · simp only [ReplayDriver.record, writeCsv_syncWaitMs, h.syncWaitMs, Option.toList, hsample]
    simp

/-- A row without samples is recorded alone. -/
theorem Adds.record_bare (h : Adds i t s s' calls none) (row : Row)
    (hfcuMs : row.fcuMs = none) (hsyncWaitMs : row.syncWaitMs = none) :
    Adds i t s (d.record row s') calls (some row) := by
  have hadds := h.record (d := d) row
  rwa [hfcuMs, hsyncWaitMs, Option.toList_none, List.append_nil, List.append_nil] at hadds

/-! ## One iteration -/

/-- A status that is interpolated alone is the label when it is that text. -/
theorem label_eq_some_iff {row : Row} {status : Json} {text : String}
    (h : row.status = [.str status]) : row.label = some text ↔ status = .str text := by
  cases status <;> simp [Row.label, h, word?, String.join]

theorem accepted_cases {status : Json} (h : accepted status = true) :
    status = .str "VALID" ∨ status = .str "ACCEPTED" ∨ status = .str "SYNCING" := by
  simpa [accepted, Json.pyEq_str_iff, or_assoc] using h

/-- A rejected status is the label of a landed block when it is just that text. -/
theorem eq_of_label_rejected {ms : ℚ} {status : Json}
    (h : (failureRow r ms (rejectedLabel status)).label = some "SYNCING_LANDED") :
    status = .str "SYNCING_LANDED" := by
  cases status with
  | null => simp [failureRow, rejectedLabel, Row.label, word?, String.join] at h
  | _ => exact (label_eq_some_iff rfl).mp h

/-- No status that was taken is the label of a landed block. -/
theorem label_ne_of_takes {row : Row} {status : Json} (htakes : Takes t status)
    (h : row.status = [.str status]) : row.label ≠ some "SYNCING_LANDED" := by
  rw [Ne, label_eq_some_iff h]
  rcases accepted_cases htakes.2 with rfl | rfl | rfl <;> simp

/-- An answer that lands nothing is not `VALID`. -/
theorem not_valid_of_pollVerdict {deadline : ℚ} {reply : Reply} {verdict : Option PollEnd}
    (h : d.pollVerdict r deadline reply = verdict) (hne : verdict ≠ some (.landed reply)) :
    (reply.result >>= forkchoiceStatus) ≠ .ok (.str "VALID") := by
  intro hvalid
  obtain ⟨answer, hanswer, hstatus⟩ := except_bind_eq_ok hvalid
  apply hne
  rw [← h]
  simp [pollVerdict, hanswer, hstatus]

/-- A text with this beginning is no label of a landed block. -/
theorem label_ne_of_fcu {row : Row} {status : Json} (rest : String)
    (h : row.status = [.text ("FCU_" ++ rest), .str status]) :
    row.label ≠ some "SYNCING_LANDED" := by
  cases status with
  | str text =>
      intro heq
      have hlabel : row.label = some ("FCU_" ++ rest ++ text) := by
        simp [Row.label, h, word?, String.join]
      have hchars := congrArg String.toList (Option.some.inj (hlabel.symm.trans heq))
      simp at hchars
  | _ => simp [Row.label, h, word?]

/-- The label of a poll that failed names the answer of the poll. -/
theorem label_ne_of_failed {deadline : ℚ} {reply : Reply} {label message : FString} {row : Row}
    (h : d.pollVerdict r deadline reply = some (.failed label message))
    (hrow : row.status = label) : row.label ≠ some "SYNCING_LANDED" := by
  unfold pollVerdict at h
  split at h
  · cases h
  · split at h
    · cases h
    · split_ifs at h with hvalid hinvalid hlate
      · cases h
      · cases h
        exact label_ne_of_fcu "" hrow
      · cases h
        exact label_ne_of_fcu "TIMEOUT_" hrow

/-- The row of a block that landed tells how. -/
theorem landedRow_landedRow {trace : List Exchange} {status : Json} {front : List Reply}
    {reply : Reply} (htakes : Takes t status)
    (hpolled : landings trace i = Progress.pollExchanges i r (front ++ [reply])) :
    LandedRow trace i r (landedRow r t status reply) status front reply := by
  by_cases hsyncing : status = .str "SYNCING"
  · subst hsyncing
    have hlabel : (landedRow r t (.str "SYNCING") reply).label = some "SYNCING_LANDED" := rfl
    have hwait : (landedRow r t (.str "SYNCING") reply).syncWaitMs ≠ none := by simp [landedRow]
    exact ⟨hpolled, rfl, iff_of_true hlabel rfl, fun hne => absurd rfl hne,
      iff_of_true hwait hlabel⟩
  · have hne : status.pyEq (.str "SYNCING") = false := by
      rw [Bool.eq_false_iff, Ne, Json.pyEq_str_iff]
      exact hsyncing
    have hstatus : (landedRow r t status reply).status = [.str status] := by simp [landedRow, hne]
    have hwait : (landedRow r t status reply).syncWaitMs = none := by simp [landedRow, hne]
    have hlabel := label_ne_of_takes htakes hstatus
    exact ⟨hpolled, rfl, iff_of_false hlabel hsyncing, fun _ => hstatus,
      iff_of_false (not_not_intro hwait) hlabel⟩

/-- The polls of an iteration are its landings. -/
theorem landings_pollExchanges (replies : List Reply) :
    landings (Progress.pollExchanges i r replies) i = Progress.pollExchanges i r replies := by
  apply List.filter_eq_self.mpr
  intro x hx
  obtain ⟨reply, -, rfl⟩ := List.mem_map.mp hx
  simp

/-- No call before the polls is one. -/
theorem site_of_mem_preflightCalls {prevHash : Json} :
    ∀ x ∈ d.preflightCalls i r t prevHash, x.site ≠ .landing := by
  intro x hx
  obtain ⟨-, -, rfl⟩ := preflightCalls_site hx
  simp

theorem site_of_mem_sent {call : EngineCall} {prevHash : Json} {result : Except Exn Json} :
    ∀ x ∈ d.preflightCalls i r t prevHash ++ [⟨i, .submission, call, result⟩],
      x.site ≠ .landing := by
  intro x hx
  rcases List.mem_append.mp hx with hx | hx
  · exact site_of_mem_preflightCalls x hx
  · rw [List.mem_singleton.mp hx]
    simp

/-- So they are not among the landings. -/
theorem landings_sent (hsite : ∀ x ∈ calls, x.site ≠ .landing) (replies : List Reply) :
    landings (calls ++ Progress.pollExchanges i r replies) i =
      Progress.pollExchanges i r replies := by
  have hnone : landings calls i = [] := by
    apply List.filter_eq_nil_iff.mpr
    intro x hx
    simp [hsite x hx]
  rw [landings, List.filter_append]
  exact (congrArg₂ _ hnone (landings_pollExchanges replies)).trans (List.nil_append _)

/-- A poll through answers that were not `VALID` landed nothing. -/
theorem not_valid_of_polled (hsite : ∀ x ∈ calls, x.site ≠ .landing) {replies : List Reply}
    (hqueued : ∀ reply ∈ replies, (reply.result >>= forkchoiceStatus) ≠ .ok (.str "VALID")) :
    ∀ x ∈ calls ++ Progress.pollExchanges i r replies, x.site = .landing → ¬ x.Valid := by
  intro x hx hlanding
  rcases List.mem_append.mp hx with hx | hx
  · exact absurd hlanding (hsite x hx)
  · obtain ⟨reply, hreply, rfl⟩ := List.mem_map.mp hx
    exact hqueued reply hreply

/-- An iteration that ends the loop with a failure row, or with none, before its poll. -/
theorem labelStep_of_sent {exit : Exit} {failure : Option Row} (hadds : Adds i t s s' calls failure)
    (hsite : ∀ x ∈ calls, x.site ≠ .landing)
    (hfailure : ∀ row ∈ failure, (∃ e, exit = .raised e) ∧ FailureRow r t row) :
    d.LabelStep i r t s (some exit, s') :=
  .ended exit s' calls failure hadds (fun x hx hlanding => absurd hlanding (hsite x hx)) hfailure

/-- Answers that let the poll go on were not `VALID`. -/
theorem not_valid_of_queued {deadline : ℚ} {replies : List Reply}
    (h : ∀ reply ∈ replies, d.pollVerdict r deadline reply = none) :
    ∀ reply ∈ replies, (reply.result >>= forkchoiceStatus) ≠ .ok (.str "VALID") := by
  intro reply hreply
  exact not_valid_of_pollVerdict (h reply hreply) (by simp)

/-- Neither was the answer that ended the poll without a landing. -/
theorem not_valid_of_stopped {deadline : ℚ} {front : List Reply} {reply : Reply}
    {pollEnd : PollEnd} (hfront : ∀ earlier ∈ front, d.pollVerdict r deadline earlier = none)
    (hverdict : d.pollVerdict r deadline reply = some pollEnd) (hne : pollEnd ≠ .landed reply) :
    ∀ asked ∈ front ++ [reply], (asked.result >>= forkchoiceStatus) ≠ .ok (.str "VALID") := by
  intro asked hasked
  rcases List.mem_append.mp hasked with hasked | hasked
  · exact not_valid_of_queued hfront asked hasked
  · rw [List.mem_singleton.mp hasked]
    exact not_valid_of_pollVerdict hverdict fun heq => hne (Option.some.inj heq)

/-- With no head to advance, a taken payload finishes its block. -/
theorem settle_labelStep_of_executed {status : Json}
    (hadds : Adds i t s s' calls none) (htakes : Takes t status)
    (hadvance : d.advanceHead = false) : d.LabelStep i r t s (d.settle i r t status s') := by
  unfold settle
  rw [if_neg (by simp [hadvance])]
  refine .finished _ _ _ (hadds.record_bare _ rfl rfl) ⟨rfl, rfl, ?_, ?_⟩
  · intro htrue
    rw [hadvance] at htrue
    cases htrue
  · exact fun _ => ⟨rfl, rfl, label_ne_of_takes htakes rfl, status, htakes, rfl⟩

/-- Else the poll finishes it, or the loop ends there. -/
theorem settle_labelStep_of_polled {status : Json}
    (hadds : Adds i t s s' calls none) (hsite : ∀ x ∈ calls, x.site ≠ .landing)
    (htakes : Takes t status) (hadvance : d.advanceHead = true) :
    d.LabelStep i r t s (d.settle i r t status s') := by
  unfold settle
  rw [if_pos hadvance]
  rcases d.poll_eq i r t s' with
    ⟨hall, -, hrun⟩ | ⟨front, reply, pollEnd, hasked, hfront, hverdict, -, hrun⟩
  · rw [hrun]
    have hqueued := not_valid_of_queued hall
    exact .ended _ _ _ none (hadds.polled r t.polls) (not_valid_of_polled hsite hqueued) (by simp)
  · have hpolled := hadds.polled r (front ++ [reply])
    rw [hrun]
    cases pollEnd with
    | raised e =>
        have hqueued := not_valid_of_stopped hfront hverdict (by simp)
        exact .ended _ _ _ none hpolled (not_valid_of_polled hsite hqueued) (by simp)
    | failed label message =>
        have hqueued := not_valid_of_stopped hfront hverdict (by simp)
        refine .ended _ _ _ _ (hpolled.record_bare _ rfl rfl)
          (not_valid_of_polled hsite hqueued) ?_
        rintro row hrow
        obtain rfl := Option.some.inj hrow
        refine ⟨⟨_, rfl⟩, rfl, rfl, rfl, rfl, fun hlabel => ?_⟩
        exact absurd hlabel (label_ne_of_failed hverdict rfl)
    | landed landed =>
        obtain ⟨rfl, hvalid⟩ := d.forkchoiceStatus_of_landed hverdict
        have hlanding : Landing t status front landed :=
          ⟨htakes, hasked, not_valid_of_queued hfront, hvalid⟩
        refine .finished _ _ _ (hpolled.record (landedRow r t status landed)) ⟨rfl, rfl, ?_, ?_⟩
        · exact fun _ => ⟨status, front, landed, hlanding,
            landedRow_landedRow htakes (landings_sent hsite _)⟩
        · intro hfalse
          rw [hadvance] at hfalse
          cases hfalse

/-- The step lemma: an iteration that takes no payload ends the loop before any poll. -/
theorem turn_labelStep (d : ReplayDriver) (i : ℕ) (r : PayloadRecord) (t : Turn) (s : Progress) :
    d.LabelStep i r t s (d.turn i (r, t) s) := by
  by_cases htaken : ∃ call status, d.Sent i r t call s.prevHash ∧ Takes t status
  · obtain ⟨call, status, hsent, htakes⟩ := htaken
    obtain ⟨answer, hresult⟩ := (answers_of_takes hsent htakes).2
    rw [turn_eq_settle hsent htakes]
    cases hadvance : d.advanceHead with
    | false => exact settle_labelStep_of_executed (adds_answered hresult) htakes hadvance
    | true =>
        exact settle_labelStep_of_polled (adds_answered hresult) site_of_mem_sent htakes hadvance
  · have hstep := d.turn_step i r t s
    have hpreflight := adds_preflighted d i r t s
    generalize d.turn i (r, t) s = result at hstep
    cases hstep with
    | stopped hcut =>
        have hnothing : Adds i t s s [] none := by
          constructor <;> simp
        exact labelStep_of_sent hnothing (by simp) (by simp)
    | refused e hcut hparent =>
        exact labelStep_of_sent hpreflight site_of_mem_preflightCalls (by simp)
    | unversioned e hcut hparent hcall =>
        have hmarked : Adds i t s { d.preflighted i r t s with prevHash := r.blockHash } _ none :=
          ⟨hpreflight.trace, hpreflight.turn, hpreflight.rows, hpreflight.newPayloadMs,
            hpreflight.fcuMs, hpreflight.syncWaitMs⟩
        exact labelStep_of_sent hmarked site_of_mem_preflightCalls (by simp)
    | escaped e call hsent hresult =>
        exact labelStep_of_sent (adds_escaped hresult) site_of_mem_sent (by simp)
    | unreadable e call answer hsent hresult hstatus =>
        exact labelStep_of_sent (adds_answered hresult) site_of_mem_sent (by simp)
    | rejected call answer status hsent hresult hstatus hrejected =>
        refine labelStep_of_sent ((adds_answered hresult).record_bare _ rfl rfl)
          site_of_mem_sent ?_
        rintro row hrow
        obtain rfl := Option.some.inj hrow
        refine ⟨⟨_, rfl⟩, rfl, rfl, rfl, rfl, fun hlabel => ?_⟩
        rw [hresult]
        exact hstatus.trans (congrArg Except.ok (eq_of_label_rejected hlabel))
    | executed call status hsent htakes | polling call status hsent htakes
    | lost e call status replies hsent htakes
    | failed call status label message replies hsent htakes
    | landed call status front reply fcuMs syncWaitMs hsent htakes =>
        exact absurd ⟨call, status, hsent, htakes⟩ htaken

/-- The invariant on arrival: every earlier iteration finished its block. -/
structure LabelsKept (d : ReplayDriver) (steps : List (PayloadRecord × Turn)) (k : ℕ)
    (s : Progress) : Prop where
  length : s.rows.length = k
  finished : ∀ j row, s.rows[j]? = some row →
    ∃ r t, steps[j]? = some (r, t) ∧ d.FinishedRow s.trace j r t row
  earlier : ∀ x ∈ s.trace, x.turn < k
  samples : SamplesAligned steps s

/-- A row looks at no calls but the polls of its own block. -/
theorem FinishedRow.of_landings {trace trace' : List Exchange} {row : Row}
    (h : d.FinishedRow trace k r t row) (heq : landings trace' k = landings trace k) :
    d.FinishedRow trace' k r t row := by
  refine ⟨h.blockNumber, h.newPayloadMs, fun hadvance => ?_, h.unadvanced⟩
  obtain ⟨status, front, reply, hlanding, hrow⟩ := h.advanced hadvance
  exact ⟨status, front, reply, hlanding, heq.trans hrow.polled, hrow.fcuMs, hrow.landed,
    hrow.echoed, hrow.waited⟩

theorem landings_eq_nil {trace : List Exchange} (h : ∀ x ∈ trace, x.turn ≠ k) :
    landings trace k = [] := by
  apply List.filter_eq_nil_iff.mpr
  intro x hx
  simp [h x hx]

theorem landings_append (front back : List Exchange) :
    landings (front ++ back) k = landings front k ++ landings back k :=
  List.filter_append ..

/-- The samples an iteration adds are those of its row and of its returned call. -/
theorem SamplesAligned.adds {row : Option Row} (h : SamplesAligned steps s)
    (item : steps[k]? = some (r, t)) (hadds : Adds k t s s' calls row) :
    SamplesAligned steps s' := by
  refine ⟨?_, ?_, ?_⟩
  · rw [hadds.trace, hadds.newPayloadMs, returnedCalls_append]
    apply List.rel_append h.newPayloadMs
    rw [List.forall₂_map_right_iff, List.forall₂_same]
    intro x hx
    exact ⟨r, t, by rw [hadds.turn x (List.mem_of_mem_filter hx)]; exact item, rfl⟩
  · rw [hadds.fcuMs, hadds.rows, h.fcuMs, List.filterMap_append]
  · rw [hadds.syncWaitMs, hadds.rows, h.syncWaitMs, List.filterMap_append]

/-- The rows before the iteration keep their blocks' polls. -/
theorem LabelsKept.finished_adds {row : Option Row} (h : d.LabelsKept steps k s)
    (hadds : Adds k t s s' calls row) {j : ℕ} {earlier : Row}
    (hrow : s.rows[j]? = some earlier) :
    ∃ r t, steps[j]? = some (r, t) ∧ d.FinishedRow s'.trace j r t earlier := by
  obtain ⟨r', t', item, hfinished⟩ := h.finished j earlier hrow
  refine ⟨r', t', item, hfinished.of_landings ?_⟩
  have hlt : j < k := h.length ▸ (List.getElem?_eq_some_iff.mp hrow).1
  have hnone : landings calls j = [] := by
    apply landings_eq_nil
    intro x hx
    rw [hadds.turn x hx]
    exact hlt.ne'
  rw [hadds.trace, landings_append, hnone, List.append_nil]

/-- A finished block keeps the invariant. -/
theorem LabelsKept.finish {row : Row} (h : d.LabelsKept steps k s)
    (item : steps[k]? = some (r, t)) (hadds : Adds k t s s' calls (some row))
    (hrow : d.FinishedRow calls k r t row) : d.LabelsKept steps (k + 1) s' := by
  have hrows : s'.rows = s.rows ++ [row] := hadds.rows
  refine ⟨by simp [hrows, h.length], ?_, ?_, h.samples.adds item hadds⟩
  · intro j other hother
    rw [hrows, List.getElem?_append] at hother
    split at hother
    · exact h.finished_adds hadds hother
    · rename_i hge
      obtain ⟨hj, rfl⟩ : j - s.rows.length = 0 ∧ row = other := by
        simpa [List.getElem?_singleton] using hother
      obtain rfl : j = k := by
        have := h.length
        omega
      have hnone : landings s.trace j = [] := landings_eq_nil fun x hx => (h.earlier x hx).ne
      refine ⟨r, t, item, hrow.of_landings ?_⟩
      rw [hadds.trace, landings_append, hnone, List.nil_append]
  · intro x hx
    rw [hadds.trace] at hx
    rcases List.mem_append.mp hx with hx | hx
    · exact Nat.lt_succ_of_lt (h.earlier x hx)
    · rw [hadds.turn x hx]
      exact Nat.lt_succ_self k

theorem labelsKept_of_arrives (h : Arrives d.turn steps (.start content) k s) :
    d.LabelsKept steps k s := by
  induction h with
  | start => exact ⟨rfl, by simp [Progress.start], by simp [Progress.start], .nil, rfl, rfl⟩
  | @next k step s s' here item falls ih =>
      obtain ⟨r, t⟩ := step
      have hstep := d.turn_labelStep k r t s
      rw [falls] at hstep
      cases hstep with
      | finished _ calls row hadds hrow => exact ih.finish item hadds hrow

@[simp]
theorem ending_rows (exit : Option Exit) (s : Progress) :
    (d.ending exit s).2.rows = s.rows := by
  rcases exit with _ | (_ | e | _) <;> simp [ending]

theorem SamplesAligned.ending (h : SamplesAligned steps s) (exit : Option Exit) :
    SamplesAligned steps (d.ending exit s).2 := by
  rcases exit with _ | (_ | e | _)
  · exact ⟨by simpa [ReplayDriver.ending] using h.newPayloadMs,
      by simpa [ReplayDriver.ending] using h.fcuMs,
      by simpa [ReplayDriver.ending] using h.syncWaitMs⟩
  · exact ⟨by simpa [ReplayDriver.ending] using h.newPayloadMs,
      by simpa [ReplayDriver.ending] using h.fcuMs,
      by simpa [ReplayDriver.ending] using h.syncWaitMs⟩
  · exact h
  · exact h

/-- What a run returns is computed from the state it ends in. -/
theorem summary_of_ending {exit : Option Exit} {result : Summary}
    (h : (d.ending exit s).1 = .returned result) : result = summary (d.ending exit s).2 := by
  rcases exit with _ | (_ | e | _)
  · exact (Outcome.returned.inj h).symm
  · exact (Outcome.returned.inj h).symm
  · cases h
  · cases h

/-- **Every row is that of its block, and every sample that of its row or its call.** -/
theorem run_rowsSound (d : ReplayDriver) (content : Option String)
    (steps : List (PayloadRecord × Turn)) :
    ∃ past failure, d.RowsSound steps (d.run content steps) past failure := by
  rcases d.run_cases content steps with
    ⟨s, hs, hrun⟩ | ⟨k, r, t, s, exit, s', hs, item, hturn, hrun⟩
  · have hkept := labelsKept_of_arrives hs
    rw [hrun]
    refine ⟨s.rows, none, by simp, ?_, ?_, by simp, hkept.samples.ending none, ?_⟩
    · rw [ending_trace]
      exact hkept.finished
    · rw [ending_trace, hkept.length]
      exact fun x hx _ _ => hkept.earlier x hx
    · exact fun _ h => summary_of_ending h
  · have hkept := labelsKept_of_arrives hs
    have hstep := d.turn_labelStep k r t s
    rw [hturn] at hstep
    rw [hrun]
    cases hstep with
    | ended _ _ calls failure hadds hqueued hfailure =>
        refine ⟨s.rows, failure, by rw [ending_rows, hadds.rows], ?_, ?_, ?_,
          (hkept.samples.adds item hadds).ending _, ?_⟩
        · rw [ending_trace]
          exact fun j row hrow => hkept.finished_adds hadds hrow
        · rw [ending_trace, hadds.trace, hkept.length]
          intro x hx hlanding hvalid
          rcases List.mem_append.mp hx with hx | hx
          · exact hkept.earlier x hx
          · exact absurd hvalid (hqueued x hx hlanding)
        · intro row hrow
          obtain ⟨⟨e, rfl⟩, hfailed⟩ := hfailure row hrow
          exact ⟨⟨e, rfl⟩, r, t, by rw [hkept.length]; exact item, hfailed⟩
        · exact fun _ h => summary_of_ending h

/-- A replay that leaves the head where it is. -/
def headlessReplay : ReplayDriver := { flushingReplay with advanceHead := false }

/-- An engine whose status for the only block is the driver's own label. -/
def echoing : Turn :=
  { dropped with newPayload := ⟨.ok (.obj [("status", .str "SYNCING_LANDED")]), 0, 0, 0⟩ }

/-- Its failure row is labelled like a block that landed, though no head was advanced. -/
theorem echoed_label :
    headlessReplay.advanceHead = false ∧
      ¬ ∀ row ∈ (headlessReplay.run none [(hashedRecord, echoing)]).2.rows,
        row.label ≠ some "SYNCING_LANDED" := by
  have hrows : (headlessReplay.run none [(hashedRecord, echoing)]).2.rows =
      [failureRow hashedRecord echoing.newPayload.elapsedMs [.str (.str "SYNCING_LANDED")]] := rfl
  refine ⟨rfl, fun h => ?_⟩
  rw [hrows] at h
  exact h _ List.mem_cons_self rfl

end ReplayDriver

end StateBenchmarks.MockCl
