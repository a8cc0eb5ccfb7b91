/-
# The bound on a poll

The poll of a block is a `while True` whose only measure is the clock: an answer that
is neither `VALID` nor `INVALID` is asked for again until a reading is past the
deadline.  With two seconds slept between the calls, the readings of call `k` are `2 k`
seconds after the wait began, so the calls are bounded whatever the answers say.

An engine call that raises, or answers with something that has no `get`, is the one end
without a row: its exception leaves `run` as it is.
-/

import StateBenchmarks.Control.Paced
import StateBenchmarks.MockCl.ReplayCsv

namespace StateBenchmarks.MockCl

open Python Control

namespace ReplayDriver

/-- The polls of an iteration are answered, and on a monotone clock: as many of them as
could be needed, with two seconds slept in between. -/
structure AnswersInTime (d : ReplayDriver) (t : Turn) : Prop where
  paced : Paced Reply.before Reply.later 2 t.newPayload.later t.polls
  answered : ⌊d.fcuWaitSeconds / 2⌋₊ + 2 ≤ t.polls.length

/-- The poll made a call for each answer in `used`, and not too many. -/
structure PollBounded (d : ReplayDriver) (i : ℕ) (r : PayloadRecord) (t : Turn) (s : Progress)
    (result : Option Exit × Progress) (used : List Reply) : Prop where
  asked : used <+: t.polls
  bounded : used.length ≤ ⌊d.fcuWaitSeconds / 2⌋₊ + 2
  calls : result.2.trace = s.trace ++ Progress.pollExchanges i r used

/-- The run proceeds to the next record, and the last answer was `VALID`. -/
def Proceeds (result : Option Exit × Progress) (used : List Reply) : Prop :=
  result.1 = none ∧ ∃ front reply, used = front ++ [reply] ∧
    (reply.result >>= forkchoiceStatus) = .ok (.str "VALID")

/-- The run raises, and has recorded a failure row for the block. -/
def FailsRecorded (d : ReplayDriver) (i : ℕ) (r : PayloadRecord) (t : Turn) (s : Progress)
    (result : Option Exit × Progress) (used : List Reply) : Prop :=
  ∃ label message, result.1 = some (.raised (.runtimeError message)) ∧
    result.2 = d.record (failureRow r t.newPayload.elapsedMs label) (s.polled i r used)

/-- The run raises what the last call raised, or what reading its answer did. -/
def Escapes (result : Option Exit × Progress) (used : List Reply) : Prop :=
  ∃ front reply e, used = front ++ [reply] ∧ (reply.result >>= forkchoiceStatus) = .error e ∧
    result.1 = some (.raised e)

variable {d : ReplayDriver} {i k : ℕ} {r : PayloadRecord} {t : Turn} {reply : Reply}

theorem AnswersInTime.deadline_lt (h : d.AnswersInTime t) (item : t.polls[k]? = some reply)
    (hk : ⌊d.fcuWaitSeconds / 2⌋₊ < k) : d.deadline t < reply.later := by
  have hbefore : t.newPayload.later + k * 2 ≤ reply.before := h.paced.add_le_enter item
  have hlater : reply.before ≤ reply.later := h.paced.enter_le_leave item
  have hfloor : d.fcuWaitSeconds / 2 < ⌊d.fcuWaitSeconds / 2⌋₊ + 1 := Nat.lt_floor_add_one _
  have hcast : ((⌊d.fcuWaitSeconds / 2⌋₊ + 1 : ℕ) : ℚ) ≤ k := Nat.cast_le.mpr hk
  push_cast at hcast
  rw [deadline]
  linarith

/-- Past the deadline every answer decides. -/
theorem pollVerdict_ne_none {deadline : ℚ} (hlate : deadline < reply.later) :
    d.pollVerdict r deadline reply ≠ none := by
  intro hnone
  unfold pollVerdict at hnone
  split at hnone
  · cases hnone
  · split at hnone
    · cases hnone
    · split_ifs at hnone

theorem AnswersInTime.le_floor (h : d.AnswersInTime t) (item : t.polls[k]? = some reply)
    (hnone : d.pollVerdict r (d.deadline t) reply = none) : k ≤ ⌊d.fcuWaitSeconds / 2⌋₊ := by
  by_contra hk
  exact pollVerdict_ne_none (h.deadline_lt item (Nat.lt_of_not_le hk)) hnone

/-- A poll that is answered in time ends. -/
theorem AnswersInTime.exists_verdict (h : d.AnswersInTime t) (r : PayloadRecord) :
    ∃ reply ∈ t.polls, d.pollVerdict r (d.deadline t) reply ≠ none := by
  have hlast : ⌊d.fcuWaitSeconds / 2⌋₊ + 1 < t.polls.length := h.answered
  have item := List.getElem?_eq_getElem hlast
  exact ⟨_, List.getElem_mem hlast, pollVerdict_ne_none (h.deadline_lt item (Nat.lt_succ_self _))⟩

/-- The poll stops at the first answer that decides, which is not a late one. -/
theorem AnswersInTime.poll_stops (h : d.AnswersInTime t) (i : ℕ) (r : PayloadRecord)
    (s : Progress) :
    ∃ front reply pollEnd, front ++ [reply] <+: t.polls ∧
      front.length ≤ ⌊d.fcuWaitSeconds / 2⌋₊ + 1 ∧
      d.pollVerdict r (d.deadline t) reply = some pollEnd ∧
      d.poll i r (d.deadline t) t.polls s =
        (some pollEnd, s.polled i r (front ++ [reply])) := by
  rcases d.poll_eq i r t s with
    ⟨hall, -⟩ | ⟨front, reply, pollEnd, hasked, hfront, hverdict, -, hrun⟩
  · obtain ⟨reply, hmem, hverdict⟩ := h.exists_verdict r
    exact absurd (hall reply hmem) hverdict
  · refine ⟨front, reply, pollEnd, hasked, ?_, hverdict, hrun⟩
    by_contra hlong
    have hlast : ⌊d.fcuWaitSeconds / 2⌋₊ + 1 < front.length := Nat.lt_of_not_le hlong
    have item : t.polls[⌊d.fcuWaitSeconds / 2⌋₊ + 1]? =
        some front[⌊d.fcuWaitSeconds / 2⌋₊ + 1] := by
      have hprefix : front <+: t.polls := (List.prefix_append front [reply]).trans hasked
      exact List.prefix_iff_getElem?.mp hprefix _ hlast
    exact absurd (h.le_floor item (hfront _ (List.getElem_mem hlast))) (Nat.not_succ_le_self _)

/-- An exception leaves the poll where a call, or the reading of its answer, raised it. -/
theorem error_of_raised {deadline : ℚ} {e : Exn}
    (h : d.pollVerdict r deadline reply = some (.raised e)) :
    (reply.result >>= forkchoiceStatus) = .error e := by
  unfold pollVerdict at h
  split at h
  · rename_i hresult
    rw [hresult]
    cases h
    rfl
  · rename_i answer hanswer
    split at h
    · rename_i hstatus
      rw [hanswer]
      cases h
      exact hstatus
    · split_ifs at h <;> cases h

/-- The poll of a block ends within its bound, and in one of three ways. -/
theorem settle_ends (h : d.AnswersInTime t) (hadvance : d.advanceHead = true) (i : ℕ)
    (r : PayloadRecord) (status : Json) (s : Progress) :
    ∃ used, d.PollBounded i r t s (d.settle i r t status s) used ∧
      (Proceeds (d.settle i r t status s) used ∨
        d.FailsRecorded i r t s (d.settle i r t status s) used ∨
        Escapes (d.settle i r t status s) used) := by
  obtain ⟨front, reply, pollEnd, hasked, hlength, hverdict, hrun⟩ := h.poll_stops i r s
  have hbounded : (front ++ [reply]).length ≤ ⌊d.fcuWaitSeconds / 2⌋₊ + 2 := by
    rw [List.length_append]
    exact Nat.succ_le_succ hlength
  refine ⟨front ++ [reply], ?_⟩
  cases pollEnd with
  | raised e =>
      have hsettle : d.settle i r t status s =
          (some (.raised e), s.polled i r (front ++ [reply])) := by
        simp only [settle, hadvance, hrun, if_true]
      rw [hsettle]
      exact ⟨⟨hasked, hbounded, rfl⟩,
        Or.inr (Or.inr ⟨front, reply, e, rfl, error_of_raised hverdict, rfl⟩)⟩
  | failed label message =>
      have hsettle : d.settle i r t status s = (some (.raised (.runtimeError message)),
          d.record (failureRow r t.newPayload.elapsedMs label)
            (s.polled i r (front ++ [reply]))) := by
        simp only [settle, hadvance, hrun, if_true]
      rw [hsettle]
      exact ⟨⟨hasked, hbounded, d.record_trace _ _⟩,
        Or.inr (Or.inl ⟨label, message, rfl, rfl⟩)⟩
  | landed landed =>
      obtain ⟨rfl, hvalid⟩ := d.forkchoiceStatus_of_landed hverdict
      refine ⟨⟨hasked, hbounded, ?_⟩, Or.inl ⟨?_, front, landed, rfl, hvalid⟩⟩
      · simp only [settle, hadvance, hrun, if_true, record_trace]
        rfl
      · simp only [settle, hadvance, hrun, if_true]

/-- No iteration is left waiting. -/
theorem turn_ne_waiting (h : d.advanceHead = true → d.AnswersInTime t) (i : ℕ)
    (r : PayloadRecord) (s : Progress) : (d.turn i (r, t) s).1 ≠ some .waiting := by
  intro hwaiting
  have hstep := d.turn_step i r t s
  generalize d.turn i (r, t) s = result at hstep hwaiting
  cases hstep with
  | polling call status hsent htakes hadvance hpoll =>
      obtain ⟨reply, hmem, hverdict⟩ := (h hadvance).exists_verdict r
      exact hverdict (List.findSome?_eq_none_iff.mp hpoll reply hmem)
  | _ => cases hwaiting

/-- The poll of every block ends within its bound, by an answer, the clock or an engine
call that raised; so every run ends. -/
theorem poll_ends (d : ReplayDriver) :
    (∀ i r t status s, d.advanceHead = true → d.AnswersInTime t →
      ∃ used, d.PollBounded i r t s (d.settle i r t status s) used ∧
        (Proceeds (d.settle i r t status s) used ∨
          d.FailsRecorded i r t s (d.settle i r t status s) used ∨
          Escapes (d.settle i r t status s) used)) ∧
      ∀ content steps, (d.advanceHead = true → ∀ step ∈ steps, d.AnswersInTime step.2) →
        (d.run content steps).1 ≠ .waiting := by
  apply And.intro
  · intro i r t status s hadvance h
    exact settle_ends h hadvance i r status s
  · intro content steps h
    rcases d.run_cases content steps with
      ⟨s, -, hrun⟩ | ⟨k, r, t, s, exit, s', -, item, hturn, hrun⟩
    · rw [hrun]
      intro hwaiting
      cases hwaiting
    · have hanswers : d.advanceHead = true → d.AnswersInTime t := fun hadvance =>
        h hadvance (r, t) (List.mem_of_getElem? item)
      have hne := turn_ne_waiting hanswers k r s
      rw [hturn] at hne
      rw [hrun]
      intro hwaiting
      cases exit with
      | waiting => exact hne rfl
      | stop => cases hwaiting
      | raised e => cases hwaiting

/-- An engine that queues the only block and then loses the connection. -/
def lostWhileQueued : Turn where
  stopSet := false
  base := ⟨.ok (.obj [("payloadStatus", .obj [("status", .str "VALID")])]), 0, 0, 0⟩
  newPayload := ⟨.ok (.obj [("status", .str "SYNCING")]), 0, 0, 0⟩
  polls := [⟨.error (.external "ConnectionError"), 0, 0, 0⟩,
    ⟨.ok (.obj [("payloadStatus", .obj [("status", .str "VALID")])]), 2, 2, 2⟩]

/-- A replay that waits no longer than it must. -/
def impatientReplay : ReplayDriver := { flushingReplay with fcuWaitSeconds := 0 }

theorem lostWhileQueued_answersInTime : impatientReplay.AnswersInTime lostWhileQueued where
  paced := by norm_num [lostWhileQueued, Paced]
  answered := by norm_num [lostWhileQueued, impatientReplay]

/-- Its poll, on a client that answered `SYNCING`. -/
def lostPoll : Option Exit × Progress :=
  impatientReplay.settle 0 hashedRecord lostWhileQueued (.str "SYNCING") (.start none)

/-- The lost connection leaves the poll with neither a `VALID` answer nor a row. -/
theorem lostPoll_unrecorded :
    impatientReplay.AnswersInTime lostWhileQueued ∧
      ¬ ∃ used, impatientReplay.PollBounded 0 hashedRecord lostWhileQueued (.start none)
          lostPoll used ∧
        (Proceeds lostPoll used ∨
          impatientReplay.FailsRecorded 0 hashedRecord lostWhileQueued (.start none)
            lostPoll used) := by
  have hraised : lostPoll.1 = some (.raised (.external "ConnectionError")) := rfl
  refine ⟨lostWhileQueued_answersInTime, ?_⟩
  rintro ⟨used, -, ⟨hnone, -⟩ | ⟨label, message, hfailed, -⟩⟩
  · rw [hraised] at hnone
    cases hnone
  · rw [hraised] at hfailed
    cases hfailed

/-- It ends all the same, and so does the run it is part of. -/
theorem poll_ends_lostPoll :
    (∃ used, impatientReplay.PollBounded 0 hashedRecord lostWhileQueued (.start none)
        lostPoll used ∧
      (Proceeds lostPoll used ∨
        impatientReplay.FailsRecorded 0 hashedRecord lostWhileQueued (.start none) lostPoll used ∨
        Escapes lostPoll used)) ∧
      (impatientReplay.run none [(hashedRecord, lostWhileQueued)]).1 ≠ .waiting := by
  obtain ⟨hpolls, hruns⟩ := poll_ends impatientReplay
  apply And.intro
  · exact hpolls 0 hashedRecord lostWhileQueued _ _ rfl lostWhileQueued_answersInTime
  · apply hruns
    intro _ step hstep
    obtain rfl := List.mem_singleton.mp hstep
    exact lostWhileQueued_answersInTime

end ReplayDriver

end StateBenchmarks.MockCl
