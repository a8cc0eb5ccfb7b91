/-
# The pivot loop

`PivotDriver.run` sends one forkchoice update after the other, so that a node
syncs to a frozen pivot, until it is stopped, its time is up, or the node's status
says that it is synced.  Whatever a tick raises is passed over.  The status is
asked for outside that `try`: `_rpc` passes over what `requests` and the decoder
raise, and then calls a method on the value decoded, which only a dictionary has.

The node, its status server and the clock are adversarial.  What the loop meets in
one round is a `PivotRound`; a run that has used up the rounds it is given would go
on.
-/

import StateBenchmarks.Control.Loop
import StateBenchmarks.Python.Json

namespace StateBenchmarks.MockCl

open Python Control

/-- What comes of a request to the status server: a `RequestException`, or a response
with its status and what its `json` method does. -/
inductive StatusReply where
  | failed
  | response (status : ℤ) (body : Except Exn Json)

/-- `except (requests.exceptions.RequestException, ValueError)`; the decoder's error is
both. -/
def isStatusError : Exn → Bool
  | .valueError _ => true
  | .external "JSONDecodeError" => true
  | .external "RequestException" => true
  | _ => false

/-- `PivotDriver._rpc`. -/
def StatusReply.rpc : StatusReply → Except Exn Json
  | .failed => .ok .null
  | .response status body =>
      if status ≠ 200 then .ok .null
      else
        match body >>= fun data => data.get "result" with
        | .ok result => .ok result
        | .error e => if isStatusError e then .ok .null else .error e

/-- The synced view of the target. -/
structure PivotStatus where
  syncing : Json
  head : ℤ
  synced : Bool

/-- The arguments of a `forkchoice_updated`. -/
structure PivotTick where
  head : String
  version : ℤ
  deriving DecidableEq

/-- The attributes of a `PivotDriver`, and the arguments of its `run`. -/
structure PivotDriver where
  pivotHash : String
  interval : ℤ := 12
  version : ℤ := 3
  statusRpcUrl : Option String := none
  pivotNumber : Option ℤ := none
  /-- Whether there is a `stop_event`. -/
  stopEvent : Bool := false
  maxSeconds : Option ℤ := none

/-- What one round meets: the stop event, the clock, what the tick comes to, and what
comes of the two requests for the status. -/
structure PivotRound where
  stopSet : Bool
  now : ℚ
  tick : Except Exn Json
  syncing : StatusReply
  blockNumber : StatusReply

/-- The local variables of the loop, and the ticks sent. -/
structure PivotState where
  ticks : ℕ
  lastStatus : Option PivotStatus
  sent : List PivotTick

/-- How the loop is left. -/
inductive PivotExit where
  | stopped
  | timedOut
  | synced
  | raised (e : Exn)

/-- What `run` returns. -/
structure PivotResult where
  ticks : ℕ
  elapsed : ℚ
  synced : Bool
  lastStatus : Option PivotStatus

/-- `int(head_hex, 16) if head_hex else 0`, or zero where that raises: `int` raises
nothing but what is caught. -/
def headNumber (headHex : Json) : ℤ :=
  if headHex.truthy then
    match headHex.int16 with
    | .ok head => head
    | .error _ => 0
  else 0

/-- `v is False`. -/
def isFalse : Json → Bool
  | .bool false => true
  | _ => false

theorem isFalse_iff {v : Json} : isFalse v = true ↔ v = .bool false := by
  unfold isFalse
  split
  · simp
  · rename_i hother
    simpa using hother

namespace PivotDriver

variable (d : PivotDriver) (start : ℚ)

/-- Whether a status is asked for. -/
def watches : Bool := d.statusRpcUrl.any (· != "")

/-- The status of a target that answered. -/
def view (syncing headHex : Json) : PivotStatus where
  syncing := syncing
  head := headNumber headHex
  synced :=
    isFalse syncing && decide (0 < headNumber headHex) &&
      d.pivotNumber.all fun number => decide (number - 32 ≤ headNumber headHex)

/-- `_status`. -/
def status (round : PivotRound) : Except Exn (Option PivotStatus) := do
  if d.watches then
    let syncing ← round.syncing.rpc
    let headHex ← round.blockNumber.rpc
    return some (d.view syncing headHex)
  else return none

/-- The state after the tick of a round, whether it raises or not. -/
def ticked (s : PivotState) : PivotState :=
  { s with ticks := s.ticks + 1, sent := s.sent ++ [⟨d.pivotHash, d.version⟩] }

/-- The longest time there is to sleep, `2^63 - 1` nanoseconds in whole seconds. -/
def longestSleep : ℤ := (2 ^ 63 - 1) / 10 ^ 9

/-- `time.sleep(self.interval)`, which converts the interval before it looks at its
sign. -/
def sleepError : Option Exn :=
  if longestSleep < |d.interval| then some (.external "OverflowError")
  else if d.interval < 0 then some (.valueError [.text "sleep length must be non-negative"])
  else none

/-- `time.time() - start >= max_seconds`, where there is a limit. -/
def TimedOut (round : PivotRound) : Prop := ∃ limit ∈ d.maxSeconds, (limit : ℚ) ≤ round.now - start

instance (round : PivotRound) : Decidable (d.TimedOut start round) :=
  inferInstanceAs (Decidable (∃ limit ∈ d.maxSeconds, _))

/-- One round of the loop. -/
def pivotStep (_ : ℕ) (round : PivotRound) (s : PivotState) : Option PivotExit × PivotState :=
  if d.stopEvent && round.stopSet then (some .stopped, s)
  else if d.TimedOut start round then (some .timedOut, s)
  else
    match d.status round with
    | .error e => (some (.raised e), d.ticked s)
    | .ok lastStatus =>
        let s := { d.ticked s with lastStatus := lastStatus }
        if lastStatus.any (·.synced) then (some .synced, s)
        else (d.sleepError.map .raised, s)

/-- The loop of `run`, begun at the time `start`. -/
def loop (rounds : List PivotRound) : Option PivotExit × PivotState :=
  forEach (d.pivotStep start) 0 rounds ⟨0, none, []⟩

/-- What `run` returns or raises when the loop is left, at the time `finish`. -/
def run (rounds : List PivotRound) (finish : ℚ) : Option (Except Exn PivotResult) :=
  let (exit, s) := d.loop start rounds
  exit.map fun
    | .raised e => .error e
    | .synced => .ok ⟨s.ticks, finish - start, true, s.lastStatus⟩
    | .stopped | .timedOut => .ok ⟨s.ticks, finish - start, false, s.lastStatus⟩

end PivotDriver

/-! ## What a round can come to -/

namespace StatusReply

/-- A reply with the code 200 decodes to a dictionary, or to nothing that is not passed
over. -/
def Readable (reply : StatusReply) : Prop :=
  ∀ body, reply = .response 200 body →
    (∃ fields, body = .ok (.obj fields)) ∨ ∃ e, body = .error e ∧ isStatusError e = true

/-- The result in a readable reply, null where there is none. -/
def value : StatusReply → Json
  | .response 200 (.ok (.obj fields)) => Dict.get fields "result"
  | _ => .null

theorem rpc_of_readable {reply : StatusReply} (h : reply.Readable) :
    reply.rpc = .ok reply.value := by
  cases reply with
  | failed => rfl
  | response status body =>
      by_cases hstatus : status = 200
      · subst hstatus
        rcases h body rfl with ⟨fields, rfl⟩ | ⟨e, rfl, he⟩
        · rfl
        · show (if isStatusError e then Except.ok Json.null else Except.error e) = _
          rw [if_pos he]
          rfl
      · rw [rpc, if_pos hstatus, value]
        · intro fields heq
          cases heq
          exact hstatus rfl

theorem rpc_of_not_readable {reply : StatusReply} (h : ¬ reply.Readable) :
    ∃ e, reply.rpc = .error e := by
  simp only [Readable, not_forall] at h
  obtain ⟨body, rfl, hbody⟩ := h
  rw [not_or] at hbody
  obtain ⟨hobject, hcaught⟩ := hbody
  cases body with
  | error e =>
      refine ⟨e, ?_⟩
      show (if isStatusError e then Except.ok Json.null else Except.error e) = _
      rw [if_neg fun he => hcaught ⟨e, rfl, he⟩]
  | ok data =>
      cases data with
      | obj fields => exact absurd ⟨fields, rfl⟩ hobject
      | _ => exact ⟨.attributeError, rfl⟩

end StatusReply

namespace PivotDriver

variable (d : PivotDriver) (start : ℚ)

/-- The round ends the loop before its tick. -/
def Ends (round : PivotRound) : Prop :=
  (d.stopEvent = true ∧ round.stopSet = true) ∨ d.TimedOut start round

/-- The replies about the status can be read, where they are asked for. -/
def StatusReadable (round : PivotRound) : Prop :=
  d.watches = true → round.syncing.Readable ∧ round.blockNumber.Readable

/-- The status says that the target is synced. -/
def SyncedIn (round : PivotRound) : Prop :=
  d.watches = true ∧ (d.view round.syncing.value round.blockNumber.value).synced = true

/-- The interval can be slept. -/
def Sleeps : Prop := 0 ≤ d.interval ∧ d.interval ≤ longestSleep

/-- The loop goes on after the round. -/
def GoesOn (round : PivotRound) : Prop :=
  ¬ d.Ends start round ∧ d.StatusReadable round ∧ ¬ d.SyncedIn round ∧ d.Sleeps

/-- The round, where it is reached, raises nothing: its replies can be read, and the
interval can be slept. -/
def Harmless (round : PivotRound) : Prop :=
  d.Ends start round ∨ d.StatusReadable round ∧ (d.SyncedIn round ∨ d.Sleeps)

/-- The last status read in a round. -/
def statusOf (round : PivotRound) : Option PivotStatus :=
  if d.watches then some (d.view round.syncing.value round.blockNumber.value) else none

variable {d start} {round : PivotRound} {k : ℕ} {s : PivotState}

theorem status_of_readable (h : d.StatusReadable round) :
    d.status round = .ok (d.statusOf round) := by
  rw [status, statusOf]
  split_ifs with hwatches
  · obtain ⟨hsyncing, hnumber⟩ := h hwatches
    rw [StatusReply.rpc_of_readable hsyncing, StatusReply.rpc_of_readable hnumber]
    rfl
  · rfl

theorem status_of_not_readable (h : ¬ d.StatusReadable round) :
    ∃ e, d.status round = .error e := by
  obtain ⟨hwatches, hreplies⟩ := Classical.not_imp.mp h
  rw [status, if_pos hwatches]
  by_cases hsyncing : round.syncing.Readable
  · obtain ⟨e, he⟩ := StatusReply.rpc_of_not_readable fun hnumber => hreplies ⟨hsyncing, hnumber⟩
    rw [StatusReply.rpc_of_readable hsyncing, he]
    exact ⟨e, rfl⟩
  · obtain ⟨e, he⟩ := StatusReply.rpc_of_not_readable hsyncing
    rw [he]
    exact ⟨e, rfl⟩

theorem sleepError_eq_none_iff : d.sleepError = none ↔ d.Sleeps := by
  rw [sleepError, Sleeps]
  split_ifs with hlong hnegative
  · exact iff_of_false nofun fun h => absurd hlong (by rw [abs_of_nonneg h.1]; exact not_lt.mpr h.2)
  · exact iff_of_false nofun fun h => absurd hnegative (not_lt.mpr h.1)
  · have hinterval := not_lt.mp hnegative
    rw [abs_of_nonneg hinterval, not_lt] at hlong
    exact iff_of_true rfl ⟨hinterval, hlong⟩

/-- The status is synced exactly where it says so. -/
theorem any_statusOf_iff : (d.statusOf round).any (·.synced) = true ↔ d.SyncedIn round := by
  rw [statusOf, SyncedIn]
  split_ifs with hwatches <;> simp [hwatches]

/-- The state after a round whose status was read. -/
def after (d : PivotDriver) (round : PivotRound) (s : PivotState) : PivotState :=
  { d.ticked s with lastStatus := d.statusOf round }

/-- A round that gets to its tick. -/
theorem pivotStep_of_not_ends (h : ¬ d.Ends start round) :
    d.pivotStep start k round s =
      match d.status round with
      | .error e => (some (.raised e), d.ticked s)
      | .ok lastStatus =>
          if lastStatus.any (·.synced) then
            (some .synced, { d.ticked s with lastStatus := lastStatus })
          else (d.sleepError.map .raised, { d.ticked s with lastStatus := lastStatus }) := by
  rw [pivotStep, if_neg, if_neg fun htimedOut => h (Or.inr htimedOut)]
  · intro hstop
    exact h (Or.inl (Bool.and_eq_true_iff.mp hstop))

variable (d start k round s) in
/-- What a round can do. -/
theorem pivotStep_cases :
    (d.stopEvent = true ∧ round.stopSet = true ∧
        d.pivotStep start k round s = (some .stopped, s)) ∨
      (d.TimedOut start round ∧ d.pivotStep start k round s = (some .timedOut, s)) ∨
      (¬ d.Harmless start round ∧ ∃ e t, d.pivotStep start k round s = (some (.raised e), t)) ∨
      (¬ d.Ends start round ∧ d.StatusReadable round ∧ d.SyncedIn round ∧
        d.pivotStep start k round s = (some .synced, d.after round s)) ∨
      (d.GoesOn start round ∧ d.pivotStep start k round s = (none, d.after round s)) := by
  by_cases hstop : d.stopEvent = true ∧ round.stopSet = true
  · exact Or.inl ⟨hstop.1, hstop.2, if_pos (Bool.and_eq_true_iff.mpr hstop)⟩
  by_cases htimedOut : d.TimedOut start round
  · refine Or.inr (Or.inl ⟨htimedOut, ?_⟩)
    rw [pivotStep, if_neg fun h => hstop (Bool.and_eq_true_iff.mp h), if_pos htimedOut]
  have hends : ¬ d.Ends start round := fun h => h.elim hstop htimedOut
  have hstep := pivotStep_of_not_ends (k := k) (s := s) hends
  by_cases hreadable : d.StatusReadable round
  · rw [status_of_readable hreadable] at hstep
    by_cases hsynced : d.SyncedIn round
    · refine Or.inr (Or.inr (Or.inr (Or.inl ⟨hends, hreadable, hsynced, hstep.trans ?_⟩)))
      exact if_pos (any_statusOf_iff.mpr hsynced)
    · have hgoing : d.pivotStep start k round s = (d.sleepError.map .raised, d.after round s) :=
        hstep.trans (if_neg fun h => hsynced (any_statusOf_iff.mp h))
      by_cases hinterval : d.Sleeps
      · refine Or.inr (Or.inr (Or.inr (Or.inr ⟨⟨hends, hreadable, hsynced, hinterval⟩, ?_⟩)))
        rw [hgoing, sleepError_eq_none_iff.mpr hinterval]
        rfl
      · refine Or.inr (Or.inr (Or.inl ⟨?_, ?_⟩))
        · rintro (h | ⟨-, h | h⟩)
          · exact hends h
          · exact hsynced h
          · exact hinterval h
        · obtain ⟨e, he⟩ :=
            Option.ne_none_iff_exists'.mp fun h => hinterval (sleepError_eq_none_iff.mp h)
          rw [hgoing, he]
          exact ⟨e, _, rfl⟩
  · obtain ⟨e, he⟩ := status_of_not_readable hreadable
    rw [he] at hstep
    refine Or.inr (Or.inr (Or.inl ⟨?_, e, _, hstep⟩))
    rintro (h | ⟨h, -⟩)
    · exact hends h
    · exact hreadable h

/-- A harmful round raises. -/
theorem pivotStep_of_harmful (h : ¬ d.Harmless start round) :
    ∃ e t, d.pivotStep start k round s = (some (.raised e), t) := by
  rcases d.pivotStep_cases start round k s with
    ⟨hstop, hset, -⟩ | ⟨htimedOut, -⟩ | ⟨-, hraised⟩ | ⟨-, hreadable, hsynced, -⟩ | ⟨hgoes, -⟩
  · exact absurd (Or.inl (Or.inl ⟨hstop, hset⟩)) h
  · exact absurd (Or.inl (Or.inr htimedOut)) h
  · exact hraised
  · exact absurd (Or.inr ⟨hreadable, Or.inl hsynced⟩) h
  · exact absurd (Or.inr ⟨hgoes.2.1, Or.inr hgoes.2.2.2⟩) h

/-- The loop goes on exactly after the rounds that let it. -/
theorem pivotStep_fst_eq_none_iff :
    (d.pivotStep start k round s).1 = none ↔ d.GoesOn start round := by
  rcases d.pivotStep_cases start round k s with
    ⟨hstop, hset, hstep⟩ | ⟨htimedOut, hstep⟩ | ⟨hharm, e, t, hstep⟩ |
      ⟨-, -, hsynced, hstep⟩ | ⟨hgoes, hstep⟩ <;> rw [hstep]
  · exact iff_of_false (by simp) fun h => h.1 (Or.inl ⟨hstop, hset⟩)
  · exact iff_of_false (by simp) fun h => h.1 (Or.inr htimedOut)
  · exact iff_of_false (by simp) fun h => hharm (Or.inr ⟨h.2.1, Or.inr h.2.2.2⟩)
  · exact iff_of_false (by simp) fun h => h.2.2.1 hsynced
  · exact iff_of_true rfl hgoes

/-- A status that is synced: not syncing, past genesis, and at most thirty-two blocks
behind the pivot. -/
def IsSynced (d : PivotDriver) (status : PivotStatus) : Prop :=
  status.syncing = .bool false ∧ 0 < status.head ∧
    ∀ number ∈ d.pivotNumber, number - 32 ≤ status.head

theorem view_synced_iff (syncing headHex : Json) :
    (d.view syncing headHex).synced = true ↔ d.IsSynced (d.view syncing headHex) := by
  rw [view, IsSynced]
  simp only [Bool.and_eq_true, decide_eq_true_eq, and_assoc, isFalse_iff]
  cases d.pivotNumber <;> simp

/-- Going on, the loop has counted the ticks it sent, and its last status is not
synced. -/
structure Going (d : PivotDriver) (s : PivotState) : Prop where
  sent : s.sent = List.replicate s.ticks ⟨d.pivotHash, d.version⟩
  unsynced : ∀ status ∈ s.lastStatus, ¬ d.IsSynced status

theorem sent_after (h : s.sent = List.replicate s.ticks ⟨d.pivotHash, d.version⟩) :
    (d.after round s).sent =
      List.replicate (d.after round s).ticks ⟨d.pivotHash, d.version⟩ := by
  show s.sent ++ [⟨d.pivotHash, d.version⟩] = List.replicate (s.ticks + 1) _
  rw [h, List.replicate_succ']

theorem isSynced_after_iff (round : PivotRound) (s : PivotState) :
    (∃ status ∈ (d.after round s).lastStatus, d.IsSynced status) ↔ d.SyncedIn round := by
  show (∃ status ∈ d.statusOf round, d.IsSynced status) ↔ _
  rw [statusOf, SyncedIn]
  split_ifs with hwatches
  · simp [hwatches, view_synced_iff]
  · simp [hwatches]

/-- The loop arrives at a round only as `Going` says. -/
theorem going_of_arrives {rounds : List PivotRound}
    (h : Arrives (d.pivotStep start) rounds ⟨0, none, []⟩ k s) : d.Going s := by
  induction h with
  | start => exact ⟨rfl, fun _ h => by cases h⟩
  | @next k round t t' here item falls ih =>
      have hgoes := pivotStep_fst_eq_none_iff.mp (congrArg Prod.fst falls)
      rcases d.pivotStep_cases start round k t with
        ⟨-, -, hstep⟩ | ⟨-, hstep⟩ | ⟨-, e, u, hstep⟩ | ⟨-, -, -, hstep⟩ | ⟨-, hstep⟩ <;>
        rw [falls] at hstep <;> cases hstep
      refine ⟨sent_after ih.sent, fun status hstatus hsynced => hgoes.2.2.1 ?_⟩
      exact (isSynced_after_iff round t).mp ⟨status, hstatus, hsynced⟩

section Resilience

variable (d start) (rounds : List PivotRound) (finish : ℚ)

/-- The loop gets to a round: it goes on after every one before. -/
def Reaches (k : ℕ) (round : PivotRound) : Prop :=
  rounds[k]? = some round ∧
    ∀ j < k, ∃ earlier, rounds[j]? = some earlier ∧ d.GoesOn start earlier

/-- `run` raises nothing, is left for one of three reasons, counts its ticks, and
returns that the target is synced exactly where the last status says so. -/
structure IsResilient : Prop where
  returns : ∀ e, d.run start rounds finish ≠ some (.error e)
  ends : ∀ r, d.run start rounds finish = some (.ok r) →
    ∃ k round, d.Reaches start rounds k round ∧
      (d.stopEvent = true ∧ round.stopSet = true ∨ d.TimedOut start round ∨
        r.synced = true ∧ d.SyncedIn round)
  ticks : ∀ r, d.run start rounds finish = some (.ok r) →
    (d.loop start rounds).2.sent = List.replicate r.ticks ⟨d.pivotHash, d.version⟩
  synced : ∀ r, d.run start rounds finish = some (.ok r) →
    (r.synced = true ↔ ∃ status ∈ r.lastStatus, d.IsSynced status)

/-- Every round the loop gets to is harmless. -/
def Survives : Prop := ∀ k round, d.Reaches start rounds k round → d.Harmless start round

end Resilience

theorem reaches_iff {rounds : List PivotRound} (hround : rounds[k]? = some round) :
    d.Reaches start rounds k round ↔
      ∃ t, Arrives (d.pivotStep start) rounds ⟨0, none, []⟩ k t := by
  rw [Arrives.exists_iff (fun _ round => d.GoesOn start round) fun _ _ _ _ _ =>
    pivotStep_fst_eq_none_iff]
  exact and_iff_right hround

/-- How a loop that is left was left. -/
theorem loop_cases (d : PivotDriver) (start : ℚ) (rounds : List PivotRound) :
    (∃ t, d.loop start rounds = (none, t)) ∨
      ∃ k round t, Arrives (d.pivotStep start) rounds ⟨0, none, []⟩ k t ∧
        rounds[k]? = some round ∧ d.loop start rounds = d.pivotStep start k round t ∧
        (d.pivotStep start k round t).1 ≠ none := by
  rcases forEach_cases (d.pivotStep start) rounds ⟨0, none, []⟩ with
    ⟨t, harrives⟩ | ⟨k, round, t, x, t', harrives, hround, hleaves⟩
  · exact Or.inl ⟨t, harrives.forEach_eq_none⟩
  · refine Or.inr ⟨k, round, t, harrives, hround, ?_, ?_⟩
    · rw [hleaves]
      exact harrives.forEach_eq_some hround hleaves
    · rw [hleaves]
      exact Option.some_ne_none x

/-- What a run that returns says. -/
theorem returned_cases {rounds : List PivotRound} {finish : ℚ} {r : PivotResult}
    (h : d.run start rounds finish = some (.ok r)) :
    (d.loop start rounds).2.sent = List.replicate r.ticks ⟨d.pivotHash, d.version⟩ ∧
      (r.synced = true ↔ ∃ status ∈ r.lastStatus, d.IsSynced status) ∧
      ∃ k round, d.Reaches start rounds k round ∧
        (d.stopEvent = true ∧ round.stopSet = true ∨ d.TimedOut start round ∨
          r.synced = true ∧ d.SyncedIn round) := by
  rcases d.loop_cases start rounds with ⟨t, hloop⟩ | ⟨k, round, t, harrives, hround, hloop, -⟩
  · rw [run, hloop] at h
    cases h
  · have hgoing := going_of_arrives harrives
    have hreaches := (reaches_iff hround).mpr ⟨t, harrives⟩
    have hunsynced : (false = true ↔ ∃ status ∈ t.lastStatus, d.IsSynced status) :=
      iff_of_false Bool.false_ne_true fun ⟨status, hstatus, hsynced⟩ =>
        hgoing.unsynced status hstatus hsynced
    rw [run, hloop] at h
    rw [hloop]
    rcases d.pivotStep_cases start round k t with
      ⟨hstop, hset, hstep⟩ | ⟨htimedOut, hstep⟩ | ⟨-, e, u, hstep⟩ |
        ⟨-, -, hsynced, hstep⟩ | ⟨-, hstep⟩ <;> rw [hstep] at h ⊢ <;> cases h
    · exact ⟨hgoing.sent, hunsynced, k, round, hreaches, Or.inl ⟨hstop, hset⟩⟩
    · exact ⟨hgoing.sent, hunsynced, k, round, hreaches, Or.inr (Or.inl htimedOut)⟩
    · exact ⟨sent_after hgoing.sent, iff_of_true rfl ((isSynced_after_iff round t).mpr hsynced),
        k, round, hreaches, Or.inr (Or.inr ⟨rfl, hsynced⟩)⟩

/-- A run raises exactly at a harmful round that it gets to. -/
theorem run_raises_iff (d : PivotDriver) (start : ℚ) (rounds : List PivotRound) (finish : ℚ) :
    (∃ e, d.run start rounds finish = some (.error e)) ↔ ¬ d.Survives start rounds := by
  apply Iff.intro
  · rintro ⟨e, he⟩ hsurvives
    rcases d.loop_cases start rounds with ⟨t, hloop⟩ | ⟨k, round, t, harrives, hround, hloop, -⟩
    · rw [run, hloop] at he
      cases he
    · have hharmless := hsurvives k round ((reaches_iff hround).mpr ⟨t, harrives⟩)
      rw [run, hloop] at he
      rcases d.pivotStep_cases start round k t with
        ⟨-, -, hstep⟩ | ⟨-, hstep⟩ | ⟨hharm, -⟩ | ⟨-, -, -, hstep⟩ | ⟨-, hstep⟩
      · rw [hstep] at he
        cases he
      · rw [hstep] at he
        cases he
      · exact hharm hharmless
      · rw [hstep] at he
        cases he
      · rw [hstep] at he
        cases he
  · intro hsurvives
    simp only [Survives, not_forall] at hsurvives
    obtain ⟨k, round, hreaches, hharm⟩ := hsurvives
    obtain ⟨t, harrives⟩ := (reaches_iff hreaches.1).mp hreaches
    obtain ⟨e, u, hstep⟩ := pivotStep_of_harmful (k := k) (s := t) hharm
    have hloop : d.loop start rounds = (some (.raised e), u) :=
      harrives.forEach_eq_some hreaches.1 hstep
    exact ⟨e, by rw [run, hloop]; rfl⟩

/-- **The loop is resilient exactly where every round it gets to is harmless.** -/
theorem run_resilient_iff (d : PivotDriver) (start : ℚ) (rounds : List PivotRound) (finish : ℚ) :
    d.IsResilient start rounds finish ↔ d.Survives start rounds := by
  have hraises := run_raises_iff d start rounds finish
  apply Iff.intro
  · intro h
    by_contra hharm
    obtain ⟨e, he⟩ := hraises.mpr hharm
    exact h.returns e he
  · intro h
    refine ⟨fun e he => hraises.mp ⟨e, he⟩ h, fun r hr => (returned_cases hr).2.2,
      fun r hr => (returned_cases hr).1, fun r hr => (returned_cases hr).2.1⟩

/-- A status server that answers with a list. -/
def listAnswer : PivotRound where
  stopSet := false
  now := 0
  tick := .ok .null
  syncing := .response 200 (.ok (.arr []))
  blockNumber := .response 200 (.ok (.arr []))

/-- The loop is left by an `AttributeError`. -/
theorem listAnswer_raises :
    (⟨"0xpivot", 12, 3, some "http://localhost:8545", none, true, none⟩ : PivotDriver).run 0
        [listAnswer] 0 = some (.error .attributeError) ∧
      ¬ ∀ (d : PivotDriver) (start : ℚ) (rounds : List PivotRound) (finish : ℚ),
        d.IsResilient start rounds finish := by
  have hraised : (⟨"0xpivot", 12, 3, some "http://localhost:8545", none, true, none⟩ :
      PivotDriver).run 0 [listAnswer] 0 = some (.error .attributeError) := by rfl
  exact ⟨hraised, fun hall => (hall _ 0 [listAnswer] 0).returns _ hraised⟩

end PivotDriver

end StateBenchmarks.MockCl
