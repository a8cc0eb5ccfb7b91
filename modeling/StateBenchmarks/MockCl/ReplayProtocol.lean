/-
# Protocol safety of the replay

The replay must never run ahead of the client: a payload goes out only once the
client's head is the payload's parent.  The statement is about the trace of
engine calls alone.  Payloads are those of a front part of the file, in order
and once each; every one is licensed by calls made before it; and a run that
returns has advanced the head to the last payload it sent.

`Safe n` is the invariant of a trace in which `n` payloads were sent.  `Ready`
is what an iteration additionally hands to the next one.
-/

import StateBenchmarks.Control.Trace
import StateBenchmarks.MockCl.ReplayRuns

namespace StateBenchmarks.MockCl

open Python Control

/-- The call submits a payload. -/
def EngineCall.isNewPayload : EngineCall → Bool
  | .newPayload .. => true
  | .forkchoiceUpdated _ => false

/-- The `new_payload` calls of a trace, with the iterations they were made in. -/
def newPayloadCalls (trace : List Exchange) : List (ℕ × Except Exn EngineCall) :=
  (trace.filter fun x => x.call.isNewPayload).map fun x => (x.turn, .ok x.call)

theorem newPayloadCalls_append (front back : List Exchange) :
    newPayloadCalls (front ++ back) = newPayloadCalls front ++ newPayloadCalls back := by
  simp [newPayloadCalls]

/-- A `forkchoiceUpdated` to `head` answered `VALID`. -/
def Exchange.Advances (head : Json) (x : Exchange) : Prop :=
  x.call = .forkchoiceUpdated head ∧ (x.result >>= forkchoiceStatus) = .ok (.str "VALID")

namespace ReplayDriver

variable (d : ReplayDriver)

/-- The payload of `r`, answered `VALID`, `ACCEPTED` or `SYNCING`. -/
def Took (r : PayloadRecord) (x : Exchange) : Prop :=
  d.submission r = .ok x.call ∧
    ∃ status, (x.result >>= payloadStatus) = .ok status ∧ accepted status = true

/-- What has to have happened before the payload of record `i` may be sent: for
the first record, the head moved to its parent; for a later one, the record
before it was taken and then became the head. -/
def Licensed (records : List PayloadRecord) (past : List Exchange) : ℕ → Prop
  | 0 => ∃ r, records[0]? = some r ∧ ∃ x ∈ past, x.Advances r.parentHash
  | i + 1 =>
      ∃ r, records[i]? = some r ∧
        ∃ took landed, [took, landed].Sublist past ∧ took.turn = i ∧ d.Took r took ∧
          landed.Advances r.blockHash

/-- Payloads need a licence; other calls do not. -/
def SentLicensed (records : List PayloadRecord) (past : List Exchange) (x : Exchange) : Prop :=
  x.call.isNewPayload = true → d.Licensed records past x.turn

/-- The calls for the first `n` records, one each and in order. -/
def submissions (records : List PayloadRecord) (n : ℕ) : List (ℕ × Except Exn EngineCall) :=
  (records.take n).mapIdx fun i r => (i, d.submission r)

/-- The safety of a trace in which `n` payloads were sent. -/
structure Safe (records : List PayloadRecord) (n : ℕ) (trace : List Exchange) : Prop where
  le_length : n ≤ records.length
  le_count : ∀ c, d.count = some c → n ≤ c.toNat
  inOrder : newPayloadCalls trace = d.submissions records n
  licensed : d.advanceHead = true → Justified (d.SentLicensed records) trace
  headKept : d.advanceHead = false → ∀ x ∈ trace, ∀ head, x.call ≠ .forkchoiceUpdated head

/-- What holds besides between two iterations: nothing was called yet, or the
last call made the last record the head. -/
def Ready (records : List PayloadRecord) (trace : List Exchange) : ℕ → Prop
  | 0 => trace = []
  | i + 1 =>
      d.advanceHead = true → d.Licensed records trace (i + 1) ∧
        ∀ r, records[i]? = some r → ∃ front last, trace = front ++ [last] ∧
          last.Advances r.blockHash

variable {d} {records : List PayloadRecord} {i n : ℕ} {r : PayloadRecord} {t : Turn}
  {trace calls : List Exchange} {prevHash : Json}

theorem isNewPayload_of_submission {call : EngineCall} (h : d.submission r = .ok call) :
    call.isNewPayload = true := by
  unfold submission at h
  rcases hversion : d.version r with e | version
  · rw [hversion] at h
    cases h
  · rw [hversion] at h
    cases h
    rfl

theorem submissions_succ (hrecord : records[n]? = some r) :
    d.submissions records (n + 1) = d.submissions records n ++ [(n, d.submission r)] := by
  obtain ⟨hlt, -⟩ := List.getElem?_eq_some_iff.mp hrecord
  rw [submissions, List.take_add_one, hrecord, List.mapIdx_append, submissions]
  simp [List.length_take, Nat.min_eq_left (Nat.le_of_lt hlt)]

/-- A licence is not lost by making more calls. -/
theorem Licensed.append {past : List Exchange} (h : d.Licensed records past i)
    (more : List Exchange) : d.Licensed records (past ++ more) i := by
  cases i with
  | zero =>
      obtain ⟨r, hr, x, hx, hadvances⟩ := h
      exact ⟨r, hr, x, List.mem_append_left _ hx, hadvances⟩
  | succ i =>
      obtain ⟨r, hr, took, landed, hsub, hrest⟩ := h
      exact ⟨r, hr, took, landed, hsub.trans (List.sublist_append_left _ _), hrest⟩

/-- The first record's preflight licenses its payload. -/
theorem licensed_preflight (hadvance : d.advanceHead = true) (hrecord : records[0]? = some r)
    (hparent : d.ParentOk r t .null) : d.Licensed records (d.preflightCalls i r t .null) 0 := by
  refine ⟨r, hrecord, ⟨i, .preflight, .forkchoiceUpdated r.parentHash, t.base.result⟩, ?_,
    rfl, hparent hadvance⟩
  simp [preflightCalls, hadvance]

/-- A payload that was taken, and a poll that saw it land, license the next. -/
theorem licensed_landed {call : EngineCall} {front : List Reply} {reply : Reply}
    {status : Json} (past : List Exchange) (hrecord : records[i]? = some r)
    (hcall : d.submission r = .ok call) (htakes : Takes t status)
    (hvalid : (reply.result >>= forkchoiceStatus) = .ok (.str "VALID")) :
    d.Licensed records
      (past ++ ⟨i, .submission, call, t.newPayload.result⟩ ::
        Progress.pollExchanges i r (front ++ [reply])) (i + 1) := by
  refine ⟨r, hrecord, ⟨i, .submission, call, t.newPayload.result⟩,
    ⟨i, .landing, .forkchoiceUpdated r.blockHash, reply.result⟩, ?_, rfl,
    ⟨hcall, status, htakes⟩, rfl, hvalid⟩
  apply List.Sublist.trans ?_ (List.sublist_append_right _ _)
  apply List.Sublist.cons_cons
  rw [List.singleton_sublist]
  simp [Progress.pollExchanges]

/-- A safe trace stays safe when calls are made that submit nothing. -/
theorem Safe.append_free (h : d.Safe records n trace)
    (hfree : ∀ x ∈ calls, x.call.isNewPayload = false)
    (hhead : d.advanceHead = false → calls = []) : d.Safe records n (trace ++ calls) where
  le_length := h.le_length
  le_count := h.le_count
  inOrder := by
    have hnone : newPayloadCalls calls = [] := by
      rw [newPayloadCalls, List.filter_eq_nil_iff.mpr]
      · rfl
      · intro x hx
        simp [hfree x hx]
    rw [newPayloadCalls_append, hnone, List.append_nil, h.inOrder]
  licensed hadvance := by
    apply (h.licensed hadvance).append_free
    intro x hx past hpayload
    rw [hfree x hx] at hpayload
    cases hpayload
  headKept hkeep := by
    rw [hhead hkeep, List.append_nil]
    exact h.headKept hkeep

/-- A safe trace stays safe when the next payload is sent with a licence. -/
theorem Safe.send {call : EngineCall} {site : CallSite} {result : Except Exn Json}
    (h : d.Safe records i trace) (hrecord : records[i]? = some r) (hcut : ¬ d.Cut i t)
    (hcall : d.submission r = .ok call)
    (hlicensed : d.advanceHead = true → d.Licensed records trace i) :
    d.Safe records (i + 1) (trace ++ [⟨i, site, call, result⟩]) where
  le_length := by
    obtain ⟨hlt, -⟩ := List.getElem?_eq_some_iff.mp hrecord
    exact hlt
  le_count c hc := by
    have hnot : ¬ c ≤ i := by
      intro hle
      apply hcut
      left
      simp [countReached, hc, hle]
    omega
  inOrder := by
    rw [newPayloadCalls_append, h.inOrder, submissions_succ hrecord, hcall]
    simp [newPayloadCalls, isNewPayload_of_submission hcall]
  licensed hadvance := justified_snoc_iff.mpr ⟨h.licensed hadvance, fun _ => hlicensed hadvance⟩
  headKept hkeep := by
    intro x hx head
    rcases List.mem_append.mp hx with hx | hx
    · exact h.headKept hkeep x hx head
    · obtain rfl := List.mem_singleton.mp hx
      intro heq
      have hpayload := isNewPayload_of_submission hcall
      rw [show call = _ from heq] at hpayload
      cases hpayload

theorem not_isNewPayload_of_mem_preflightCalls {x : Exchange}
    (h : x ∈ d.preflightCalls i r t prevHash) : x.call.isNewPayload = false := by
  obtain ⟨-, -, rfl⟩ := preflightCalls_site h
  rfl

theorem not_isNewPayload_of_mem_pollExchanges {x : Exchange} {replies : List Reply}
    (h : x ∈ Progress.pollExchanges i r replies) : x.call.isNewPayload = false := by
  obtain ⟨reply, -, rfl⟩ := List.mem_map.mp h
  rfl

theorem preflightCalls_eq_nil (hkeep : d.advanceHead = false) :
    d.preflightCalls i r t prevHash = [] := by
  rw [List.eq_nil_iff_forall_not_mem]
  intro x hx
  obtain ⟨hadvance, -⟩ := preflightCalls_site hx
  rw [hkeep] at hadvance
  cases hadvance

/-- A payload sent with a licence, and the polls after it, keep the trace safe. -/
theorem Safe.sentCalls {call : EngineCall} {replies : List Reply} (h : d.Safe records i trace)
    (hrecord : records[i]? = some r) (hsent : d.Sent i r t call prevHash)
    (hlicensed : d.advanceHead = true →
      d.Licensed records (trace ++ d.preflightCalls i r t prevHash) i)
    (hpolls : replies ≠ [] → d.advanceHead = true) :
    d.Safe records (i + 1)
      (trace ++ (d.preflightCalls i r t prevHash ++
        ⟨i, .submission, call, t.newPayload.result⟩ :: Progress.pollExchanges i r replies)) := by
  have hpreflighted : d.Safe records i (trace ++ d.preflightCalls i r t prevHash) :=
    h.append_free (fun x => not_isNewPayload_of_mem_preflightCalls) preflightCalls_eq_nil
  have hsubmitted : d.Safe records (i + 1)
      (trace ++ d.preflightCalls i r t prevHash ++
        [⟨i, .submission, call, t.newPayload.result⟩]) :=
    hpreflighted.send hrecord hsent.notCut hsent.call_eq hlicensed
  have hpolled : d.Safe records (i + 1)
      (trace ++ d.preflightCalls i r t prevHash ++
        [⟨i, .submission, call, t.newPayload.result⟩] ++ Progress.pollExchanges i r replies) := by
    apply hsubmitted.append_free
    · intro x hx
      exact not_isNewPayload_of_mem_pollExchanges hx
    · intro hkeep
      by_contra hne
      have hadvance := hpolls fun hnil => hne (by rw [hnil]; rfl)
      rw [hkeep] at hadvance
      cases hadvance
  simpa [List.append_assoc] using hpolled

/-- A payload that was taken, and the last poll that saw it land, leave the trace
ready for the next record. -/
theorem ready_landed {call : EngineCall} {front : List Reply} {reply : Reply} {status : Json}
    (past : List Exchange) (hrecord : records[i]? = some r) (hcall : d.submission r = .ok call)
    (htakes : Takes t status)
    (hvalid : (reply.result >>= forkchoiceStatus) = .ok (.str "VALID")) :
    d.Ready records
      (past ++ ⟨i, .submission, call, t.newPayload.result⟩ ::
        Progress.pollExchanges i r (front ++ [reply])) (i + 1) := by
  intro _
  refine ⟨licensed_landed past hrecord hcall htakes hvalid, ?_⟩
  intro r' hr'
  obtain rfl := Option.some_inj.mp (hrecord.symm.trans hr')
  refine ⟨past ++ ⟨i, .submission, call, t.newPayload.result⟩ :: Progress.pollExchanges i r front,
    ⟨i, .landing, .forkchoiceUpdated r.blockHash, reply.result⟩, ?_, rfl, hvalid⟩
  simp [Progress.pollExchanges]

/-- The step lemma: an iteration keeps the trace safe, and falls through ready for
the next record. -/
theorem Safe.turnCalls {exit : Option Exit} (h : d.Safe records i trace)
    (hready : d.Ready records trace i) (hfirst : i = 0 → prevHash = .null)
    (hrecord : records[i]? = some r) (hcalls : d.TurnCalls i r t prevHash exit calls) :
    (∃ n, d.Safe records n (trace ++ calls)) ∧
      (exit = none → d.Safe records (i + 1) (trace ++ calls) ∧
        d.Ready records (trace ++ calls) (i + 1)) := by
  cases hcalls with
  | cut hcut =>
      refine ⟨⟨i, ?_⟩, nofun⟩
      simpa using h
  | unsent e hcut hunsent =>
      refine ⟨⟨i, ?_⟩, nofun⟩
      exact h.append_free (fun x => not_isNewPayload_of_mem_preflightCalls)
        preflightCalls_eq_nil
  | sent _ call replies hsent hexit hpolls hfalls =>
      have hlicensed : d.advanceHead = true →
          d.Licensed records (trace ++ d.preflightCalls i r t prevHash) i := by
        intro hadvance
        cases i with
        | zero =>
            obtain rfl := hfirst rfl
            obtain rfl : trace = [] := hready
            exact licensed_preflight hadvance hrecord hsent.parentOk
        | succ i => exact (hready hadvance).1.append _
      have hsafe := h.sentCalls hrecord hsent hlicensed hpolls
      refine ⟨⟨i + 1, hsafe⟩, fun hnone => ⟨hsafe, fun hadvance => ?_⟩⟩
      obtain ⟨⟨status, htakes⟩, hlast⟩ := hfalls hnone
      obtain ⟨front, reply, rfl, hvalid⟩ := hlast hadvance
      rw [← List.append_assoc]
      exact ready_landed _ hrecord hsent.call_eq htakes hvalid hadvance

/-- Every iteration that falls through adds one row. -/
theorem turn_rows {s s' : Progress} (h : d.turn i (r, t) s = (none, s')) :
    s'.rows.length = s.rows.length + 1 := by
  have hstep := d.turn_step i r t s
  rw [h] at hstep
  cases hstep with
  | executed => simp
  | landed => simp

/-- What holds whenever the loop arrives at a record. -/
structure Between (d : ReplayDriver) (records : List PayloadRecord) (k : ℕ) (s : Progress) :
    Prop where
  safe : d.Safe records k s.trace
  ready : d.Ready records s.trace k
  rows : s.rows.length = k

/-- One iteration, from the state in which the loop arrives at its record. -/
theorem Between.turn {steps : List (PayloadRecord × Turn)} {content : Option String} {k : ℕ}
    {s : Progress} (h : d.Between (steps.map Prod.fst) k s)
    (here : Arrives d.turn steps (.start content) k s) (item : steps[k]? = some (r, t)) :
    (∃ n, d.Safe (steps.map Prod.fst) n (d.turn k (r, t) s).2.trace) ∧
      ((d.turn k (r, t) s).1 = none →
        d.Safe (steps.map Prod.fst) (k + 1) (d.turn k (r, t) s).2.trace ∧
          d.Ready (steps.map Prod.fst) (d.turn k (r, t) s).2.trace (k + 1)) := by
  have hrecord : (steps.map Prod.fst)[k]? = some r := by simp [item]
  have hfirst : k = 0 → s.prevHash = .null := by
    rintro rfl
    exact prevHash_of_arrives here
  obtain ⟨calls, htrace, hcalls⟩ := d.turn_calls k r t s
  rw [htrace]
  exact h.safe.turnCalls h.ready hfirst hrecord hcalls

/-- The run lemma: the invariant holds on arrival at every record. -/
theorem between_of_arrives {steps : List (PayloadRecord × Turn)} {content : Option String}
    {k : ℕ} {s : Progress} (h : Arrives d.turn steps (.start content) k s) :
    d.Between (steps.map Prod.fst) k s := by
  induction h with
  | start =>
      refine ⟨⟨Nat.zero_le _, fun _ _ => Nat.zero_le _, rfl, fun _ => justified_nil, ?_⟩,
        rfl, rfl⟩
      intro hkeep x hx
      cases hx
  | @next k step s s' here item falls ih =>
      obtain ⟨r, t⟩ := step
      obtain ⟨-, hnext⟩ := ih.turn here item
      rw [falls] at hnext
      obtain ⟨hsafe, hready⟩ := hnext rfl
      exact ⟨hsafe, hready, by rw [turn_rows falls, ih.rows]⟩

/-- The protocol as seen from outside: the calls of the run, and what a caller
may conclude from its return. -/
structure ProtocolSafe (d : ReplayDriver) (records : List PayloadRecord)
    (result : Outcome × Progress) : Prop where
  safe : ∃ n, d.Safe records n result.2.trace
  blocks : ∀ summary, result.1 = .returned summary →
    summary.blocks = (newPayloadCalls result.2.trace).length
  head : ∀ summary, result.1 = .returned summary → d.advanceHead = true →
    ∀ i r, (newPayloadCalls result.2.trace).length = i + 1 → records[i]? = some r →
      ∃ front last, result.2.trace = front ++ [last] ∧ last.Advances r.blockHash

theorem Safe.length_newPayloadCalls (h : d.Safe records n trace) :
    (newPayloadCalls trace).length = n := by
  rw [h.inOrder, submissions, List.length_mapIdx, List.length_take,
    Nat.min_eq_left h.le_length]

/-- Returning from between two iterations. -/
theorem Between.protocolSafe {k : ℕ} {s : Progress} (h : d.Between records k s) :
    d.ProtocolSafe records (d.ending none s) where
  safe := ⟨k, by rw [ending_trace]; exact h.safe⟩
  blocks summary hreturned := by
    cases hreturned
    rw [ending_trace, h.safe.length_newPayloadCalls, ReplayDriver.summary, writeCsv_rows, h.rows]
  head summary _ hadvance i r hlength hr := by
    rw [ending_trace, h.safe.length_newPayloadCalls] at hlength
    subst hlength
    rw [ending_trace]
    exact (h.ready hadvance).2 r hr

/-- A run that does not return has only its calls to answer for. -/
theorem Safe.protocolSafe {s : Progress} (h : d.Safe records n s.trace) (outcome : Outcome)
    (hnot : ∀ summary, outcome ≠ .returned summary) : d.ProtocolSafe records (outcome, s) where
  safe := ⟨n, h⟩
  blocks summary hreturned := absurd hreturned (hnot summary)
  head summary hreturned := absurd hreturned (hnot summary)

/-- The calls of a run are safe. -/
theorem exists_safe_run (d : ReplayDriver) (content : Option String)
    (steps : List (PayloadRecord × Turn)) :
    ∃ n, d.Safe (steps.map Prod.fst) n (d.run content steps).2.trace := by
  rcases d.run_cases content steps with
    ⟨s, hs, hrun⟩ | ⟨k, r, t, s, exit, s', hs, item, hturn, hrun⟩
  · rw [hrun, ending_trace]
    exact ⟨steps.length, (between_of_arrives hs).safe⟩
  · obtain ⟨⟨n, hsafe⟩, -⟩ := (between_of_arrives hs).turn hs item
    rw [hturn] at hsafe
    rw [hrun, ending_trace]
    exact ⟨n, hsafe⟩

/-- A payload sent is the submission of the record of its iteration. -/
theorem submission_of_mem_trace {x : Exchange} {content : Option String}
    {steps : List (PayloadRecord × Turn)} (hx : x ∈ (d.run content steps).2.trace)
    (hsends : x.call.isNewPayload = true) :
    ∃ r, (steps.map Prod.fst)[x.turn]? = some r ∧ d.submission r = .ok x.call := by
  obtain ⟨n, hsafe⟩ := d.exists_safe_run content steps
  have hmem : (x.turn, Except.ok x.call) ∈ d.submissions (steps.map Prod.fst) n := by
    rw [← hsafe.inOrder, newPayloadCalls]
    exact List.mem_map.mpr ⟨x, List.mem_filter.mpr ⟨hx, hsends⟩, rfl⟩
  obtain ⟨i, hi, heq⟩ := List.mem_mapIdx.mp hmem
  obtain ⟨rfl, hcall⟩ := Prod.mk.inj heq
  have hlt : x.turn < (steps.map Prod.fst).length :=
    lt_of_lt_of_le hi (List.length_take_le' n (steps.map Prod.fst))
  refine ⟨(steps.map Prod.fst)[x.turn], List.getElem?_eq_getElem hlt, ?_⟩
  rw [List.getElem_take] at hcall
  exact hcall

/-- **A replay is safe**, whatever the records, the engine's answers, the stop
event, the clock and the file left by an earlier run. -/
theorem run_protocolSafe (d : ReplayDriver) (content : Option String)
    (steps : List (PayloadRecord × Turn)) :
    d.ProtocolSafe (steps.map Prod.fst) (d.run content steps) := by
  rcases d.run_cases content steps with
    ⟨s, hs, hrun⟩ | ⟨k, r, t, s, exit, s', hs, item, hturn, hrun⟩
  · rw [hrun]
    exact (between_of_arrives hs).protocolSafe
  · have hbetween := between_of_arrives hs
    obtain ⟨⟨n, hsafe⟩, -⟩ := hbetween.turn hs item
    rw [hturn] at hsafe
    rw [hrun]
    cases exit with
    | raised e =>
        show d.ProtocolSafe _ (Outcome.raised e, s')
        exact hsafe.protocolSafe _ fun _ => by simp
    | waiting =>
        show d.ProtocolSafe _ (Outcome.waiting, s')
        exact hsafe.protocolSafe _ fun _ => by simp
    | stop =>
        have hstopped : s' = s := by
          have hstep := d.turn_step k r t s
          rw [hturn] at hstep
          cases hstep
          rfl
        rw [hstopped]
        exact hbetween.protocolSafe

end ReplayDriver

end StateBenchmarks.MockCl
