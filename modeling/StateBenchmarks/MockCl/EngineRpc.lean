/-
# One call to the Engine API

`EngineClient._rpc` posts a request, and posts it again after a timeout, a lost
connection or the error code of a busy server.  `timeout` is the budget of the
whole call, and the loop tests it before every request.

The server and the clock are adversarial.  What a round of the loop meets is an
`Attempt`: the clock at the test of the budget, what came of the request, and the
clock after it.  A call that has used up the attempts it is given would try again.
-/

import StateBenchmarks.Control.Loop
import StateBenchmarks.Control.Paced
import StateBenchmarks.MockCl.Engine

namespace StateBenchmarks.MockCl

open Python Control

/-- What comes of a request: a `Timeout` or a `ConnectionError` with its class and
text, any other exception, or a response with its status, its text and what its
`json` method does. -/
inductive Transport where
  | failed (kind text : String)
  | raised (e : Exn)
  | response (status : ℤ) (text : String) (body : Except Exn Json)

/-- What one round of the loop meets. -/
structure Attempt where
  before : ℚ
  outcome : Transport
  after : ℚ

/-- A request as it was sent, with the timeout it was given and the time. -/
structure SentRequest where
  request : RpcRequest
  id : ℤ
  timeout : ℚ
  issued : ℚ

/-- The last error noted, the requests sent, and what the clock showed last. -/
structure RpcState where
  lastError : Option FString
  sent : List SentRequest
  clock : ℚ

/-- The attributes `_rpc` uses. -/
structure EngineClient where
  timeout : ℚ
  id : ℤ

/-- A number of seconds as Python has it. -/
def secondsValue (q : ℚ) : Json := if q.den = 1 then .int q.num else .float q

namespace EngineClient

variable (c : EngineClient) (start : ℚ) (request : RpcRequest)

/-- The exception of a call whose budget is used up. -/
def budgetError (lastError : Option FString) : Exn :=
  .runtimeError (request.method ++ [.text " exceeded the ", .str (secondsValue c.timeout),
    .text "s wall-clock budget (last error: "] ++ lastError.getD [.text "none"] ++ [.text ")"])

def httpError (status : ℤ) (text : String) : Exn :=
  .runtimeError (request.method ++
    [.text " HTTP ", .str (.int status), .text ": ", .text text])

def jsonRpcError (error : Json) : Exn :=
  .runtimeError (request.method ++ [.text " JSON-RPC error: ", .str error])

/-- What the round makes of its request: the end of the call, or nothing if the
request is to be sent again. -/
def dispose (a : Attempt) : Option (Except Exn Json) :=
  match a.outcome with
  | .failed _ _ => none
  | .raised e => some (.error e)
  | .response status text body =>
      if status ≠ 200 then some (.error (httpError request status text))
      else
        match body with
        | .error e => some (.error e)
        | .ok data =>
            match data.get "error" with
            | .error e => some (.error e)
            | .ok .null => some (data.get "result")
            | .ok error =>
                match error.get "code" with
                | .error e => some (.error e)
                | .ok code =>
                    if code.pyEq (.int (-32002)) ∧ a.after - start < c.timeout then none
                    else some (.error (jsonRpcError request error))

/-- `last_error` after a request. -/
def noteError (last : Option FString) : Transport → Option FString
  | .failed kind text => some [.text kind, .text ": ", .text text]
  | .raised _ | .response _ _ _ => last

/-- The seconds of the budget a round has left. -/
def remaining (a : Attempt) : ℚ := c.timeout - (a.before - start)

/-- The request of a round, with `max(1.0, remaining)` for its timeout. -/
def posted (a : Attempt) : SentRequest :=
  ⟨request, c.id + 1, max 1 (c.remaining start a), a.before⟩

/-- The state after a round that sent its request. -/
def sendIn (a : Attempt) (s : RpcState) : RpcState where
  lastError := noteError s.lastError a.outcome
  sent := s.sent ++ [c.posted start request a]
  clock := a.after

/-- One round of the loop. -/
def rpcStep (_ : ℕ) (a : Attempt) (s : RpcState) : Option (Except Exn Json) × RpcState :=
  if c.remaining start a ≤ 0 then
    (some (.error (c.budgetError request s.lastError)), { s with clock := a.before })
  else (c.dispose start request a, c.sendIn start request a s)

/-- `_rpc`, begun at the time `start`. -/
def rpc (attempts : List Attempt) : Option (Except Exn Json) × RpcState :=
  forEach (c.rpcStep start request) 0 attempts ⟨none, [], start⟩

end EngineClient

/-- The outcomes after which a request is sent again: no response, or the error of a
busy server with some of the budget left. -/
inductive Retried (timeout spent : ℚ) : Transport → Prop
  | failed (kind text : String) : Retried timeout spent (.failed kind text)
  | unavailable (text : String) {data error code : Json} (herror : data.get "error" = .ok error)
      (hne : error ≠ .null) (hcode : error.get "code" = .ok code)
      (hunavailable : code.pyEq (.int (-32002)) = true) (hspent : spent < timeout) :
      Retried timeout spent (.response 200 text (.ok data))

/-- The responses that are refused: another status, or another error. -/
inductive Refused : Transport → Prop
  | status {status : ℤ} (text : String) (body : Except Exn Json) (hstatus : status ≠ 200) :
      Refused (.response status text body)
  | error (text : String) {data error code : Json} (herror : data.get "error" = .ok error)
      (hne : error ≠ .null) (hcode : error.get "code" = .ok code)
      (hother : code.pyEq (.int (-32002)) = false) : Refused (.response 200 text (.ok data))

/-- What a server can cause: failures, statuses, and objects whose error, if there is
one, is an object too. -/
inductive Expected : Transport → Prop
  | failed (kind text : String) : Expected (.failed kind text)
  | status {status : ℤ} (text : String) (body : Except Exn Json) (hstatus : status ≠ 200) :
      Expected (.response status text body)
  | result (text : String) {data result : Json} (herror : data.get "error" = .ok .null)
      (hresult : data.get "result" = .ok result) : Expected (.response 200 text (.ok data))
  | error (text : String) {data error code : Json} (herror : data.get "error" = .ok error)
      (hne : error ≠ .null) (hcode : error.get "code" = .ok code) :
      Expected (.response 200 text (.ok data))

theorem Retried.not_refused {timeout spent : ℚ} {outcome : Transport}
    (h : Retried timeout spent outcome) : ¬ Refused outcome := by
  intro hrefused
  cases h with
  | failed => cases hrefused
  | unavailable text herror hne hcode hunavailable hspent =>
      cases hrefused with
      | status text body hstatus => exact hstatus rfl
      | error text herror' hne' hcode' hother =>
          obtain rfl := Except.ok.inj (herror.symm.trans herror')
          obtain rfl := Except.ok.inj (hcode.symm.trans hcode')
          exact Bool.noConfusion (hunavailable.symm.trans hother)

/-- What is read of an expected body is there. -/
theorem Expected.reads {text : String} {data : Json}
    (h : Expected (.response 200 text (.ok data))) :
    ∃ error, data.get "error" = .ok error ∧
      (error = .null → ∃ result, data.get "result" = .ok result) ∧
      (error ≠ .null → ∃ code, error.get "code" = .ok code) := by
  cases h with
  | status text body hstatus => exact absurd rfl hstatus
  | result text herror hresult =>
      exact ⟨.null, herror, fun _ => ⟨_, hresult⟩, fun hne => absurd rfl hne⟩
  | error text herror hne hcode =>
      exact ⟨_, herror, fun hnull => absurd hnull hne, fun _ => ⟨_, hcode⟩⟩

/-- A response with a result and no error. -/
def Answers (outcome : Transport) (v : Json) : Prop :=
  ∃ text data, outcome = .response 200 text (.ok data) ∧ data.get "error" = .ok .null ∧
    data.get "result" = .ok v

namespace EngineClient

section Dispose

variable {c : EngineClient} {start : ℚ} {request : RpcRequest} {a : Attempt}

/-- What is made of a response with an error. -/
theorem dispose_of_error {text : String} {data error code : Json}
    (houtcome : a.outcome = .response 200 text (.ok data)) (herror : data.get "error" = .ok error)
    (hne : error ≠ .null) (hcode : error.get "code" = .ok code) :
    c.dispose start request a =
      if code.pyEq (.int (-32002)) ∧ a.after - start < c.timeout then none
      else some (.error (jsonRpcError request error)) := by
  unfold dispose
  rw [houtcome]
  dsimp only
  rw [if_neg (by decide), herror]
  cases error with
  | null => exact absurd rfl hne
  | _ =>
      dsimp only
      rw [hcode]

theorem dispose_of_status {status : ℤ} {text : String} {body : Except Exn Json}
    (houtcome : a.outcome = .response status text body) (hstatus : status ≠ 200) :
    c.dispose start request a = some (.error (httpError request status text)) := by
  unfold dispose
  rw [houtcome]
  exact if_pos hstatus

theorem dispose_of_retried (h : Retried c.timeout (a.after - start) a.outcome) :
    c.dispose start request a = none := by
  generalize houtcome : a.outcome = outcome at h
  cases h with
  | failed kind text => rw [dispose, houtcome]
  | unavailable text herror hne hcode hunavailable hspent =>
      rw [dispose_of_error houtcome herror hne hcode, if_pos ⟨hunavailable, hspent⟩]

theorem dispose_of_refused (h : Refused a.outcome) :
    ∃ message, c.dispose start request a = some (.error (.runtimeError message)) := by
  generalize houtcome : a.outcome = outcome at h
  cases h with
  | status text body hstatus => exact ⟨_, dispose_of_status houtcome hstatus⟩
  | error text herror hne hcode hother =>
      rw [dispose_of_error houtcome herror hne hcode, hother]
      exact ⟨_, if_neg fun h => Bool.noConfusion h.1⟩

variable (c start a) in
/-- What a round can make of its request, with what is then known of the outcome. -/
inductive Disposed : Option (Except Exn Json) → Prop
  | again (h : Retried c.timeout (a.after - start) a.outcome) : Disposed none
  | refused (message : FString) : Disposed (some (.error (.runtimeError message)))
  | answered {v : Json} (h : Answers a.outcome v) : Disposed (some (.ok v))
  | escaped (e : Exn) (h : ¬ Expected a.outcome) : Disposed (some (.error e))

/-- A response with status 200 and a body is disposed of by its error. -/
theorem disposed_of_body {text : String} {data : Json} (request : RpcRequest)
    (houtcome : a.outcome = .response 200 text (.ok data)) :
    c.Disposed start a (c.dispose start request a) := by
  rcases herror : data.get "error" with e | error
  · have hdispose : c.dispose start request a = some (.error e) := by
      simp [dispose, houtcome, herror]
    rw [hdispose]
    apply Disposed.escaped
    rw [houtcome]
    intro hexpected
    obtain ⟨error, hreads, -, -⟩ := hexpected.reads
    cases herror.symm.trans hreads
  · by_cases hnull : error = .null
    · subst hnull
      have hdispose : c.dispose start request a = some (data.get "result") := by
        simp [dispose, houtcome, herror]
      rw [hdispose]
      rcases hresult : data.get "result" with e | v
      · apply Disposed.escaped
        rw [houtcome]
        intro hexpected
        obtain ⟨error, hreads, hanswers, -⟩ := hexpected.reads
        obtain rfl := Except.ok.inj (herror.symm.trans hreads)
        obtain ⟨v, hv⟩ := hanswers rfl
        cases hresult.symm.trans hv
      · exact .answered ⟨text, data, houtcome, herror, hresult⟩
    · rcases hcode : error.get "code" with e | code
      · have hdispose : c.dispose start request a = some (.error e) := by
          simp [dispose, houtcome, herror, hcode]
        rw [hdispose]
        apply Disposed.escaped
        rw [houtcome]
        intro hexpected
        obtain ⟨error, hreads, -, hstates⟩ := hexpected.reads
        obtain rfl := Except.ok.inj (herror.symm.trans hreads)
        obtain ⟨code, hcode'⟩ := hstates hnull
        cases hcode.symm.trans hcode'
      · rw [dispose_of_error houtcome herror hnull hcode]
        split_ifs with hagain
        · exact .again (houtcome ▸ .unavailable text herror hnull hcode hagain.1 hagain.2)
        · exact .refused _

/-- Every request is disposed of in one of these ways. -/
theorem disposed (c : EngineClient) (start : ℚ) (request : RpcRequest) (a : Attempt) :
    c.Disposed start a (c.dispose start request a) := by
  cases houtcome : a.outcome with
  | failed kind text =>
      rw [dispose, houtcome]
      exact .again (houtcome ▸ .failed kind text)
  | raised e =>
      rw [dispose, houtcome]
      apply Disposed.escaped
      rw [houtcome]
      intro hexpected
      cases hexpected
  | response status text body =>
      by_cases hstatus : status = 200
      · subst hstatus
        cases body with
        | error e =>
            rw [dispose, houtcome]
            apply Disposed.escaped
            rw [houtcome]
            intro hexpected
            cases hexpected with
            | status text body hstatus => exact hstatus rfl
        | ok data => exact disposed_of_body request houtcome
      · rw [dispose_of_status houtcome hstatus]
        exact .refused _

theorem retried_of_dispose (h : c.dispose start request a = none) :
    Retried c.timeout (a.after - start) a.outcome := by
  have hdisposed := c.disposed start request a
  rw [h] at hdisposed
  cases hdisposed with
  | again hretried => exact hretried

theorem answers_of_dispose {v : Json} (h : c.dispose start request a = some (.ok v)) :
    Answers a.outcome v := by
  have hdisposed := c.disposed start request a
  rw [h] at hdisposed
  cases hdisposed with
  | answered hanswers => exact hanswers

theorem runtimeError_of_dispose {e : Exn} (hexpected : Expected a.outcome)
    (h : c.dispose start request a = some (.error e)) : ∃ message, e = .runtimeError message := by
  have hdisposed := c.disposed start request a
  rw [h] at hdisposed
  cases hdisposed with
  | refused message => exact ⟨message, rfl⟩
  | escaped e hnot => exact absurd hexpected hnot

end Dispose

/-! ## Runs of the loop -/

section Runs

variable {c : EngineClient} {start : ℚ} {request : RpcRequest} {attempts : List Attempt}
  {a : Attempt} {k : ℕ} {s : RpcState}

theorem rpcStep_of_spent (h : c.timeout ≤ a.before - start) :
    c.rpcStep start request k a s =
      (some (.error (c.budgetError request s.lastError)), { s with clock := a.before }) :=
  if_pos (sub_nonpos_of_le h)

theorem rpcStep_of_left (h : a.before - start < c.timeout) :
    c.rpcStep start request k a s =
      (c.dispose start request a, c.sendIn start request a s) :=
  if_neg (not_le_of_gt (sub_pos_of_lt h))

/-- Every round before `k` found some of the budget left, and may be repeated. -/
def Reaches (c : EngineClient) (start : ℚ) (attempts : List Attempt) (k : ℕ) : Prop :=
  ∀ j < k, ∃ a, attempts[j]? = some a ∧ a.before - start < c.timeout ∧
    Retried c.timeout (a.after - start) a.outcome

/-- A round falls through exactly if it sends its request and the request may be
sent again. -/
theorem rpcStep_falls_iff :
    (c.rpcStep start request k a s).1 = none ↔
      a.before - start < c.timeout ∧ Retried c.timeout (a.after - start) a.outcome := by
  rcases lt_or_ge (a.before - start) c.timeout with hleft | hspent
  · rw [rpcStep_of_left hleft]
    apply Iff.intro
    · intro hnone
      exact ⟨hleft, retried_of_dispose hnone⟩
    · rintro ⟨-, hretried⟩
      exact dispose_of_retried hretried
  · rw [rpcStep_of_spent hspent]
    apply Iff.intro
    · intro hnone
      cases hnone
    · rintro ⟨hleft, -⟩
      exact absurd hspent (not_le_of_gt hleft)

/-- A call gets to round `k` exactly if its inputs do. -/
theorem arrives_iff :
    (∃ s, Arrives (c.rpcStep start request) attempts ⟨none, [], start⟩ k s) ↔
      c.Reaches start attempts k :=
  Arrives.exists_iff _ fun _ _ _ _ _ => rpcStep_falls_iff

/-- By then it has sent the requests of the rounds before. -/
theorem sent_of_arrives
    (h : Arrives (c.rpcStep start request) attempts ⟨none, [], start⟩ k s) :
    s.sent = (attempts.take k).map (c.posted start request) := by
  induction h with
  | start => rfl
  | @next k a t t' here item falls ih =>
      have hfalls : (c.rpcStep start request k a t).1 = none := by rw [falls]
      have hstate : (c.rpcStep start request k a t).2 = t' := by rw [falls]
      rw [rpcStep_of_left (rpcStep_falls_iff.mp hfalls).1] at hstate
      rw [← hstate, List.take_add_one, item, List.map_append, ← ih]
      rfl

variable (c start request attempts) in
/-- How a call can end, with the requests it has sent by then. -/
inductive CallEnds : Option (Except Exn Json) × RpcState → Prop
  /-- The attempts given are used up. -/
  | retrying (s : RpcState) (hreaches : c.Reaches start attempts attempts.length)
      (hsent : s.sent = attempts.map (c.posted start request)) : CallEnds (none, s)
  /-- The budget is. -/
  | exhausted (k : ℕ) (a : Attempt) (message : FString) (s : RpcState)
      (hreaches : c.Reaches start attempts k) (item : attempts[k]? = some a)
      (hspent : c.timeout ≤ a.before - start) (hclock : s.clock = a.before)
      (hsent : s.sent = (attempts.take k).map (c.posted start request)) :
      CallEnds (some (.error (.runtimeError message)), s)
  /-- The last response decides. -/
  | decided (k : ℕ) (a : Attempt) (result : Except Exn Json) (s : RpcState)
      (hreaches : c.Reaches start attempts k) (item : attempts[k]? = some a)
      (hleft : a.before - start < c.timeout)
      (hresult : c.dispose start request a = some result) (hclock : s.clock = a.after)
      (hsent : s.sent = (attempts.take (k + 1)).map (c.posted start request)) :
      CallEnds (some result, s)

/-- Every call ends in one of these ways. -/
theorem rpc_ends (c : EngineClient) (start : ℚ) (request : RpcRequest)
    (attempts : List Attempt) :
    c.CallEnds start request attempts (c.rpc start request attempts) := by
  unfold rpc
  rcases forEach_cases (c.rpcStep start request) attempts ⟨none, [], start⟩ with
    ⟨s, hs⟩ | ⟨k, a, s, result, s', hs, item, hstep⟩
  · rw [hs.forEach_eq_none]
    have hsent := sent_of_arrives hs
    rw [List.take_length] at hsent
    exact .retrying s (arrives_iff.mp ⟨s, hs⟩) hsent
  · rw [hs.forEach_eq_some item hstep]
    have hreaches := arrives_iff.mp ⟨s, hs⟩
    rcases lt_or_ge (a.before - start) c.timeout with hleft | hspent
    · rw [rpcStep_of_left hleft, Prod.mk.injEq] at hstep
      obtain ⟨hresult, rfl⟩ := hstep
      apply CallEnds.decided k a result _ hreaches item hleft hresult rfl
      rw [List.take_add_one, item, List.map_append, ← sent_of_arrives hs]
      rfl
    · rw [rpcStep_of_spent hspent, Prod.mk.injEq, Option.some.injEq] at hstep
      obtain ⟨rfl, rfl⟩ := hstep
      have hsent := sent_of_arrives hs
      exact .exhausted k a _ _ hreaches item hspent rfl hsent

/-- With a second's sleep after each, only as many rounds find some of the budget left
as it has seconds. -/
theorem lt_ceil_of_left (hpaced : Paced Attempt.before Attempt.after 1 start attempts)
    (item : attempts[k]? = some a) (hleft : a.before - start < c.timeout) :
    k < ⌈c.timeout⌉₊ := by
  have hbefore : start + k * 1 ≤ a.before := hpaced.add_le_enter item
  apply Nat.lt_ceil.mpr
  linarith

theorem le_ceil_of_reaches (hpaced : Paced Attempt.before Attempt.after 1 start attempts)
    (hreaches : c.Reaches start attempts k) : k ≤ ⌈c.timeout⌉₊ := by
  cases k with
  | zero => exact Nat.zero_le _
  | succ k =>
      obtain ⟨a, item, hleft, -⟩ := hreaches k (Nat.lt_succ_self k)
      exact lt_ceil_of_left hpaced item hleft

end Runs

/-- What a call may do, from what it ends with: `n` requests, all the same, in the first
`n` rounds. -/
structure RetriesOnlyWhatItMay (c : EngineClient) (start : ℚ) (request : RpcRequest)
    (attempts : List Attempt) (n : ℕ) (run : Option (Except Exn Json) × RpcState) : Prop where
  sent : run.2.sent = (attempts.take n).map (c.posted start request)
  count : run.2.sent.length = n
  same : ∀ q ∈ run.2.sent, q.request = request ∧ q.id = c.id + 1
  bounded : n ≤ ⌈c.timeout⌉₊
  ends : ⌈c.timeout⌉₊ < attempts.length → ∃ result, run.1 = some result
  retried : ∀ k, k + 1 < n → ∃ a, attempts[k]? = some a ∧
    Retried c.timeout (a.after - start) a.outcome
  refused : ∀ k < n, ∀ a, attempts[k]? = some a → Refused a.outcome →
    n = k + 1 ∧ ∃ message, run.1 = some (.error (.runtimeError message))
  answered : ∀ v, run.1 = some (.ok v) →
    ∃ k a, n = k + 1 ∧ attempts[k]? = some a ∧ Answers a.outcome v
  raised : (∀ a ∈ attempts, Expected a.outcome) →
    ∀ e, run.1 = some (.error e) → ∃ message, e = .runtimeError message

section

variable {c : EngineClient} {start : ℚ} {request : RpcRequest} {attempts : List Attempt}
  {m n : ℕ} {run : Option (Except Exn Json) × RpcState}

/-- What holds of every call that reached round `m` and sent no request after it; the
rest depends on how it ends. -/
theorem retriesOnlyWhatItMay_of_reaches (hreaches : c.Reaches start attempts m)
    (hsent : run.2.sent = (attempts.take n).map (c.posted start request))
    (hlast : n ≤ m + 1) (hlength : n ≤ attempts.length) (hbounded : n ≤ ⌈c.timeout⌉₊)
    (hended : ⌈c.timeout⌉₊ < attempts.length → ∃ result, run.1 = some result)
    (hrefused : n = m + 1 → ∀ a, attempts[m]? = some a → Refused a.outcome →
      ∃ message, run.1 = some (.error (.runtimeError message)))
    (hanswered : ∀ v, run.1 = some (.ok v) →
      ∃ k a, n = k + 1 ∧ attempts[k]? = some a ∧ Answers a.outcome v)
    (hraised : (∀ a ∈ attempts, Expected a.outcome) →
      ∀ e, run.1 = some (.error e) → ∃ message, e = .runtimeError message) :
    c.RetriesOnlyWhatItMay start request attempts n run where
  sent := hsent
  count := by rw [hsent, List.length_map, List.length_take, min_eq_left hlength]
  same := by
    intro q hq
    rw [hsent] at hq
    obtain ⟨a, -, rfl⟩ := List.mem_map.mp hq
    exact ⟨rfl, rfl⟩
  bounded := hbounded
  ends := hended
  retried := by
    intro k hk
    obtain ⟨a, item, -, hretried⟩ := hreaches k (Nat.lt_of_succ_lt_succ (hk.trans_le hlast))
    exact ⟨a, item, hretried⟩
  refused := by
    intro k hk a item hrefuses
    rcases Nat.lt_or_ge k m with hkm | hkm
    · obtain ⟨a', item', -, hretried⟩ := hreaches k hkm
      obtain rfl := Option.some.inj (item.symm.trans item')
      exact absurd hrefuses hretried.not_refused
    · obtain rfl : k = m := Nat.le_antisymm (Nat.le_of_lt_succ (hk.trans_le hlast)) hkm
      have hn : n = k + 1 := Nat.le_antisymm hlast hk
      exact ⟨hn, hrefused hn a item hrefuses⟩
  answered := hanswered
  raised := hraised

/-- Whatever the server answers, on a monotone clock a call retries only what it may,
and ends. -/
theorem rpc_retriesOnlyWhatItMay (c : EngineClient) (start : ℚ) (request : RpcRequest)
    (attempts : List Attempt)
    (hpaced : Paced Attempt.before Attempt.after 1 start attempts) :
    ∃ n, c.RetriesOnlyWhatItMay start request attempts n (c.rpc start request attempts) := by
  have hends := c.rpc_ends start request attempts
  generalize c.rpc start request attempts = run at hends ⊢
  cases hends with
  | retrying s hreaches hsent =>
      have hbounded := le_ceil_of_reaches hpaced hreaches
      refine ⟨attempts.length, retriesOnlyWhatItMay_of_reaches hreaches ?_ (Nat.le_succ _)
        le_rfl hbounded ?_ ?_ ?_ ?_⟩
      · rw [List.take_length]
        exact hsent
      · intro hlong
        exact absurd hlong (not_lt_of_ge hbounded)
      · intro hn
        exact absurd hn (Nat.ne_of_lt (Nat.lt_succ_self _))
      · intro v hv
        cases hv
      · intro _ e he
        cases he
  | exhausted k a message s hreaches item hspent hclock hsent =>
      have hlength : k < attempts.length := (List.getElem?_eq_some_iff.mp item).1
      refine ⟨k, retriesOnlyWhatItMay_of_reaches hreaches hsent (Nat.le_succ _)
        hlength.le (le_ceil_of_reaches hpaced hreaches) ?_ ?_ ?_ ?_⟩
      · intro _
        exact ⟨_, rfl⟩
      · intro hn
        exact absurd hn (Nat.ne_of_lt (Nat.lt_succ_self _))
      · intro v hv
        cases hv
      · intro _ e he
        cases he
        exact ⟨message, rfl⟩
  | decided k a result s hreaches item hleft hresult hclock hsent =>
      have hlength : k < attempts.length := (List.getElem?_eq_some_iff.mp item).1
      refine ⟨k + 1, retriesOnlyWhatItMay_of_reaches hreaches hsent le_rfl hlength
        (lt_ceil_of_left hpaced item hleft) ?_ ?_ ?_ ?_⟩
      · intro _
        exact ⟨result, rfl⟩
      · intro _ a' item' hrefuses
        obtain rfl := Option.some.inj (item.symm.trans item')
        obtain ⟨message, hdispose⟩ := dispose_of_refused hrefuses
        exact ⟨message, hresult.symm.trans hdispose⟩
      · intro v hv
        obtain rfl := Option.some.inj hv
        exact ⟨k, a, rfl, item, answers_of_dispose hresult⟩
      · intro hexpected e he
        obtain rfl := Option.some.inj he
        exact runtimeError_of_dispose (hexpected a (List.mem_of_getElem? item)) hresult

end

/-- A lost connection, a busy server, then the result. -/
theorem rpc_retriesOnlyWhatItMay_thirdTry :
    ∃ n, (EngineClient.mk 10 0).RetriesOnlyWhatItMay 0 ⟨[.text "engine_newPayloadV3"], []⟩
      [⟨0, .failed "ConnectionError" "refused", 4⟩,
        ⟨5, .response 200 "" (.ok (.obj [("error", .obj [("code", .int (-32002))])])), 6⟩,
        ⟨7, .response 200 "" (.ok (.obj [("result", .obj [("status", .str "VALID")])])), 8⟩] n
      ((EngineClient.mk 10 0).rpc 0 ⟨[.text "engine_newPayloadV3"], []⟩
        [⟨0, .failed "ConnectionError" "refused", 4⟩,
          ⟨5, .response 200 "" (.ok (.obj [("error", .obj [("code", .int (-32002))])])), 6⟩,
          ⟨7, .response 200 "" (.ok (.obj [("result", .obj [("status", .str "VALID")])])), 8⟩]) :=
  rpc_retriesOnlyWhatItMay _ _ _ _ (by norm_num [Paced])

end EngineClient

end StateBenchmarks.MockCl
