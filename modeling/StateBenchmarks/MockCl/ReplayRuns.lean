/-
# Runs of the replay

A run arrives at record `k` exactly when the inputs of every earlier iteration
land, and it then remembers the hash of record `k - 1`.  Conditions on a run can
therefore be stated on its inputs alone, through `Reaches`.

The engine calls of an iteration are a short list with little freedom: at most
one preflight, then at most one payload, then the polls of that payload.
`TurnCalls` says so, and a fact about the calls of a run is proved for each of
its three cases.
-/

import StateBenchmarks.MockCl.ReplaySteps

namespace StateBenchmarks.MockCl

open Python Control

namespace ReplayDriver

variable (d : ReplayDriver)

/-- An iteration falls through to the next record exactly when its inputs land. -/
theorem turn_falls_iff (i : ℕ) (r : PayloadRecord) (t : Turn) (s : Progress) :
    (d.turn i (r, t) s).1 = none ↔ d.Lands i r t s.prevHash := by
  have hstep := d.turn_step i r t s
  generalize d.turn i (r, t) s = result at hstep
  constructor
  · intro hnone
    cases hstep with
    | executed call status hsent htakes hadvance =>
        refine ⟨hsent.notCut, hsent.parentOk, ⟨call, hsent.call_eq⟩, ⟨status, htakes⟩, ?_⟩
        intro htrue
        rw [hadvance] at htrue
        cases htrue
    | landed call status front reply fcuMs syncWaitMs hsent htakes hadvance hpoll hvalid =>
        exact ⟨hsent.notCut, hsent.parentOk, ⟨call, hsent.call_eq⟩, ⟨status, htakes⟩,
          fun _ => ⟨reply, hpoll⟩⟩
    | _ => cases hnone
  · intro hlands
    obtain ⟨status, hresult, haccepted⟩ := hlands.takes
    cases hstep with
    | stopped hcut => exact absurd hcut hlands.notCut
    | refused e hcut hparent => exact absurd hlands.parentOk hparent
    | unversioned e hcut hparent hcall =>
        obtain ⟨call, hcall'⟩ := hlands.submitted
        rw [hcall] at hcall'
        cases hcall'
    | escaped e call hsent herror =>
        rw [herror] at hresult
        cases hresult
    | unreadable e call answer hsent hanswer hstatus =>
        rw [hanswer] at hresult
        cases hstatus.symm.trans hresult
    | rejected call answer status' hsent hanswer hstatus hrejected =>
        rw [hanswer] at hresult
        obtain rfl := Except.ok.inj (hstatus.symm.trans hresult)
        rw [hrejected] at haccepted
        cases haccepted
    | executed | landed => rfl
    | polling call status' hsent htakes hadvance hpoll =>
        obtain ⟨reply, hreply⟩ := hlands.lands hadvance
        cases hpoll.symm.trans hreply
    | lost e call status' replies hsent htakes hadvance hpoll =>
        obtain ⟨reply, hreply⟩ := hlands.lands hadvance
        cases hpoll.symm.trans hreply
    | failed call status' label message replies hsent htakes hadvance hpoll =>
        obtain ⟨reply, hreply⟩ := hlands.lands hadvance
        cases hpoll.symm.trans hreply

/-- An iteration that falls through leaves the hash of its record. -/
theorem turn_prevHash {i : ℕ} {r : PayloadRecord} {t : Turn} {s s' : Progress}
    (h : d.turn i (r, t) s = (none, s')) : s'.prevHash = r.blockHash := by
  have hstep := d.turn_step i r t s
  rw [h] at hstep
  cases hstep with
  | executed => simp [answered, submitted]
  | landed => simp [answered, submitted, Progress.polled]

/-- The hash remembered when the loop arrives at record `k`. -/
def prevHashAt (steps : List (PayloadRecord × Turn)) : ℕ → Json
  | 0 => .null
  | k + 1 =>
      match steps[k]? with
      | some step => step.1.blockHash
      | none => .null

/-- The inputs of every iteration before `k` land. -/
def Reaches (steps : List (PayloadRecord × Turn)) (k : ℕ) : Prop :=
  ∀ j < k, ∃ r t, steps[j]? = some (r, t) ∧ d.Lands j r t (prevHashAt steps j)

variable {d} {steps : List (PayloadRecord × Turn)} {content : Option String} {k : ℕ}
  {s : Progress}

theorem prevHash_of_arrives (h : Arrives d.turn steps (.start content) k s) :
    s.prevHash = prevHashAt steps k := by
  cases h with
  | start => rfl
  | @next k step t t' here item falls =>
      obtain ⟨r, t⟩ := step
      rw [prevHashAt, item]
      exact d.turn_prevHash falls

/-- A run arrives at record `k` exactly when its inputs reach it. -/
theorem arrives_iff :
    (∃ s, Arrives d.turn steps (.start content) k s) ↔ d.Reaches steps k := by
  rw [Arrives.exists_iff fun j step => d.Lands j step.1 step.2 (prevHashAt steps j)]
  · simp only [Reaches, Prod.exists]
  · intro j step s hs _
    rw [← prevHash_of_arrives hs]
    exact d.turn_falls_iff j step.1 step.2 s

/-- The outcome of a run that leaves its loop in one way or another. -/
def ending (d : ReplayDriver) (exit : Option Exit) (s : Progress) : Outcome × Progress :=
  match exit with
  | some (.raised e) => (.raised e, s)
  | some .waiting => (.waiting, s)
  | _ => (.returned (summary (d.writeCsv s)), d.writeCsv s)

theorem run_eq_ending (content : Option String) (steps : List (PayloadRecord × Turn)) :
    d.run content steps =
      d.ending (forEach d.turn 0 steps (.start content)).1
        (forEach d.turn 0 steps (.start content)).2 := by
  unfold run ending
  rcases forEach d.turn 0 steps (.start content) with ⟨_ | (_ | e | _), s⟩ <;> rfl

@[simp]
theorem ending_trace (exit : Option Exit) (s : Progress) :
    (d.ending exit s).2.trace = s.trace := by
  rcases exit with _ | (_ | e | _) <;> simp [ending]

/-- A run goes through all its records, or stops at the one it arrives at. -/
theorem run_cases (d : ReplayDriver) (content : Option String)
    (steps : List (PayloadRecord × Turn)) :
    (∃ s, Arrives d.turn steps (.start content) steps.length s ∧
        d.run content steps = d.ending none s) ∨
      ∃ k r t s exit s', Arrives d.turn steps (.start content) k s ∧
        steps[k]? = some (r, t) ∧ d.turn k (r, t) s = (some exit, s') ∧
        d.run content steps = d.ending (some exit) s' := by
  rw [run_eq_ending]
  rcases forEach_cases d.turn steps (.start content) with
    ⟨s, hs⟩ | ⟨k, ⟨r, t⟩, s, exit, s', hs, item, hturn⟩
  · exact Or.inl ⟨s, hs, by rw [hs.forEach_eq_none]⟩
  · exact Or.inr ⟨k, r, t, s, exit, s', hs, item, hturn,
      by rw [hs.forEach_eq_some item hturn]⟩

/-- The run whose `k`-th iteration leaves ends there. -/
theorem run_eq_of_leaves {r : PayloadRecord} {t : Turn} {exit : Exit} {s' : Progress}
    (h : Arrives d.turn steps (.start content) k s) (item : steps[k]? = some (r, t))
    (hturn : d.turn k (r, t) s = (some exit, s')) :
    d.run content steps = d.ending (some exit) s' := by
  rw [run_eq_ending, h.forEach_eq_some item hturn]

/-- The preflight of an iteration: sent with no hash remembered, to learn whether
the engine knows the parent. -/
def preflightCalls (d : ReplayDriver) (i : ℕ) (r : PayloadRecord) (t : Turn)
    (prevHash : Json) : List Exchange :=
  match prevHash with
  | .null =>
      if d.advanceHead then
        [⟨i, .preflight, .forkchoiceUpdated r.parentHash, t.base.result⟩]
      else []
  | _ => []

/-- A preflight is sent to advance a head with no hash remembered. -/
theorem preflightCalls_site {i : ℕ} {r : PayloadRecord} {t : Turn} {prevHash : Json}
    {x : Exchange} (h : x ∈ d.preflightCalls i r t prevHash) :
    d.advanceHead = true ∧ prevHash = .null ∧
      x = ⟨i, .preflight, .forkchoiceUpdated r.parentHash, t.base.result⟩ := by
  unfold preflightCalls at h
  split at h
  · split at h
    · rename_i hadvance
      exact ⟨hadvance, rfl, List.mem_singleton.mp h⟩
    · cases h
  · cases h

/-- The calls around a payload carry the number of their iteration. -/
theorem turn_of_mem_preflightCalls {i : ℕ} {r : PayloadRecord} {t : Turn} {prevHash : Json} :
    ∀ x ∈ d.preflightCalls i r t prevHash, x.turn = i := by
  intro x hx
  obtain ⟨-, -, rfl⟩ := preflightCalls_site hx
  rfl

theorem turn_of_mem_pollExchanges {i : ℕ} {r : PayloadRecord} {replies : List Reply} :
    ∀ x ∈ Progress.pollExchanges i r replies, x.turn = i := by
  intro x hx
  obtain ⟨reply, -, rfl⟩ := List.mem_map.mp hx
  rfl

@[simp]
theorem preflighted_trace (i : ℕ) (r : PayloadRecord) (t : Turn) (s : Progress) :
    (d.preflighted i r t s).trace = s.trace ++ d.preflightCalls i r t s.prevHash := by
  unfold preflighted preflightCalls
  cases s.prevHash with
  | null => cases d.advanceHead <;> simp
  | _ => simp

variable (d) in
/-- The engine calls an iteration can make, next to how it ends. -/
inductive TurnCalls (i : ℕ) (r : PayloadRecord) (t : Turn) (prevHash : Json) :
    Option Exit → List Exchange → Prop
  /-- Cut off. -/
  | cut (hcut : d.Cut i t) : TurnCalls i r t prevHash (some .stop) []
  /-- Raised before the payload was sent. -/
  | unsent (e : Exn) (hcut : ¬ d.Cut i t)
      (hunsent : d.ParentOk r t prevHash → ∃ e, d.submission r = .error e) :
      TurnCalls i r t prevHash (some (.raised e)) (d.preflightCalls i r t prevHash)
  /-- Sent, and polled for if it was taken. -/
  | sent (exit : Option Exit) (call : EngineCall) (replies : List Reply)
      (hsent : d.Sent i r t call prevHash) (hexit : exit ≠ some .stop)
      (hpolls : replies ≠ [] → d.advanceHead = true)
      (hfalls : exit = none → (∃ status, Takes t status) ∧
        (d.advanceHead = true → ∃ front reply, replies = front ++ [reply] ∧
          (reply.result >>= forkchoiceStatus) = .ok (.str "VALID"))) :
      TurnCalls i r t prevHash exit
        (d.preflightCalls i r t prevHash ++
          ⟨i, .submission, call, t.newPayload.result⟩ :: Progress.pollExchanges i r replies)

/-- The calls of an iteration are appended to the trace. -/
theorem turn_calls (d : ReplayDriver) (i : ℕ) (r : PayloadRecord) (t : Turn) (s : Progress) :
    ∃ calls, (d.turn i (r, t) s).2.trace = s.trace ++ calls ∧
      d.TurnCalls i r t s.prevHash (d.turn i (r, t) s).1 calls := by
  have hstep := d.turn_step i r t s
  generalize d.turn i (r, t) s = result at hstep
  cases hstep with
  | stopped hcut => exact ⟨[], by simp, .cut hcut⟩
  | refused e hcut hparent =>
      exact ⟨_, preflighted_trace i r t s, .unsent e hcut fun h => absurd h hparent⟩
  | unversioned e hcut hparent hcall =>
      exact ⟨_, preflighted_trace i r t s, .unsent e hcut fun _ => ⟨e, hcall⟩⟩
  | escaped e call hsent hresult =>
      exact ⟨_, by simp [submitted, Progress.pollExchanges],
        .sent _ call [] hsent (by simp) (by simp) (by simp)⟩
  | unreadable e call answer hsent hresult hstatus =>
      exact ⟨_, by simp [answered, submitted, Progress.pollExchanges],
        .sent _ call [] hsent (by simp) (by simp) (by simp)⟩
  | rejected call answer status hsent hresult hstatus hrejected =>
      exact ⟨_, by simp [answered, submitted, Progress.pollExchanges],
        .sent _ call [] hsent (by simp) (by simp) (by simp)⟩
  | executed call status hsent htakes hadvance =>
      exact ⟨_, by simp [answered, submitted, Progress.pollExchanges],
        .sent _ call [] hsent (by simp) (by simp)
          fun _ => ⟨⟨status, htakes⟩, by simp [hadvance]⟩⟩
  | polling call status hsent htakes hadvance hpoll =>
      exact ⟨_, by simp [answered, submitted, Progress.polled],
        .sent _ call t.polls hsent (by simp) (fun _ => hadvance) (by simp)⟩
  | lost e call status replies hsent htakes hadvance hpoll =>
      exact ⟨_, by simp [answered, submitted, Progress.polled],
        .sent _ call replies hsent (by simp) (fun _ => hadvance) (by simp)⟩
  | failed call status label message replies hsent htakes hadvance hpoll =>
      exact ⟨_, by simp [answered, submitted, Progress.polled],
        .sent _ call replies hsent (by simp) (fun _ => hadvance) (by simp)⟩
  | landed call status front reply fcuMs syncWaitMs hsent htakes hadvance hpoll hvalid =>
      exact ⟨_, by simp [answered, submitted, Progress.polled],
        .sent _ call (front ++ [reply]) hsent (by simp) (fun _ => hadvance)
          fun _ => ⟨⟨status, htakes⟩, fun _ => ⟨front, reply, rfl, hvalid⟩⟩⟩

end ReplayDriver

end StateBenchmarks.MockCl
