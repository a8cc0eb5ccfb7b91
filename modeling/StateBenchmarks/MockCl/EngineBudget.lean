/-
# The budget of a call

The docstring of `_rpc` calls `timeout` the total wall-clock budget of a call, and
says that the timeout of each request is capped to what remains of it.  `max(1.0,
remaining)` does not cap the last fraction of a second, and the second slept after a
failure is not counted against the budget.  A call keeps its budget exactly if every
round it gets to finds nothing left of it, or at least a second.
-/

import StateBenchmarks.MockCl.EngineRpc

namespace StateBenchmarks.MockCl

open Python Control

namespace EngineClient

/-- Requests that end within the timeout they are given, and sleeps of just a second. -/
def Obeys (c : EngineClient) (start : ℚ) (request : RpcRequest) : ℚ → List Attempt → Prop
  | _, [] => True
  | now, a :: rest =>
      a.before = now ∧ a.before ≤ a.after ∧
        a.after ≤ a.before + (c.posted start request a).timeout ∧
        c.Obeys start request (a.after + 1) rest

/-- The budget is kept: the call ends in time, and no request is given more than what is
left of it. -/
structure KeepsBudget (c : EngineClient) (start : ℚ)
    (run : Option (Except Exn Json) × RpcState) : Prop where
  ends : ∃ result, run.1 = some result
  inTime : run.2.clock ≤ start + c.timeout
  capped : ∀ q ∈ run.2.sent, q.timeout ≤ c.timeout - (q.issued - start)

variable {c : EngineClient} {start now : ℚ} {request : RpcRequest} {attempts : List Attempt}
  {a : Attempt} {k : ℕ}

theorem Obeys.paced (h : c.Obeys start request now attempts) :
    Paced Attempt.before Attempt.after 1 now attempts := by
  induction attempts generalizing now with
  | nil => trivial
  | cons a rest ih =>
      obtain ⟨hnow, hafter, -, hrest⟩ := h
      exact ⟨hnow.ge, hafter, ih hrest⟩

theorem Obeys.after_le (h : c.Obeys start request now attempts) (item : attempts[k]? = some a) :
    a.after ≤ a.before + (c.posted start request a).timeout := by
  induction attempts generalizing k now with
  | nil => cases item
  | cons first rest ih =>
      obtain ⟨-, -, hafter, hrest⟩ := h
      cases k with
      | zero =>
          obtain rfl : first = a := Option.some.inj item
          exact hafter
      | succ k => exact ih hrest item

/-- A round that is reached and finds some of the budget left sends its request. -/
theorem posted_mem_sent (item : attempts[k]? = some a) (hreaches : c.Reaches start attempts k)
    (hleft : a.before - start < c.timeout) :
    c.posted start request a ∈ (c.rpc start request attempts).2.sent := by
  have hmem : ∀ n, k < n → c.posted start request a ∈
      (attempts.take n).map (c.posted start request) := by
    intro n hn
    apply List.mem_map_of_mem
    exact List.mem_of_getElem? ((List.getElem?_take_of_lt hn).trans item)
  have hends := c.rpc_ends start request attempts
  generalize c.rpc start request attempts = run at hends ⊢
  cases hends with
  | retrying s hreaches' hsent =>
      rw [hsent, ← List.take_length (l := attempts)]
      exact hmem _ (List.getElem?_eq_some_iff.mp item).1
  | exhausted k' a' message s hreaches' item' hspent hclock hsent =>
      rw [hsent]
      apply hmem
      by_contra hnot
      rcases Nat.lt_or_eq_of_le (Nat.le_of_not_lt hnot) with hlt | rfl
      · obtain ⟨b, hb, hleft', -⟩ := hreaches k' hlt
        obtain rfl := Option.some.inj (item'.symm.trans hb)
        exact absurd hspent (not_le_of_gt hleft')
      · obtain rfl := Option.some.inj (item'.symm.trans item)
        exact absurd hspent (not_le_of_gt hleft)
  | decided k' a' result s hreaches' item' hleft' hresult hclock hsent =>
      rw [hsent]
      apply hmem
      by_contra hnot
      obtain ⟨b, hb, -, hretried⟩ := hreaches k' (Nat.lt_of_lt_of_le (Nat.lt_succ_self k')
        (Nat.le_of_not_lt hnot))
      obtain rfl := Option.some.inj (item'.symm.trans hb)
      cases hresult.symm.trans (dispose_of_retried hretried)

/-- A round that is reached and finds the budget spent ends the call at once. -/
theorem clock_of_spent (item : attempts[k]? = some a) (hreaches : c.Reaches start attempts k)
    (hspent : c.timeout ≤ a.before - start) :
    (c.rpc start request attempts).2.clock = a.before := by
  obtain ⟨s, hs⟩ := arrives_iff.mpr hreaches
  rw [rpc, hs.forEach_eq_some item (rpcStep_of_spent hspent)]

/-- Every round that is reached finds just nothing left of the budget, or at least a
second. -/
def NeverShort (c : EngineClient) (start : ℚ) (attempts : List Attempt) : Prop :=
  ∀ k a, attempts[k]? = some a → c.Reaches start attempts k →
    c.remaining start a = 0 ∨ 1 ≤ c.remaining start a

theorem NeverShort.one_le (h : c.NeverShort start attempts) (item : attempts[k]? = some a)
    (hreaches : c.Reaches start attempts k) (hleft : a.before - start < c.timeout) :
    1 ≤ c.remaining start a := by
  rcases h k a item hreaches with hzero | hone
  · rw [remaining] at hzero
    linarith
  · exact hone

theorem left_of_reaches (hreaches : c.Reaches start attempts k) {j : ℕ} (hj : j < k)
    (item : attempts[j]? = some a) :
    c.Reaches start attempts j ∧ a.before - start < c.timeout := by
  obtain ⟨b, hb, hleft, -⟩ := hreaches j hj
  obtain rfl := Option.some.inj (item.symm.trans hb)
  exact ⟨fun i hi => hreaches i (hi.trans hj), hleft⟩

/-- Requests of rounds that are never short are capped. -/
theorem NeverShort.capped {n : ℕ} (h : c.NeverShort start attempts)
    (hrounds : ∀ k < n, ∀ a, attempts[k]? = some a →
      c.Reaches start attempts k ∧ a.before - start < c.timeout) :
    ∀ q ∈ (attempts.take n).map (c.posted start request),
      q.timeout ≤ c.timeout - (q.issued - start) := by
  intro q hq
  obtain ⟨a, ha, rfl⟩ := List.mem_map.mp hq
  obtain ⟨k, hk⟩ := List.mem_iff_getElem?.mp ha
  rw [List.getElem?_take] at hk
  split_ifs at hk with hkn
  obtain ⟨hreaches, hleft⟩ := hrounds k hkn a hk
  exact max_le (h.one_le hk hreaches hleft) le_rfl

/-- A short round breaks the budget: with too little left its request is given more than
that, and with time spent beyond the budget the call ends too late. -/
theorem neverShort_of_keepsBudget
    (h : c.KeepsBudget start (c.rpc start request attempts)) : c.NeverShort start attempts := by
  intro k a item hreaches
  by_contra hshort
  rw [not_or, not_le] at hshort
  obtain ⟨hzero, hone⟩ := hshort
  rcases lt_or_ge (a.before - start) c.timeout with hleft | hspent
  · have hcapped : max 1 (c.remaining start a) ≤ c.remaining start a :=
      h.capped _ (posted_mem_sent item hreaches hleft)
    exact absurd ((le_max_left _ _).trans hcapped) (not_le_of_gt hone)
  · have htime := h.inTime
    rw [clock_of_spent item hreaches hspent] at htime
    apply hzero
    rw [remaining]
    linarith

/-- Without a short round the budget is kept. -/
theorem NeverShort.keepsBudget (h : c.NeverShort start attempts)
    (hobeys : c.Obeys start request start attempts) (hlong : ⌈c.timeout⌉₊ < attempts.length) :
    c.KeepsBudget start (c.rpc start request attempts) := by
  have hends := c.rpc_ends start request attempts
  generalize c.rpc start request attempts = run at hends ⊢
  cases hends with
  | retrying s hreaches hsent =>
      exact absurd hlong (not_lt_of_ge (le_ceil_of_reaches hobeys.paced hreaches))
  | exhausted k a message s hreaches item hspent hclock hsent =>
      refine ⟨⟨_, rfl⟩, ?_, ?_⟩
      · have hleft : 0 ≤ c.remaining start a := by
          rcases h k a item hreaches with hzero | hone
          · exact hzero.ge
          · exact zero_le_one.trans hone
        rw [remaining] at hleft
        rw [hclock]
        linarith
      · rw [hsent]
        apply h.capped
        intro j hj b hb
        exact left_of_reaches hreaches hj hb
  | decided k a result s hreaches item hleft hresult hclock hsent =>
      refine ⟨⟨_, rfl⟩, ?_, ?_⟩
      · have hafter := hobeys.after_le item
        rw [posted, max_eq_right (h.one_le item hreaches hleft), remaining] at hafter
        rw [hclock]
        linarith
      · rw [hsent]
        apply h.capped
        intro j hj b hb
        rcases Nat.lt_succ_iff_lt_or_eq.mp hj with hj | rfl
        · exact left_of_reaches hreaches hj hb
        · obtain rfl := Option.some.inj (item.symm.trans hb)
          exact ⟨hreaches, hleft⟩

/-- A call that meets enough attempts to end keeps its budget exactly if no round it gets
to is short. -/
theorem keepsBudget_iff (c : EngineClient) (start : ℚ) (request : RpcRequest)
    (attempts : List Attempt) (hobeys : c.Obeys start request start attempts)
    (hlong : ⌈c.timeout⌉₊ < attempts.length) :
    c.KeepsBudget start (c.rpc start request attempts) ↔ c.NeverShort start attempts := by
  apply Iff.intro
  · exact neverShort_of_keepsBudget
  · intro h
    exact h.keepsBudget hobeys hlong

/-- A budget of one second that is used up to the point. -/
theorem keepsBudget_oneSecond :
    (EngineClient.mk 1 0).KeepsBudget 0 ((EngineClient.mk 1 0).rpc 0 ⟨[], []⟩
      [⟨0, .failed "ConnectionError" "refused", 0⟩,
        ⟨1, .failed "ConnectionError" "refused", 1⟩]) := by
  apply (keepsBudget_iff _ _ _ _ (by norm_num [Obeys, posted, remaining]) (by norm_num)).mpr
  intro k a item _
  match k with
  | 0 =>
      obtain rfl := Option.some.inj item
      exact Or.inr (by norm_num [remaining])
  | 1 =>
      obtain rfl := Option.some.inj item
      exact Or.inl (by norm_num [remaining])
  | k + 2 => cases item

/-- A failure after eight and a half seconds, then an answer that takes a whole one. -/
def lateAnswer : List Attempt :=
  [⟨0, .failed "ReadTimeout" "slow", 17 / 2⟩,
    ⟨19 / 2, .response 200 "" (.ok (.obj [("result", .bool true)])), 21 / 2⟩]

/-- With half a second left the last request is given a whole one. -/
theorem lateAnswer_not_keepsBudget :
    (0 : ℚ) < (EngineClient.mk 10 0).timeout ∧
      (EngineClient.mk 10 0).Obeys 0 ⟨[], []⟩ 0 lateAnswer ∧
      ¬ (EngineClient.mk 10 0).KeepsBudget 0
        ((EngineClient.mk 10 0).rpc 0 ⟨[], []⟩ lateAnswer) := by
  refine ⟨by norm_num, by norm_num [lateAnswer, Obeys, posted, remaining], ?_⟩
  intro hkeeps
  have hreaches : (EngineClient.mk 10 0).Reaches 0 lateAnswer 1 := by
    intro j hj
    obtain rfl := Nat.lt_one_iff.mp hj
    exact ⟨_, rfl, by norm_num, .failed _ _⟩
  have hcapped := hkeeps.capped _ (posted_mem_sent rfl hreaches (by norm_num))
  norm_num [posted, remaining] at hcapped

end EngineClient

end StateBenchmarks.MockCl
