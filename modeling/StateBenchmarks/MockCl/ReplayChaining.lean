/-
# Parent chaining

`run` compares each record's parent hash with the hash it remembers from the
record before.  The remembered hash is also how it tells the first record from
the others, and the loader accepts payloads without a `blockHash`; after such a
record the next one is taken for a first record.  Chaining is therefore enforced
exactly in the runs that remember a hash whenever they go on to another record.
-/

import StateBenchmarks.MockCl.ReplayRuns

namespace StateBenchmarks.MockCl

open Python Control

namespace ReplayDriver

variable (d : ReplayDriver)

/-- Record `i + 1` names record `i` as its parent. -/
def Chained (steps : List (PayloadRecord × Turn)) (i : ℕ) : Prop :=
  ∃ parent child, steps[i]? = some parent ∧ steps[i + 1]? = some child ∧
    parent.1.blockHash ≠ .null ∧ child.1.parentHash.pyEq parent.1.blockHash = true

/-- The base preflights of a trace. -/
def preflights (trace : List Exchange) : List Exchange :=
  trace.filter fun x => x.site = .preflight

/-- Chaining is enforced: calls are made for chained records only, a record that
is looked at and not chained ends the run, and there is one preflight at most,
for the first record. -/
structure ChainEnforced (steps : List (PayloadRecord × Turn)) (result : Outcome × Progress) :
    Prop where
  chained : ∀ x ∈ result.2.trace, ∀ i, x.turn = i + 1 → Chained steps i
  refused : ∀ i r t, d.Reaches steps (i + 1) → steps[i + 1]? = some (r, t) →
    ¬ d.Cut (i + 1) t → ¬ Chained steps i →
      (∃ e, result.1 = .raised e) ∧ ∀ x ∈ result.2.trace, x.turn ≠ i + 1
  preflight : (preflights result.2.trace).length ≤ 1 ∧
    ∀ x ∈ preflights result.2.trace, x.turn = 0

/-- The run goes on to another record only from a record with a hash.  The one
exception makes no call either way: a record whose fork is not text, met while
the head is left alone. -/
def RemembersHashes (steps : List (PayloadRecord × Turn)) : Prop :=
  ∀ i r t, d.Reaches steps (i + 1) → steps[i + 1]? = some (r, t) → ¬ d.Cut (i + 1) t →
    prevHashAt steps (i + 1) ≠ .null ∨
      d.advanceHead = false ∧ ∃ e, d.submission r = .error e

variable {d} {steps : List (PayloadRecord × Turn)} {content : Option String} {i k : ℕ}
  {r : PayloadRecord} {t : Turn} {s : Progress} {calls : List Exchange}

theorem chained_of_parentOk {prevHash : Json} (hprev : prevHash = prevHashAt steps (i + 1))
    (hitem : steps[i + 1]? = some (r, t)) (hne : prevHash ≠ .null)
    (hparent : d.ParentOk r t prevHash) : Chained steps i := by
  rw [prevHashAt] at hprev
  split at hprev
  · rename_i parent hbefore
    refine ⟨parent, (r, t), hbefore, hitem, hprev ▸ hne, ?_⟩
    rw [← hprev]
    unfold ParentOk at hparent
    split at hparent
    · exact absurd rfl hne
    · exact hparent
  · exact absurd hprev hne

theorem prevHashAt_ne_null_of_chained (h : Chained steps i) : prevHashAt steps (i + 1) ≠ .null := by
  obtain ⟨parent, child, hbefore, -, hne, -⟩ := h
  rw [prevHashAt, hbefore]
  exact hne

/-- Every call of an iteration carries its number. -/
theorem TurnCalls.turn_eq {prevHash : Json} {exit : Option Exit}
    (h : d.TurnCalls i r t prevHash exit calls) : ∀ x ∈ calls, x.turn = i := by
  intro x hx
  cases h with
  | cut hcut => cases hx
  | unsent e hcut hunsent => exact turn_of_mem_preflightCalls x hx
  | sent _ call replies hsent hexit hpolls hfalls =>
      rcases List.mem_append.mp hx with hx | hx
      · exact turn_of_mem_preflightCalls x hx
      · rcases List.mem_cons.mp hx with rfl | hx
        · rfl
        · exact turn_of_mem_pollExchanges x hx

/-- With a hash remembered, or with nothing to send, an iteration makes no
preflight, and any call at all means that its record passed the check. -/
theorem TurnCalls.of_remembered {prevHash : Json} {exit : Option Exit}
    (h : d.TurnCalls i r t prevHash exit calls)
    (hremember : ¬ d.Cut i t → prevHash ≠ .null ∨
      d.advanceHead = false ∧ ∃ e, d.submission r = .error e) :
    preflights calls = [] ∧
      (calls ≠ [] → prevHash ≠ .null ∧ d.ParentOk r t prevHash) := by
  have hpreflight : ¬ d.Cut i t → d.preflightCalls i r t prevHash = [] := by
    intro hcut
    rw [List.eq_nil_iff_forall_not_mem]
    intro x hx
    obtain ⟨hadvance, hnull, -⟩ := preflightCalls_site hx
    rcases hremember hcut with hne | ⟨hkeep, -⟩
    · exact hne hnull
    · rw [hkeep] at hadvance
      cases hadvance
  cases h with
  | cut hcut => exact ⟨rfl, fun hne => absurd rfl hne⟩
  | unsent e hcut hunsent =>
      rw [hpreflight hcut]
      exact ⟨rfl, fun hne => absurd rfl hne⟩
  | sent _ call replies hsent hexit hpolls hfalls =>
      rw [hpreflight hsent.notCut]
      constructor
      · simp [preflights, Progress.pollExchanges]
      · intro _
        refine ⟨?_, hsent.parentOk⟩
        rcases hremember hsent.notCut with hne | ⟨-, e, herror⟩
        · exact hne
        · rw [hsent.call_eq] at herror
          cases herror

/-- The first iteration makes one preflight at most. -/
theorem TurnCalls.length_preflights {prevHash : Json} {exit : Option Exit}
    (h : d.TurnCalls i r t prevHash exit calls) : (preflights calls).length ≤ 1 := by
  have hpreflight : (preflights (d.preflightCalls i r t prevHash)).length ≤ 1 := by
    unfold preflightCalls
    split
    · split <;> simp [preflights]
    · simp [preflights]
  cases h with
  | cut hcut => simp [preflights]
  | unsent e hcut hunsent => exact hpreflight
  | sent _ call replies hsent hexit hpolls hfalls =>
      have hrest : preflights (⟨i, .submission, call, t.newPayload.result⟩ ::
          Progress.pollExchanges i r replies) = [] := by
        simp [preflights, Progress.pollExchanges]
      rw [preflights, List.filter_append, ← preflights, ← preflights, hrest, List.append_nil]
      exact hpreflight

/-- An uncut iteration that remembers no hash makes a call, unless there is
nothing it could send. -/
theorem TurnCalls.ne_nil {exit : Option Exit} (h : d.TurnCalls i r t .null exit calls)
    (hcut : ¬ d.Cut i t) (hsends : ¬ (d.advanceHead = false ∧ ∃ e, d.submission r = .error e)) :
    calls ≠ [] := by
  cases h with
  | cut hcut' => exact absurd hcut' hcut
  | unsent e hcut' hunsent =>
      cases hadvance : d.advanceHead with
      | true => simp [preflightCalls, hadvance]
      | false =>
          have hparent : d.ParentOk r t .null := by simp [ParentOk, hadvance]
          exact absurd ⟨hadvance, hunsent hparent⟩ hsends
  | sent => simp

/-- The invariant of such runs. -/
structure ChainedSoFar (steps : List (PayloadRecord × Turn)) (k : ℕ) (trace : List Exchange) :
    Prop where
  chained : ∀ x ∈ trace, ∀ i, x.turn = i + 1 → Chained steps i
  first : k = 0 → preflights trace = []
  once : (preflights trace).length ≤ 1
  zero : ∀ x ∈ preflights trace, x.turn = 0

/-- The step lemma: whichever way an iteration ends, its calls keep the law. -/
theorem ChainedSoFar.turnCalls {exit : Option Exit} {trace : List Exchange}
    (h : ChainedSoFar steps k trace) (hremembers : d.RemembersHashes steps)
    (hreaches : d.Reaches steps k) (hitem : steps[k]? = some (r, t))
    (hcalls : d.TurnCalls k r t (prevHashAt steps k) exit calls) :
    ChainedSoFar steps (k + 1) (trace ++ calls) := by
  have hsplit : preflights (trace ++ calls) = preflights trace ++ preflights calls := by
    simp [preflights]
  cases k with
  | zero =>
      refine ⟨?_, nofun, ?_, ?_⟩
      · intro x hx i hturn
        rcases List.mem_append.mp hx with hx | hx
        · exact h.chained x hx i hturn
        · rw [hcalls.turn_eq x hx] at hturn
          cases hturn
      · rw [hsplit, h.first rfl, List.nil_append]
        exact hcalls.length_preflights
      · rw [hsplit, h.first rfl, List.nil_append]
        intro x hx
        exact hcalls.turn_eq x (List.mem_of_mem_filter hx)
  | succ i =>
      obtain ⟨hnone, hchecked⟩ := hcalls.of_remembered (hremembers i r t hreaches hitem)
      refine ⟨?_, nofun, ?_, ?_⟩
      · intro x hx j hturn
        rcases List.mem_append.mp hx with hx | hx
        · exact h.chained x hx j hturn
        · rw [hcalls.turn_eq x hx] at hturn
          obtain rfl := Nat.succ.inj hturn
          obtain ⟨hne, hparent⟩ := hchecked (List.ne_nil_of_mem hx)
          exact chained_of_parentOk rfl hitem hne hparent
      · rw [hsplit, hnone, List.append_nil]
        exact h.once
      · rw [hsplit, hnone, List.append_nil]
        exact h.zero

theorem chainedSoFar_of_arrives (hremembers : d.RemembersHashes steps)
    (h : Arrives d.turn steps (.start content) k s) : ChainedSoFar steps k s.trace := by
  induction h with
  | start =>
      refine ⟨?_, fun _ => rfl, Nat.zero_le _, ?_⟩
      · intro x hx
        cases hx
      · intro x hx
        cases hx
  | @next k step s s' here item falls ih =>
      obtain ⟨r, t⟩ := step
      obtain ⟨calls, htrace, hcalls⟩ := d.turn_calls k r t s
      rw [falls, prevHash_of_arrives here] at hcalls
      rw [falls] at htrace
      rw [htrace]
      exact ih.turnCalls hremembers (arrives_iff.mp ⟨s, here⟩) item hcalls

/-- The law over a whole run: its trace is that of some arrival, or goes one
iteration further. -/
theorem chainedSoFar_run (hremembers : d.RemembersHashes steps) :
    ∃ k, ChainedSoFar steps k (d.run content steps).2.trace := by
  rcases d.run_cases content steps with
    ⟨s, hs, hrun⟩ | ⟨k, r, t, s, exit, s', hs, item, hturn, hrun⟩
  · rw [hrun, ending_trace]
    exact ⟨_, chainedSoFar_of_arrives hremembers hs⟩
  · obtain ⟨calls, htrace, hcalls⟩ := d.turn_calls k r t s
    rw [prevHash_of_arrives hs] at hcalls
    rw [hturn] at htrace
    rw [hrun, ending_trace, htrace]
    exact ⟨_, (chainedSoFar_of_arrives hremembers hs).turnCalls hremembers
      (arrives_iff.mp ⟨s, hs⟩) item hcalls⟩

/-- A record that is reached, looked at and not chained ends the run with an
exception, provided a hash was remembered or there was nothing to send. -/
theorem raised_of_not_chained
    (hreaches : d.Reaches steps (i + 1)) (hitem : steps[i + 1]? = some (r, t))
    (hcut : ¬ d.Cut (i + 1) t) (hnot : ¬ Chained steps i)
    (hremember : prevHashAt steps (i + 1) ≠ .null ∨
      d.advanceHead = false ∧ ∃ e, d.submission r = .error e) :
    ∃ e, (d.run content steps).1 = .raised e := by
  obtain ⟨s, hs⟩ := arrives_iff.mpr hreaches
  have hprev := prevHash_of_arrives hs
  have hunsent : d.ParentOk r t s.prevHash → ∃ e, d.submission r = .error e := by
    intro hparent
    rcases hremember with hne | ⟨-, herror⟩
    · exact absurd (chained_of_parentOk hprev hitem (hprev ▸ hne) hparent) hnot
    · exact herror
  have hstep := d.turn_step (i + 1) r t s
  rcases hturn : d.turn (i + 1) (r, t) s with ⟨exit, s'⟩
  rw [hturn] at hstep
  have hnotSent : ∀ call, ¬ d.Sent (i + 1) r t call s.prevHash := by
    intro call hsent
    obtain ⟨e, herror⟩ := hunsent hsent.parentOk
    cases hsent.call_eq.symm.trans herror
  cases hstep with
  | stopped hcut' => exact absurd hcut' hcut
  | refused e | unversioned e => exact ⟨e, by rw [run_eq_of_leaves hs hitem hturn]; rfl⟩
  | escaped _ _ hsent | unreadable _ _ _ hsent | rejected _ _ _ hsent | executed _ _ hsent
  | polling _ _ hsent | lost _ _ _ _ hsent | failed _ _ _ _ _ hsent
  | landed _ _ _ _ _ _ hsent => exact absurd hsent (hnotSent _)

/-- Calls once made stay in the trace. -/
theorem trace_prefix_forEach (start : ℕ) (items : List (PayloadRecord × Turn)) (s : Progress) :
    s.trace <+: (forEach d.turn start items s).2.trace := by
  induction items generalizing start s with
  | nil => exact List.prefix_rfl
  | cons step rest ih =>
      obtain ⟨calls, htrace, -⟩ := d.turn_calls start step.1 step.2 s
      have hhere : s.trace <+: (d.turn start step s).2.trace := ⟨calls, htrace.symm⟩
      rcases hturn : d.turn start step s with ⟨_ | exit, s'⟩
      · rw [hturn] at hhere
        rw [forEach_cons_of_none hturn]
        exact hhere.trans (ih (start + 1) s')
      · rw [hturn] at hhere
        rw [forEach_cons_of_some hturn]
        exact hhere

/-- The calls of an iteration the run arrives at are in the run's trace. -/
theorem mem_run_trace {x : Exchange} (hs : Arrives d.turn steps (.start content) k s)
    (hitem : steps[k]? = some (r, t)) (hx : x ∈ (d.turn k (r, t) s).2.trace) :
    x ∈ (d.run content steps).2.trace := by
  rw [run_eq_ending, ending_trace]
  rcases hturn : d.turn k (r, t) s with ⟨_ | exit, s'⟩
  · rw [hturn] at hx
    have hnext := Arrives.next hs hitem hturn
    rw [hnext.forEach_eq]
    exact (trace_prefix_forEach (k + 1) _ s').subset hx
  · rw [hturn] at hx
    rw [hs.forEach_eq_some hitem hturn]
    exact hx

/-- **Chaining is enforced exactly when hashes are remembered.** -/
theorem run_chainEnforced_iff (d : ReplayDriver) (content : Option String)
    (steps : List (PayloadRecord × Turn)) :
    d.ChainEnforced steps (d.run content steps) ↔ d.RemembersHashes steps := by
  constructor
  · intro h i r t hreaches hitem hcut
    by_contra hnot
    rw [not_or, not_not] at hnot
    obtain ⟨hnull, hsends⟩ := hnot
    have hunchained : ¬ Chained steps i := fun hchained =>
      prevHashAt_ne_null_of_chained hchained hnull
    obtain ⟨s, hs⟩ : ∃ s, Arrives d.turn steps (.start content) (i + 1) s :=
      arrives_iff.mpr hreaches
    obtain ⟨calls, htrace, hcalls⟩ := d.turn_calls (i + 1) r t s
    rw [prevHash_of_arrives hs, hnull] at hcalls
    obtain ⟨x, hx⟩ := List.exists_mem_of_ne_nil calls (hcalls.ne_nil hcut hsends)
    have hmem : x ∈ (d.run content steps).2.trace := by
      apply mem_run_trace hs hitem
      rw [htrace]
      exact List.mem_append_right _ hx
    exact (h.refused i r t hreaches hitem hcut hunchained).2 x hmem (hcalls.turn_eq x hx)
  · intro hremembers
    obtain ⟨k, hsafe⟩ : ∃ k, ChainedSoFar steps k (d.run content steps).2.trace :=
      chainedSoFar_run hremembers
    refine ⟨hsafe.chained, ?_, hsafe.once, hsafe.zero⟩
    intro i r t hreaches hitem hcut hnot
    refine ⟨raised_of_not_chained hreaches hitem hcut hnot
      (hremembers i r t hreaches hitem hcut), ?_⟩
    intro x hx hturn
    exact hnot (hsafe.chained x hx i hturn)

/-- Two payloads, the first without a `blockHash`, the second with an unrelated
parent. -/
def unhashedFile : List Line :=
  [.json (.obj [("payload", .obj [("parentHash", .str "0x01")])]),
    .json (.obj [("payload", .obj [("parentHash", .str "0x07"), ("blockHash", .str "0x08")])])]

/-- An engine that answers `VALID` to everything at once. -/
def agreeable : Turn where
  stopSet := false
  base := ⟨.ok (.obj [("payloadStatus", .obj [("status", .str "VALID")])]), 0, 0, 0⟩
  newPayload := ⟨.ok (.obj [("status", .str "VALID")]), 0, 0, 0⟩
  polls := [⟨.ok (.obj [("payloadStatus", .obj [("status", .str "VALID")])]), 0, 0, 0⟩]

/-- The driver of a plain replay. -/
def plainReplay : ReplayDriver where
  advanceHead := true
  count := none
  latencyCsv := some "latency.csv"
  newpayloadVersion := none
  fcuWaitSeconds := 600

/-- The steps of replaying that file against that engine. -/
def unhashedSteps : List (PayloadRecord × Turn) :=
  (loadPayloads "payloads.jsonl" unhashedFile).2.map fun r => (r, agreeable)

/-- Replaying it, calls are made for a record that is not chained. -/
theorem unhashed_not_chainEnforced :
    ¬ plainReplay.ChainEnforced unhashedSteps (plainReplay.run none unhashedSteps) := by
  intro h
  have hturns : ((plainReplay.run none unhashedSteps).2.trace.map Exchange.turn) =
      [0, 0, 0, 1, 1, 1] := rfl
  have hmem : 1 ∈ (plainReplay.run none unhashedSteps).2.trace.map Exchange.turn := by
    rw [hturns]
    decide
  obtain ⟨x, hx, hturn⟩ := List.mem_map.mp hmem
  obtain ⟨parent, child, hparent, -, hne, -⟩ := h.chained x hx 0 hturn
  obtain rfl := Option.some_inj.mp hparent
  exact hne rfl

end ReplayDriver

end StateBenchmarks.MockCl
