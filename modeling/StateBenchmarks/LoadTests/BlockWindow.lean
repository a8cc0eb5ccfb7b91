/-
# The pinned block window of the load test

`src/load_tests/locustfile.py` sends its requests to a window of recent blocks.
It probes how far back the node still has state, by bisection, and pins block
numbers in that band; a background thread pins them again every few seconds.

The node is an oracle: its answer to a state probe may depend on how many probes
went before, so it may fail, recover and contradict itself.  A probe that raises
is a probe answered `False`, as in the source.
-/

import Mathlib.Data.Rat.Floor

namespace StateBenchmarks.LoadTests

/-- A block parameter: the tag `"latest"`, or a number written in hex. -/
inductive BlockTag where
  | latest
  | number (n : ℤ)
  deriving DecidableEq

/-- The settings the window depends on. -/
structure Settings where
  recentBlockWindow : ℤ
  minPinnedWindow : ℤ
  blockWindowRefreshSec : ℚ

/-- What a node answers to its `n`-th state probe. -/
abbrev Node := ℕ → BlockTag → Bool

/-- The probes sent so far, with their answers. -/
abbrev Log := List (BlockTag × Bool)

/-- `_state_available`. -/
def stateAvailable (node : Node) (tag : BlockTag) (log : Log) : Bool × Log :=
  (node log.length tag, log ++ [(tag, node log.length tag)])

/-- The loop of `_probe_state_depth`. -/
def bisect (node : Node) (head lo hi : ℤ) (log : Log) : ℤ × Log :=
  if 1 < hi - lo then
    let mid := (lo + hi) / 2
    match stateAvailable node (.number (head - mid)) log with
    | (true, log) => bisect node head mid hi log
    | (false, log) => bisect node head lo mid log
  else (lo, log)
termination_by (hi - lo).toNat

/-- `_probe_state_depth`. -/
def probeStateDepth (node : Node) (head maxDepth : ℤ) (log : Log) : ℤ × Log :=
  let hi := max 0 (min (maxDepth - 1) head)
  if hi = 0 then (hi, log)
  else
    match stateAvailable node (.number (head - hi)) log with
    | (true, log) => (hi, log)
    | (false, log) => bisect node head 0 hi log

/-- `_safety_margin`. -/
def safetyMargin (s : Settings) : ℤ := 8 + ⌊s.blockWindowRefreshSec / 12⌋

/-- The result of `_compute_block_window`. -/
structure Window where
  window : ℤ
  depth : ℤ
  edgeFound : Bool

/-- The window asked for at a head. -/
def requested (s : Settings) (head : ℤ) : ℤ := max 1 (min s.recentBlockWindow head)

/-- `_compute_block_window`. -/
def computeBlockWindow (s : Settings) (node : Node) (head : ℤ) (log : Log) : Window × Log :=
  let (depth, log) := probeStateDepth node head (requested s head) log
  if depth < requested s head - 1 then
    (⟨max 1 (depth + 1 - safetyMargin s), depth, true⟩, log)
  else (⟨requested s head, depth, false⟩, log)

/-- `[hex(head - i) for i in range(window)]`. -/
def pinned (head window : ℤ) : List BlockTag :=
  (List.range window.toNat).map fun i : ℕ => .number (head - i)

/-- What both callers do with the window: pin it, or give up pinning where the
band is too shallow. -/
def repin (s : Settings) (node : Node) (head : ℤ) (log : Log) : List BlockTag :=
  let (w, _) := computeBlockWindow s node head log
  if w.edgeFound ∧ w.window < s.minPinnedWindow then [.latest] else pinned head w.window

/-- The module's globals. -/
structure Pinning where
  recentBlocks : List BlockTag
  initialHeadBlock : Option ℤ
  latestHeadBlock : Option ℤ
  deriving DecidableEq

/-- Before any test: `RECENT_BLOCKS` as the module defines it. -/
def unpinned : Pinning := ⟨[.latest], none, none⟩

/-- Whether `on_test_start` lets the test run. -/
inductive Start where
  | running (p : Pinning)
  | aborted (p : Pinning)

/-- The globals a start leaves. -/
def Start.pinning : Start → Pinning
  | .running p | .aborted p => p

/-- `on_test_start`, given the head it fetched unless fetching raised. -/
def onTestStart (s : Settings) (head : Option ℤ) (node : Node) (p : Pinning) : Start :=
  match head with
  | none => .running { p with recentBlocks := [.latest] }
  | some head =>
      let p := { p with initialHeadBlock := some head, latestHeadBlock := some head }
      match stateAvailable node .latest [] with
      | (false, _) => .aborted p
      | (true, log) =>
          match stateAvailable node (.number head) log with
          | (false, _) => .running { p with recentBlocks := [.latest] }
          | (true, log) => .running { p with recentBlocks := repin s node head log }

/-- One round of `_block_window_refresher`. -/
def tick (s : Settings) (head : Option ℤ) (node : Node) (p : Pinning) : Pinning :=
  match head with
  | none => p
  | some head =>
      let p := { p with latestHeadBlock := some head }
      if p.recentBlocks = [.latest] then p
      else { p with recentBlocks := repin s node head [] }

/-! The answers need not be consistent, so the specification is about the log: the
depth returned is one where the node answered yes, and one further it answered
no, unless these are the bounds the bisection started from. -/

/-- What a bisection between two depths returns, given the probes it sent. -/
structure Edge (head lo hi depth : ℤ) (probes : Log) : Prop where
  lo_le : lo ≤ depth
  lt_hi : depth < hi
  servable : depth = lo ∨ (.number (head - depth), true) ∈ probes
  unservable : depth + 1 = hi ∨ (.number (head - (depth + 1)), false) ∈ probes
  inside : ∀ probe ∈ probes, ∃ depth, lo < depth ∧ depth < hi ∧ probe.1 = .number (head - depth)

/-- Probes already sent, with the bound they moved. -/
theorem Edge.of_mid {head lo mid hi depth : ℤ} {ok : Bool} {probes : Log} (hlo : lo < mid)
    (hhi : mid < hi)
    (h : if ok then Edge head mid hi depth probes else Edge head lo mid depth probes) :
    Edge head lo hi depth ((.number (head - mid), ok) :: probes) := by
  cases ok with
  | true =>
      have hedge : Edge head mid hi depth probes := h
      refine ⟨by have := hedge.lo_le; omega, hedge.lt_hi, Or.inr ?_, ?_, ?_⟩
      · rcases hedge.servable with rfl | hmem
        · exact List.mem_cons_self
        · exact List.mem_cons_of_mem _ hmem
      · exact hedge.unservable.imp id (List.mem_cons_of_mem _)
      · intro probe hprobe
        rcases List.mem_cons.mp hprobe with rfl | hprobe
        · exact ⟨mid, hlo, hhi, rfl⟩
        · obtain ⟨d, hd, hd', heq⟩ := hedge.inside probe hprobe
          exact ⟨d, by omega, hd', heq⟩
  | false =>
      have hedge : Edge head lo mid depth probes := h
      refine ⟨hedge.lo_le, by have := hedge.lt_hi; omega, ?_, Or.inr ?_, ?_⟩
      · exact hedge.servable.imp id (List.mem_cons_of_mem _)
      · rcases hedge.unservable with rfl | hmem
        · exact List.mem_cons_self
        · exact List.mem_cons_of_mem _ hmem
      · intro probe hprobe
        rcases List.mem_cons.mp hprobe with rfl | hprobe
        · exact ⟨mid, hlo, hhi, rfl⟩
        · obtain ⟨d, hd, hd', heq⟩ := hedge.inside probe hprobe
          exact ⟨d, hd, by omega, heq⟩

/-- The probes are answers of the node. -/
def AnsweredBy (node : Node) (probes : Log) : Prop :=
  ∀ probe ∈ probes, ∃ n, probe.2 = node n probe.1

/-- An answer may be put in front of others. -/
theorem AnsweredBy.cons {node : Node} {probes : Log} (h : AnsweredBy node probes) {n : ℕ}
    {block : BlockTag} {ok : Bool} (hok : node n block = ok) :
    AnsweredBy node ((block, ok) :: probes) := by
  intro probe hprobe
  rcases List.mem_cons.mp hprobe with rfl | hprobe
  · exact ⟨n, hok.symm⟩
  · exact h probe hprobe

/-- The bisection finds an edge of the answers it got. -/
theorem bisect_edge (node : Node) (head : ℤ) {lo hi : ℤ} (h : lo < hi) (log : Log) :
    ∃ probes, (bisect node head lo hi log).2 = log ++ probes ∧ AnsweredBy node probes ∧
      Edge head lo hi (bisect node head lo hi log).1 probes := by
  induction hsize : (hi - lo).toNat using Nat.strong_induction_on generalizing lo hi log with
  | h size ih =>
      rw [bisect]
      by_cases hgap : 1 < hi - lo
      · have hlo : lo < (lo + hi) / 2 := by omega
        have hhi : (lo + hi) / 2 < hi := by omega
        rw [if_pos hgap]
        simp only [stateAvailable]
        generalize hmid : (lo + hi) / 2 = mid at hlo hhi
        cases hok : node log.length (.number (head - mid)) with
        | true =>
            obtain ⟨probes, hlog, hanswered, hedge⟩ := ih (hi - mid).toNat (by omega) hhi
              (log ++ [(.number (head - mid), true)]) rfl
            refine ⟨(.number (head - mid), true) :: probes, ?_, hanswered.cons hok,
              Edge.of_mid hlo hhi hedge⟩
            rw [hlog, List.append_assoc]
            rfl
        | false =>
            obtain ⟨probes, hlog, hanswered, hedge⟩ := ih (mid - lo).toNat (by omega) hlo
              (log ++ [(.number (head - mid), false)]) rfl
            refine ⟨(.number (head - mid), false) :: probes, ?_, hanswered.cons hok,
              Edge.of_mid hlo hhi hedge⟩
            rw [hlog, List.append_assoc]
            rfl
      · rw [if_neg hgap]
        refine ⟨[], (List.append_nil log).symm, nofun, ?_⟩
        exact ⟨Int.le_refl lo, h, Or.inl rfl, Or.inl (by omega), nofun⟩

end StateBenchmarks.LoadTests
