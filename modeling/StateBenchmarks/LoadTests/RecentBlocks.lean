/-
# What the load test may sample from

`RECENT_BLOCKS` is assigned in five places, under fallbacks inside fallbacks, and
whether the test pins block numbers at all is read off the list itself.  Over any
tests run one after the other in a process it keeps one of two shapes: the tag
alone, or the blocks below a head that was fetched.

The window is kept within what was asked for by taking a margin off it.  A
refresh interval so negative that the margin adds to the window breaks the shape
at the first pinning, before the refresher finds that it cannot sleep for that
long.
-/

import StateBenchmarks.LoadTests.BlockWindow
import Mathlib.Data.List.Induction

namespace StateBenchmarks.LoadTests

/-- What a round meets: the head it fetches, unless fetching raises, and how the
node answers its probes. -/
structure Round where
  head : Option ℕ
  node : Node

namespace Round

variable (r : Round) (s : Settings)

/-- `on_test_start` in this round. -/
def start (p : Pinning) : Start := onTestStart s (r.head.map Int.ofNat) r.node p

/-- One refresher tick in this round. -/
def tick (p : Pinning) : Pinning := LoadTests.tick s (r.head.map Int.ofNat) r.node p

end Round

/-- A test: its start, and the ticks of its refresher. -/
structure Test where
  start : Round
  rounds : List Round

namespace Test

variable (t : Test)

/-- The globals after the ticks so far; a test that was aborted has no refresher. -/
def run (s : Settings) (p : Pinning) : Pinning :=
  match t.start.start s p with
  | .aborted p => p
  | .running p => t.rounds.foldl (fun p r => r.tick s p) p

/-- The same test some ticks later. -/
def later (rounds : List Round) : Test := { t with rounds := t.rounds ++ rounds }

/-- The heads fetched in the test. -/
def heads : List ℕ := (t.start :: t.rounds).filterMap Round.head

end Test

/-- The globals after some tests in one process. -/
def session (s : Settings) (tests : List Test) : Pinning :=
  tests.foldl (fun p t => t.run s p) unpinned

/-- The tag alone, or the blocks from a fetched head down, as many as the window
allows and none below zero. -/
inductive Shape (s : Settings) (heads : List ℕ) : List BlockTag → Prop
  | latest : Shape s heads [.latest]
  | pinned (head : ℕ) (window : ℤ) (fetched : head ∈ heads) (pos : 1 ≤ window)
      (le : window ≤ max 1 s.recentBlockWindow) (above : window ≤ head + 1) :
      Shape s heads (pinned head window)

variable {s : Settings} {heads : List ℕ} {blocks : List BlockTag}

namespace Shape

theorem mono {heads' : List ℕ} (h : Shape s heads blocks) (hsub : ∀ head ∈ heads, head ∈ heads') :
    Shape s heads' blocks := by
  cases h with
  | latest => exact latest
  | pinned head window fetched pos le above =>
      exact pinned head window (hsub head fetched) pos le above

theorem ne_nil (h : Shape s heads blocks) : blocks ≠ [] := by
  cases h with
  | latest => exact List.cons_ne_nil _ _
  | pinned head window fetched pos le above =>
      intro hnil
      have hlength : (LoadTests.pinned head window).length = 0 := by rw [hnil]; rfl
      rw [LoadTests.pinned, List.length_map, List.length_range] at hlength
      omega

theorem nonneg (h : Shape s heads blocks) {n : ℤ} (hn : .number n ∈ blocks) : 0 ≤ n := by
  cases h with
  | latest => simp at hn
  | pinned head window fetched pos le above =>
      obtain ⟨i, hi, heq⟩ := List.mem_map.mp hn
      have hlt := List.mem_range.mp hi
      have hvalue := BlockTag.number.inj heq
      omega

end Shape

/-- Either way of pinning, the list gets one of the two shapes. -/
theorem shape_repin (hmargin : 0 ≤ safetyMargin s) (node : Node) (head : ℕ) (log : Log) :
    Shape s [head] (repin s node head log) := by
  have hasked : requested s head ≤ max 1 s.recentBlockWindow :=
    max_le_max le_rfl (min_le_left _ _)
  have hone : 1 ≤ requested s head := le_max_left _ _
  have habove : requested s head ≤ head + 1 := by
    rw [requested]
    omega
  unfold repin computeBlockWindow
  generalize probeStateDepth node head (requested s head) log = probed
  obtain ⟨depth, log'⟩ := probed
  dsimp only
  by_cases hedge : depth < requested s head - 1
  · rw [if_pos hedge]
    dsimp only
    split_ifs
    · exact Shape.latest
    · apply Shape.pinned head _ (List.mem_singleton_self head) (le_max_left _ _)
      · apply le_trans _ hasked
        omega
      · omega
  · rw [if_neg hedge, if_neg (by simp)]
    exact Shape.pinned head _ (List.mem_singleton_self head) hone hasked habove

theorem shape_start (hmargin : 0 ≤ safetyMargin s) (r : Round) {p : Pinning}
    (hp : Shape s heads p.recentBlocks) :
    Shape s (heads ++ r.head.toList) (r.start s p).pinning.recentBlocks := by
  have hkept : Shape s (heads ++ r.head.toList) p.recentBlocks :=
    hp.mono fun head hhead => List.mem_append_left _ hhead
  rw [Round.start]
  cases hhead : r.head with
  | none => exact Shape.latest
  | some head =>
      rw [hhead] at hkept
      simp only [onTestStart, Option.map_some, stateAvailable]
      cases r.node 0 .latest with
      | false => exact hkept
      | true =>
          dsimp only
          cases r.node _ (.number head) with
          | false => exact Shape.latest
          | true => exact (shape_repin hmargin r.node head _).mono fun _ => List.mem_append_right _

theorem shape_tick (hmargin : 0 ≤ safetyMargin s) (r : Round) {p : Pinning}
    (hp : Shape s heads p.recentBlocks) :
    Shape s (heads ++ r.head.toList) (r.tick s p).recentBlocks := by
  have hkept : Shape s (heads ++ r.head.toList) p.recentBlocks :=
    hp.mono fun head hhead => List.mem_append_left _ hhead
  rw [Round.tick]
  cases hhead : r.head with
  | none =>
      rw [hhead] at hkept
      exact hkept
  | some head =>
      rw [hhead] at hkept
      simp only [LoadTests.tick, Option.map_some]
      split_ifs
      · exact hkept
      · exact (shape_repin hmargin r.node head []).mono fun _ => List.mem_append_right _

/-- The tag alone is never left by a tick. -/
theorem tick_latest (r : Round) {p : Pinning} (hp : p.recentBlocks = [.latest]) :
    (r.tick s p).recentBlocks = [.latest] := by
  rw [Round.tick]
  cases r.head with
  | none => exact hp
  | some head => simp [LoadTests.tick, hp]

/-- A tick that fetches no head changes nothing. -/
theorem tick_failed {r : Round} (hr : r.head = none) (p : Pinning) : r.tick s p = p := by
  rw [Round.tick, hr]
  rfl

/-- What a session is judged by: the list as it stands, and the ticks
that may follow. -/
structure Invariant (s : Settings) (tests : List Test) (current : Test) : Prop where
  ne_nil : (session s (tests ++ [current])).recentBlocks ≠ []
  shape : Shape s ((tests ++ [current]).flatMap Test.heads)
    (session s (tests ++ [current])).recentBlocks
  nonneg : ∀ n, .number n ∈ (session s (tests ++ [current])).recentBlocks → 0 ≤ n
  latest_stays : (session s (tests ++ [current])).recentBlocks = [.latest] →
    ∀ rounds, (session s (tests ++ [current.later rounds])).recentBlocks = [.latest]
  failed_keeps : ∀ node, (session s (tests ++ [current.later [⟨none, node⟩]])).recentBlocks =
    (session s (tests ++ [current])).recentBlocks

theorem shape_ticks (hmargin : 0 ≤ safetyMargin s) (rounds : List Round) {p : Pinning}
    (hp : Shape s heads p.recentBlocks) :
    Shape s (heads ++ rounds.filterMap Round.head)
      (rounds.foldl (fun p r => r.tick s p) p).recentBlocks := by
  induction rounds generalizing heads p with
  | nil => simpa using hp
  | cons r rounds ih =>
      apply (ih (shape_tick hmargin r hp)).mono
      intro head hhead
      cases hr : r.head <;> simp_all

theorem shape_run (hmargin : 0 ≤ safetyMargin s) (t : Test) {p : Pinning}
    (hp : Shape s heads p.recentBlocks) :
    Shape s (heads ++ t.heads) (t.run s p).recentBlocks := by
  have hstart := shape_start hmargin t.start hp
  have hheads : ∀ head, (head ∈ (heads ++ t.start.head.toList) ++ t.rounds.filterMap Round.head ↔
      head ∈ heads ++ t.heads) := by
    intro head
    cases hr : t.start.head <;> simp [Test.heads, hr]
  rw [Test.run]
  cases hrun : t.start.start s p with
  | aborted q =>
      rw [hrun] at hstart
      apply hstart.mono
      intro head hhead
      exact (hheads head).mp (List.mem_append_left _ hhead)
  | running q =>
      rw [hrun] at hstart
      exact (shape_ticks hmargin t.rounds hstart).mono fun head => (hheads head).mp

theorem shape_session (hmargin : 0 ≤ safetyMargin s) (tests : List Test) :
    Shape s (tests.flatMap Test.heads) (session s tests).recentBlocks := by
  induction tests using List.reverseRecOn with
  | nil => exact Shape.latest
  | append_singleton tests t ih =>
      rw [List.flatMap_append, List.flatMap_singleton, session, List.foldl_append]
      exact shape_run hmargin t ih

theorem session_append (tests : List Test) (t : Test) :
    session s (tests ++ [t]) = t.run s (session s tests) := by
  rw [session, List.foldl_append]
  rfl

/-- Ticks come one after the other, unless there is no refresher. -/
theorem run_later (t : Test) (rounds : List Round) (p : Pinning) :
    (t.later rounds).run s p = t.run s p ∨
      (t.later rounds).run s p = rounds.foldl (fun p r => r.tick s p) (t.run s p) := by
  rw [Test.run, Test.run]
  cases hrun : t.start.start s p with
  | aborted q =>
      refine Or.inl ?_
      simp only [Test.later, hrun]
  | running q =>
      refine Or.inr ?_
      simp only [Test.later, hrun, List.foldl_append]

theorem ticks_latest (rounds : List Round) {p : Pinning} (hp : p.recentBlocks = [.latest]) :
    (rounds.foldl (fun p r => r.tick s p) p).recentBlocks = [.latest] := by
  induction rounds generalizing p with
  | nil => exact hp
  | cons r rounds ih => exact ih (tick_latest r hp)

/-- **Over every session the sampled blocks are the tag alone or a window below a
fetched head**; the tag alone is not left by later ticks, and a tick that fetches
no head leaves the list as it is. -/
theorem session_invariant (s : Settings) (hmargin : 0 ≤ safetyMargin s) (tests : List Test)
    (current : Test) : Invariant s tests current := by
  have hshape := shape_session hmargin (tests ++ [current])
  refine ⟨hshape.ne_nil, hshape, fun n => hshape.nonneg, ?_, ?_⟩
  · intro hlatest rounds
    rw [session_append] at hlatest ⊢
    rcases run_later current rounds (session s tests) with heq | heq
    · rw [heq]
      exact hlatest
    · rw [heq]
      exact ticks_latest rounds hlatest
  · intro node
    rw [session_append, session_append]
    rcases run_later current [⟨none, node⟩] (session s tests) with heq | heq
    · rw [heq]
    · rw [heq, List.foldl_cons, List.foldl_nil, tick_failed rfl]

/-- A refresh interval that makes the margin negative. -/
def negativeInterval : Settings where
  recentBlockWindow := 10
  minPinnedWindow := 8
  blockWindowRefreshSec := -1000

/-- A test against a node at block 5 that has no older state. -/
def shallowTest : Test where
  start := ⟨some 5, fun _ tag => decide (tag = .latest ∨ tag = .number 5)⟩
  rounds := []

/-- With the margin added, blocks below zero are pinned. -/
theorem negativeInterval_not_invariant : ¬ Invariant negativeInterval [] shallowTest := by
  intro h
  have hmem : BlockTag.number (-1) ∈
      (session negativeInterval ([] ++ [shallowTest])).recentBlocks := by
    decide +kernel
  have hneg := h.nonneg (-1) hmem
  omega

/-- The same test with the default interval. -/
theorem defaultInterval_invariant :
    Invariant { negativeInterval with blockWindowRefreshSec := 30 } [] shallowTest := by
  apply session_invariant
  norm_num [safetyMargin]

end StateBenchmarks.LoadTests
