/-
# The depth a probing finds

`_probe_state_depth` asks at the cap first and bisects below it only if that
fails.  It never asks about the head.  Whatever the node answers, and even if it
contradicts itself, the depth found is an edge of the answers it gave; for a
node with a band of state it is the end of the band.
-/

import StateBenchmarks.LoadTests.BlockWindow
import Mathlib.Order.Bounds.Basic

namespace StateBenchmarks.LoadTests

/-- The greatest depth a probing may return. -/
def depthCap (head maxDepth : ℤ) : ℤ := max 0 (min (maxDepth - 1) head)

/-- The depth is an edge of the answers to some probes: the cap, or a depth where
the node had state and one further it had not.  Neither is asked about depth
zero. -/
structure FindsEdge (head cap depth : ℤ) (probes : Log) : Prop where
  nonneg : 0 ≤ depth
  le_cap : depth ≤ cap
  inside : ∀ probe ∈ probes, ∃ block, probe.1 = .number block ∧ 0 ≤ block ∧ block ≤ head
  edge : depth = cap ∧ (cap = 0 ∨ (.number (head - cap), true) ∈ probes) ∨
    (.number (head - (depth + 1)), false) ∈ probes ∧
      (depth = 0 ∨ (.number (head - depth), true) ∈ probes)

/-- A node whose availability by depth is the same for every probe up to the cap. -/
def ServesDepths (node : Node) (head cap : ℤ) (available : ℤ → Prop) : Prop :=
  ∀ n depth, 0 ≤ depth → depth ≤ cap → (node n (.number (head - depth)) = true ↔ available depth)

variable {node : Node} {head cap depth maxDepth : ℤ} {probes : Log}

theorem depthCap_le_head (hhead : 0 ≤ head) (maxDepth : ℤ) : depthCap head maxDepth ≤ head :=
  max_le hhead (min_le_right _ _)

/-- Probing returns an edge of the answers it gets. -/
theorem probeStateDepth_findsEdge (node : Node) (hhead : 0 ≤ head) (maxDepth : ℤ) (log : Log) :
    ∃ probes, (probeStateDepth node head maxDepth log).2 = log ++ probes ∧
      AnsweredBy node probes ∧ FindsEdge head (depthCap head maxDepth)
        (probeStateDepth node head maxDepth log).1 probes := by
  have hcap : 0 ≤ depthCap head maxDepth := le_max_left _ _
  have hle := depthCap_le_head hhead maxDepth
  rw [probeStateDepth, ← depthCap]
  generalize depthCap head maxDepth = cap at hcap hle
  by_cases hzero : cap = 0
  · rw [if_pos hzero]
    refine ⟨[], (List.append_nil log).symm, fun probe hprobe => absurd hprobe (by simp), ?_⟩
    exact ⟨hcap, Int.le_refl _, fun probe hprobe => absurd hprobe (by simp),
      Or.inl ⟨rfl, Or.inl hzero⟩⟩
  · rw [if_neg hzero]
    simp only [stateAvailable]
    cases hok : node log.length (.number (head - cap)) with
    | true =>
        refine ⟨[(.number (head - cap), true)], rfl, ?_, ?_⟩
        · intro probe hprobe
          obtain rfl := List.mem_singleton.mp hprobe
          exact ⟨log.length, hok.symm⟩
        · refine ⟨hcap, Int.le_refl _, ?_, Or.inl ⟨rfl, Or.inr (List.mem_singleton.mpr rfl)⟩⟩
          intro probe hprobe
          obtain rfl := List.mem_singleton.mp hprobe
          exact ⟨head - cap, rfl, by omega, by omega⟩
    | false =>
        obtain ⟨probes, hlog, hanswered, hedge⟩ := bisect_edge node head
          (show (0 : ℤ) < cap by omega) (log ++ [(.number (head - cap), false)])
        refine ⟨(.number (head - cap), false) :: probes, ?_, hanswered.cons hok, ?_⟩
        · rw [hlog, List.append_assoc]
          rfl
        · refine ⟨hedge.lo_le, hedge.lt_hi.le, ?_, Or.inr ⟨?_, ?_⟩⟩
          · intro probe hprobe
            rcases List.mem_cons.mp hprobe with rfl | hprobe
            · exact ⟨head - cap, rfl, by omega, by omega⟩
            · obtain ⟨d, hd, hd', heq⟩ := hedge.inside probe hprobe
              exact ⟨head - d, heq, by omega, by omega⟩
          · rcases hedge.unservable with heq | hmem
            · rw [heq]
              exact List.mem_cons_self
            · exact List.mem_cons_of_mem _ hmem
          · exact hedge.servable.imp id (List.mem_cons_of_mem _)

/-- What a node with fixed availability answered. -/
theorem ServesDepths.of_mem {available : ℤ → Prop} (h : ServesDepths node head cap available)
    (hanswered : AnsweredBy node probes) (hdepth : 0 ≤ depth) (hcap : depth ≤ cap) {ok : Bool}
    (hmem : (.number (head - depth), ok) ∈ probes) : ok = true ↔ available depth := by
  obtain ⟨n, hanswer⟩ := hanswered _ hmem
  rw [← h n depth hdepth hcap, ← show ok = _ from hanswer]

/-- Where availability ends for good, the edge found is where it ends. -/
theorem FindsEdge.isGreatest (h : FindsEdge head cap depth probes)
    (hanswered : AnsweredBy node probes) {available : ℤ → Prop}
    (hserves : ServesDepths node head cap available)
    (hclosed : ∀ d d', 0 ≤ d' → d' ≤ d → available d → available d') (hhead : available 0) :
    IsGreatest {d | 0 ≤ d ∧ d ≤ cap ∧ available d} depth := by
  have hnonneg := h.nonneg
  have hle := h.le_cap
  rcases h.edge with ⟨rfl, hservable⟩ | ⟨hunservable, hservable⟩
  · refine ⟨⟨hnonneg, Int.le_refl _, ?_⟩, fun d hd => hd.2.1⟩
    rcases hservable with hzero | hmem
    · rwa [hzero]
    · exact (hserves.of_mem hanswered hnonneg (Int.le_refl _) hmem).mp rfl
  · refine ⟨⟨hnonneg, hle, ?_⟩, ?_⟩
    · rcases hservable with hzero | hmem
      · rwa [hzero]
      · exact (hserves.of_mem hanswered hnonneg hle hmem).mp rfl
    · rintro d ⟨-, hdcap, hd⟩
      by_contra hlt
      have hnext := hclosed d (depth + 1) (by omega) (by omega) hd
      have hok := (hserves.of_mem hanswered (by omega) (by omega) hunservable).mpr hnext
      cases hok

/-- **The retention edge.**  For every head, every depth asked for and every
sequence of answers, the probing ends with an edge of the answers, at most the
cap, having asked for existing blocks only.  If availability ends for good at some
depth, the result is the deepest depth served. -/
theorem probeStateDepth_edge (node : Node) (hhead : 0 ≤ head) (maxDepth : ℤ) (log : Log) :
    ∃ probes, (probeStateDepth node head maxDepth log).2 = log ++ probes ∧
      AnsweredBy node probes ∧
      FindsEdge head (depthCap head maxDepth)
        (probeStateDepth node head maxDepth log).1 probes ∧
      ∀ available : ℤ → Prop, ServesDepths node head (depthCap head maxDepth) available →
        (∀ d d', 0 ≤ d' → d' ≤ d → available d → available d') → available 0 →
        IsGreatest {d | 0 ≤ d ∧ d ≤ depthCap head maxDepth ∧ available d}
          (probeStateDepth node head maxDepth log).1 := by
  obtain ⟨probes, hlog, hanswered, hedge⟩ := probeStateDepth_findsEdge node hhead maxDepth log
  refine ⟨probes, hlog, hanswered, hedge, ?_⟩
  intro available hserves hclosed hzero
  exact hedge.isGreatest hanswered hserves hclosed hzero

/-- A node that has the block 128 behind its head one time and not the next. -/
def flickering : Node := fun n _ => n % 2 == 0

/-- An edge is found in its answers all the same. -/
theorem flickering_edge :
    ∃ probes, (probeStateDepth flickering 1000 64 []).2 = [] ++ probes ∧
      FindsEdge 1000 (depthCap 1000 64) (probeStateDepth flickering 1000 64 []).1 probes := by
  obtain ⟨probes, hlog, -, hedge, -⟩ :=
    probeStateDepth_edge flickering (show (0 : ℤ) ≤ 1000 by decide) 64 []
  exact ⟨probes, hlog, hedge⟩

end StateBenchmarks.LoadTests
