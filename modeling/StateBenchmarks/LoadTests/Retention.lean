/-
# Pinned blocks and retained state

A node that keeps state for a fixed number of blocks behind its head moves its
band forward with every block.  A pinned window survives the time to the next
refresh when it keeps clear of the band's edge by the safety margin.

The margin is subtracted only where the probes found the edge inside the window
asked for.  A node whose band ends at the window, or less than a margin beyond
it, shows no edge; its window is pinned in full, and the oldest blocks leave the
band before the next refresh.
-/

import StateBenchmarks.LoadTests.RetentionEdge

namespace StateBenchmarks.LoadTests

/-- A node with retention depth `D` serves the block by number at this head. -/
def Servable (D head block : ℤ) : Prop := head - D < block ∧ block ≤ head

/-- A node that keeps its head and its retention depth while it is probed. -/
def retaining (D head : ℤ) : Node := fun _ tag =>
  match tag with
  | .latest => true
  | .number block => decide (head - D < block ∧ block ≤ head)

/-- Every pinned number stays servable while the head advances by at most the
safety margin. -/
def StaysServable (s : Settings) (D head : ℤ) (blocks : List BlockTag) : Prop :=
  ∀ block, .number block ∈ blocks → ∀ k, 0 ≤ k → k ≤ safetyMargin s →
    Servable D (head + k) block

/-- The retention edge lies in the blind spot: at the end of the window asked
for, or less than the margin beyond it. -/
def EdgeUnseen (s : Settings) (D head : ℤ) : Prop :=
  requested s head ≤ D ∧ D < requested s head + safetyMargin s

variable {s : Settings} {D head : ℤ}

theorem retaining_number (D head : ℤ) (n : ℕ) {depth : ℤ} (hdepth : 0 ≤ depth) :
    retaining D head n (.number (head - depth)) = true ↔ depth < D := by
  show decide (head - D < head - depth ∧ head - depth ≤ head) = true ↔ depth < D
  rw [decide_eq_true_iff]
  omega

theorem servesDepths_retaining (D head cap : ℤ) :
    ServesDepths (retaining D head) head cap (· < D) :=
  fun n _ hdepth _ => retaining_number D head n hdepth

/-- Probing such a node finds the deepest block it serves, or the depth asked
for. -/
theorem probeStateDepth_retaining (hD : 1 ≤ D) {maxDepth : ℤ} (hmax : 1 ≤ maxDepth)
    (hhead : maxDepth ≤ head) (log : Log) :
    (probeStateDepth (retaining D head) head maxDepth log).1 = min (D - 1) (maxDepth - 1) := by
  obtain ⟨probes, -, hanswered, hedge⟩ :=
    probeStateDepth_findsEdge (retaining D head) (show 0 ≤ head by omega) maxDepth log
  have hfound := hedge.isGreatest hanswered (servesDepths_retaining D head _)
    (fun d d' _ hle hlt => by omega) (by omega)
  have hcap : depthCap head maxDepth = maxDepth - 1 := by
    unfold depthCap
    omega
  rw [hcap] at hfound
  apply hfound.unique
  refine ⟨⟨by omega, min_le_right _ _, by omega⟩, ?_⟩
  rintro d ⟨-, hdcap, hlt⟩
  omega

/-- The window computed against such a node: all that was asked for while the
band reaches that far, else the band less the margin. -/
theorem computeBlockWindow_retaining (hD : 1 ≤ D) (hhead : 1 ≤ head) (log : Log) :
    (computeBlockWindow s (retaining D head) head log).1 =
      if requested s head ≤ D then ⟨requested s head, requested s head - 1, false⟩
      else ⟨max 1 (D - safetyMargin s), D - 1, true⟩ := by
  have hone : 1 ≤ requested s head := le_max_left _ _
  have hle : requested s head ≤ head := max_le hhead (min_le_right _ _)
  have hdepth := probeStateDepth_retaining hD hone hle log
  rw [computeBlockWindow]
  generalize probeStateDepth (retaining D head) head (requested s head) log = probed at hdepth
  obtain ⟨depth, log'⟩ := probed
  obtain rfl : depth = min (D - 1) (requested s head - 1) := hdepth
  dsimp only
  by_cases hreaches : requested s head ≤ D
  · have hmin : min (D - 1) (requested s head - 1) = requested s head - 1 := by omega
    rw [hmin, if_neg (Int.lt_irrefl _), if_pos hreaches]
  · have hmin : min (D - 1) (requested s head - 1) = D - 1 := by omega
    rw [hmin, if_pos (by omega), if_neg hreaches, Int.sub_add_cancel]

/-- A window survives the margin exactly when the band is that much longer. -/
theorem staysServable_pinned_iff {window : ℤ} (hwindow : 1 ≤ window) :
    StaysServable s D head (pinned head window) ↔
      (0 ≤ safetyMargin s → window + safetyMargin s ≤ D) := by
  constructor
  · intro h hmargin
    have hmem : BlockTag.number (head - (window - 1)) ∈ pinned head window := by
      apply List.mem_map.mpr
      refine ⟨(window - 1).toNat, List.mem_range.mpr (by omega), ?_⟩
      show BlockTag.number (head - ((window - 1).toNat : ℤ)) = _
      rw [Int.toNat_of_nonneg (by omega)]
    obtain ⟨hold, -⟩ := h _ hmem (safetyMargin s) hmargin (Int.le_refl _)
    omega
  · intro h block hblock k hk hmargin
    obtain ⟨i, hi, heq⟩ := List.mem_map.mp hblock
    obtain rfl := BlockTag.number.inj heq
    have hi' := List.mem_range.mp hi
    have hD := h (by omega)
    show head + k - D < head - i ∧ head - i ≤ head + k
    omega

/-- Either way of pinning against such a node is safe exactly when its edge is
not in the blind spot. -/
theorem staysServable_repin_iff (hD : 1 ≤ D) (hhead : 1 ≤ head)
    (hmin : 2 ≤ s.minPinnedWindow) (log : Log) :
    StaysServable s D head (repin s (retaining D head) head log) ↔ ¬ EdgeUnseen s D head := by
  have hwindow := computeBlockWindow_retaining (s := s) hD hhead log
  rw [repin]
  generalize computeBlockWindow s (retaining D head) head log = computed at hwindow
  obtain ⟨w, log'⟩ := computed
  dsimp only at hwindow ⊢
  rw [hwindow, EdgeUnseen]
  by_cases hreaches : requested s head ≤ D
  · rw [if_pos hreaches, if_neg (by simp)]
    have hone : 1 ≤ requested s head := le_max_left _ _
    dsimp only
    rw [staysServable_pinned_iff hone]
    omega
  · rw [if_neg hreaches]
    dsimp only
    have hsafe : ¬ (requested s head ≤ D ∧ D < requested s head + safetyMargin s) :=
      fun h => hreaches h.1
    by_cases hshallow : max 1 (D - safetyMargin s) < s.minPinnedWindow
    · rw [if_pos ⟨rfl, hshallow⟩]
      refine iff_of_true ?_ hsafe
      intro block hblock
      simp at hblock
    · rw [if_neg fun h => hshallow h.2]
      have hmax : max 1 (D - safetyMargin s) = D - safetyMargin s := by omega
      rw [hmax, staysServable_pinned_iff (by omega)]
      refine iff_of_true ?_ hsafe
      intro _
      omega

/-- **Pinned blocks stay servable until the next refresh exactly where the edge
is seen.**  At a start, and at every refresh in pinned mode whatever was pinned
before. -/
theorem pinned_staysServable_iff (s : Settings) (D head : ℤ) (hD : 1 ≤ D) (hhead : 1 ≤ head)
    (hmin : 2 ≤ s.minPinnedWindow) (p : Pinning) :
    (StaysServable s D head
        (onTestStart s (some head) (retaining D head) p).pinning.recentBlocks ↔
      ¬ EdgeUnseen s D head) ∧
    (p.recentBlocks ≠ [.latest] →
      (StaysServable s D head (tick s (some head) (retaining D head) p).recentBlocks ↔
        ¬ EdgeUnseen s D head)) := by
  constructor
  · have hhere : retaining D head 1 (.number head) = true := by
      have hserved := retaining_number D head 1 (Int.le_refl 0)
      rw [Int.sub_zero] at hserved
      exact hserved.mpr (by omega)
    have hstart : (onTestStart s (some head) (retaining D head) p).pinning.recentBlocks =
        repin s (retaining D head) head [(.latest, true), (.number head, true)] := by
      simp only [onTestStart, stateAvailable]
      have hlatest : retaining D head 0 .latest = true := rfl
      simp [hlatest, hhere, Start.pinning]
    rw [hstart]
    exact staysServable_repin_iff hD hhead hmin _
  · intro hpinned
    have htick : (tick s (some head) (retaining D head) p).recentBlocks =
        repin s (retaining D head) head [] := by
      simp only [tick]
      rw [if_neg hpinned]
    rw [htick]
    exact staysServable_repin_iff hD hhead hmin _

/-- A window of 64 blocks, refreshed every thirty seconds. -/
def smallWindow : Settings where
  recentBlockWindow := 64
  minPinnedWindow := 8
  blockWindowRefreshSec := 30

theorem safetyMargin_smallWindow : safetyMargin smallWindow = 10 := by
  norm_num [safetyMargin, smallWindow]

/-- A node that keeps exactly the window loses its oldest block with the next
block it processes. -/
theorem smallWindow_not_staysServable :
    ¬ StaysServable smallWindow 64 1000
      (onTestStart smallWindow (some 1000) (retaining 64 1000) unpinned).pinning.recentBlocks := by
  intro h
  have hmem : BlockTag.number 937 ∈
      (onTestStart smallWindow (some 1000) (retaining 64 1000) unpinned).pinning.recentBlocks := by
    decide
  obtain ⟨hold, -⟩ := h 937 hmem 1 (by decide) (by rw [safetyMargin_smallWindow]; decide)
  omega

/-- A node that keeps twice as much serves the whole window throughout. -/
theorem smallWindow_staysServable :
    StaysServable smallWindow 128 1000
      (onTestStart smallWindow (some 1000) (retaining 128 1000) unpinned).pinning.recentBlocks := by
  apply (pinned_staysServable_iff smallWindow 128 1000 (by decide) (by decide) (by decide)
    unpinned).1.mpr
  rw [EdgeUnseen, safetyMargin_smallWindow]
  decide

end StateBenchmarks.LoadTests
