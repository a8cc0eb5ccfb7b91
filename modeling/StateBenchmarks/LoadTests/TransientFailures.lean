/-
# Probes that get lost

A state probe that fails in transport is answered `False`, as if the state were
missing, two calls below the handler that would keep the previous window.  A
lost probe can therefore end pinning, for good.

What a tick needs is one answer: a probe of it, at a depth that leaves a window
large enough, has to get through.
-/

import StateBenchmarks.LoadTests.Retention

namespace StateBenchmarks.LoadTests

/-- The `n`-th probe was answered as the node answers its `n`-th. -/
def InOrder (node : Node) (log : Log) : Prop :=
  ∀ n tag ok, log[n]? = some (tag, ok) → ok = node n tag

section Bisection

variable {node : Node} {head lo hi : ℤ} {log : Log}

theorem InOrder.probe (h : InOrder node log) (tag : BlockTag) :
    InOrder node (stateAvailable node tag log).2 := by
  intro n tag' ok hentry
  rcases Nat.lt_trichotomy n log.length with hlt | rfl | hgt
  · rw [stateAvailable, List.getElem?_append_left hlt] at hentry
    exact h n tag' ok hentry
  · simp only [stateAvailable, List.getElem?_concat_length, Option.some.injEq,
      Prod.mk.injEq] at hentry
    rw [← hentry.1, hentry.2]
  · rw [stateAvailable, List.getElem?_eq_none (by simp; omega)] at hentry
    cases hentry

theorem InOrder.bisect (h : InOrder node log) : InOrder node (bisect node head lo hi log).2 := by
  fun_induction LoadTests.bisect node head lo hi log with
  | case1 lo hi log hgap mid log' hprobe ih =>
      apply ih
      rw [show log' = (stateAvailable node (.number (head - mid)) log).2 by rw [hprobe]]
      exact h.probe _
  | case2 lo hi log hgap mid log' hprobe ih =>
      apply ih
      rw [show log' = (stateAvailable node (.number (head - mid)) log).2 by rw [hprobe]]
      exact h.probe _
  | case3 lo hi log hgap => exact h

/-- What was found before the bisection, or in it at most as deep as its result. -/
theorem bisect_deepest (hbounds : lo < hi) {depth : ℤ}
    (h : (.number (head - depth), true) ∈ (bisect node head lo hi log).2) :
    (.number (head - depth), true) ∈ log ∨ depth ≤ (bisect node head lo hi log).1 := by
  fun_induction LoadTests.bisect node head lo hi log with
  | case1 lo hi log hgap mid log' hprobe ih =>
      have hmid : mid = (lo + hi) / 2 := rfl
      rcases ih (by omega) h with hbefore | hle
      · obtain ⟨hok, rfl⟩ := Prod.mk.inj hprobe
        rcases List.mem_append.mp hbefore with hbefore | hhere
        · exact Or.inl hbefore
        · obtain ⟨probes, -, -, hedge⟩ := bisect_edge node head (show mid < hi by omega)
            (log ++ [(.number (head - mid), node log.length (.number (head - mid)))])
          have hsame := (Prod.mk.inj (List.mem_singleton.mp hhere)).1
          have hle := hedge.lo_le
          rw [BlockTag.number.injEq] at hsame
          exact Or.inr (by omega)
      · exact Or.inr hle
  | case2 lo hi log hgap mid log' hprobe ih =>
      have hmid : mid = (lo + hi) / 2 := rfl
      rcases ih (by omega) h with hbefore | hle
      · obtain ⟨hok, rfl⟩ := Prod.mk.inj hprobe
        rw [hok] at hbefore
        rcases List.mem_append.mp hbefore with hbefore | hhere
        · exact Or.inl hbefore
        · exact absurd (Prod.mk.inj (List.mem_singleton.mp hhere)).2 (by decide)
      · exact Or.inr hle
  | case3 lo hi log hgap => exact Or.inl h

theorem inOrder_probeStateDepth (node : Node) (head maxDepth : ℤ) :
    InOrder node (probeStateDepth node head maxDepth []).2 := by
  have hstart : InOrder node [] := fun n tag ok hentry => by cases hentry
  unfold probeStateDepth
  dsimp only
  split_ifs
  · exact hstart
  · have hprobe := hstart.probe (.number (head - max 0 (min (maxDepth - 1) head)))
    split
    · rename_i log hok
      rwa [hok] at hprobe
    · rename_i log hok
      rw [hok] at hprobe
      exact hprobe.bisect

/-- No answer is deeper than the depth the probing returns. -/
theorem probeStateDepth_deepest {maxDepth depth : ℤ}
    (h : (.number (head - depth), true) ∈ (probeStateDepth node head maxDepth []).2) :
    depth ≤ (probeStateDepth node head maxDepth []).1 := by
  unfold probeStateDepth at h ⊢
  dsimp only at h ⊢
  split_ifs at h ⊢ with hzero
  · cases h
  · split at h
    · rename_i log hok
      obtain ⟨hanswer, rfl⟩ := Prod.mk.inj hok
      have hsame := (Prod.mk.inj (List.mem_singleton.mp h)).1
      rw [BlockTag.number.injEq] at hsame
      show depth ≤ max 0 (min (maxDepth - 1) head)
      omega
    · rename_i log hok
      obtain ⟨hanswer, rfl⟩ := Prod.mk.inj hok
      rcases bisect_deepest (by omega) h with hbefore | hle
      · have hfalse := (Prod.mk.inj (List.mem_singleton.mp hbefore)).2
        rw [hanswer] at hfalse
        cases hfalse
      · exact hle

/-- The probing gets to a depth exactly when it is answered at that depth or
beyond. -/
theorem le_probeStateDepth_iff (hhead : 0 ≤ head) {maxDepth needed : ℤ} (hneeded : 1 ≤ needed) :
    needed ≤ (probeStateDepth node head maxDepth []).1 ↔
      ∃ depth, needed ≤ depth ∧
        (.number (head - depth), true) ∈ (probeStateDepth node head maxDepth []).2 := by
  apply Iff.intro
  · intro hle
    obtain ⟨probes, hlog, -, hedge⟩ := probeStateDepth_findsEdge node hhead maxDepth []
    refine ⟨_, hle, ?_⟩
    rw [hlog, List.nil_append]
    rcases hedge.edge with ⟨hdepth, hcap⟩ | ⟨-, hservable⟩
    · rw [hdepth] at hle ⊢
      exact hcap.resolve_left (by omega)
    · exact hservable.resolve_left (by omega)
  · rintro ⟨depth, hle, hmem⟩
    exact Int.le_trans hle (probeStateDepth_deepest hmem)

end Bisection

/-- A node with retention depth `D`, and a connection to it that loses some probes
of the tick. -/
def faulty (lost : ℕ → Bool) (D head : ℤ) : Node := fun n tag =>
  !lost n && retaining D head n tag

/-- The blocks are a window below some head. -/
def IsWindow (blocks : List BlockTag) : Prop :=
  ∃ head window, 1 ≤ window ∧ blocks = pinned head window

/-- The depth a tick has to find to pin a window: enough for the smallest window
and the margin, unless the window asked for is smaller than that. -/
def neededDepth (s : Settings) (head : ℤ) : ℤ :=
  min (s.minPinnedWindow + safetyMargin s) (requested s head) - 1

/-- The `n`-th probe of a tick asks for the state at a depth. -/
def ProbesDepth (s : Settings) (node : Node) (head : ℤ) (n : ℕ) (depth : ℤ) : Prop :=
  ∃ ok, (computeBlockWindow s node head []).2[n]? = some (.number (head - depth), ok)

variable {s : Settings} {node : Node} {D head : ℤ} {lost : ℕ → Bool}

theorem not_isWindow_latest : ¬ IsWindow [.latest] := by
  rintro ⟨head, window, hwindow, heq⟩
  have hmem : BlockTag.latest ∈ pinned head window := by rw [← heq]; exact List.mem_cons_self
  obtain ⟨i, -, hi⟩ := List.mem_map.mp hmem
  cases hi

/-- Pinning goes on where it is deep enough. -/
theorem isWindow_repin_iff (hhead : 0 ≤ head) :
    IsWindow (repin s node head []) ↔
      s.minPinnedWindow ≤ 1 ∨
        neededDepth s head ≤ (probeStateDepth node head (requested s head) []).1 := by
  obtain ⟨probes, -, -, hedge⟩ := probeStateDepth_findsEdge node hhead (requested s head) []
  have hnonneg := hedge.nonneg
  have hle := hedge.le_cap
  have hone : 1 ≤ requested s head := le_max_left _ _
  have hcap : depthCap head (requested s head) ≤ requested s head - 1 :=
    max_le (by omega) (min_le_left _ _)
  rw [repin, computeBlockWindow, neededDepth]
  generalize probeStateDepth node head (requested s head) [] = probed at hnonneg hle
  obtain ⟨depth, log⟩ := probed
  dsimp only at hnonneg hle ⊢
  have hmax : 1 ≤ max 1 (depth + 1 - safetyMargin s) := le_max_left _ _
  by_cases hfound : depth < requested s head - 1
  · rw [if_pos hfound]
    dsimp only
    by_cases hshallow : max 1 (depth + 1 - safetyMargin s) < s.minPinnedWindow
    · rw [if_pos ⟨rfl, hshallow⟩]
      exact iff_of_false not_isWindow_latest (by omega)
    · rw [if_neg fun h => hshallow h.2]
      exact iff_of_true ⟨head, _, hmax, rfl⟩ (by omega)
  · rw [if_neg hfound, if_neg (by simp)]
    exact iff_of_true ⟨head, _, hone, rfl⟩ (by omega)

/-- A probe that is not lost is answered by what the node retains. -/
theorem exists_answer_iff {needed : ℤ} (hneeded : 1 ≤ needed) :
    (∃ depth, needed ≤ depth ∧ (.number (head - depth), true) ∈
        (probeStateDepth (faulty lost D head) head (requested s head) []).2) ↔
      ∃ n depth, ProbesDepth s (faulty lost D head) head n depth ∧ needed ≤ depth ∧ depth < D ∧
        lost n = false := by
  have hlog : (computeBlockWindow s (faulty lost D head) head []).2 =
      (probeStateDepth (faulty lost D head) head (requested s head) []).2 := by
    unfold computeBlockWindow
    dsimp only
    split_ifs <;> rfl
  have horder := inOrder_probeStateDepth (faulty lost D head) head (requested s head)
  unfold ProbesDepth
  rw [hlog]
  have hanswer : ∀ n depth, needed ≤ depth →
      (faulty lost D head n (.number (head - depth)) = true ↔ lost n = false ∧ depth < D) := by
    intro n depth hle
    show (!lost n && retaining D head n (.number (head - depth))) = true ↔ _
    rw [Bool.and_eq_true, Bool.not_eq_true', retaining_number D head n (by omega)]
  apply Iff.intro
  · rintro ⟨depth, hle, hmem⟩
    obtain ⟨n, hn⟩ := List.mem_iff_getElem?.mp hmem
    obtain ⟨hlost, hlt⟩ := (hanswer n depth hle).mp (horder n _ _ hn).symm
    exact ⟨n, depth, ⟨true, hn⟩, hle, hlt, hlost⟩
  · rintro ⟨n, depth, ⟨ok, hn⟩, hle, hlt, hlost⟩
    have hok := horder n _ _ hn
    rw [(hanswer n depth hle).mpr ⟨hlost, hlt⟩] at hok
    rw [hok] at hn
    exact ⟨depth, hle, List.mem_of_getElem? hn⟩

/-- In pinned mode a tick pins again. -/
theorem recentBlocks_tick {p : Pinning} (hpinned : p.recentBlocks ≠ [.latest]) :
    (tick s (some head) node p).recentBlocks = repin s node head [] := by
  simp only [tick]
  rw [if_neg hpinned]

/-- **Lost probes.**  A tick in pinned mode keeps a window pinned if and only if the
smallest window is a single block, or the tick needs no depth, or one of its probes
at a depth it needs and the node still has gets through. -/
theorem isWindow_tick_iff (s : Settings) (D : ℤ) (hhead : 0 ≤ head) (lost : ℕ → Bool)
    (p : Pinning) (hpinned : p.recentBlocks ≠ [.latest]) :
    IsWindow (tick s (some head) (faulty lost D head) p).recentBlocks ↔
      s.minPinnedWindow ≤ 1 ∨ neededDepth s head ≤ 0 ∨
        ∃ n depth, ProbesDepth s (faulty lost D head) head n depth ∧
          neededDepth s head ≤ depth ∧ depth < D ∧ lost n = false := by
  rw [recentBlocks_tick hpinned, isWindow_repin_iff hhead]
  apply or_congr Iff.rfl
  by_cases hzero : neededDepth s head ≤ 0
  · obtain ⟨probes, -, -, hedge⟩ :=
      probeStateDepth_findsEdge (faulty lost D head) hhead (requested s head) []
    have hnonneg := hedge.nonneg
    exact iff_of_true (by omega) (Or.inl hzero)
  · rw [le_probeStateDepth_iff hhead (by omega), exists_answer_iff (by omega),
      or_iff_right hzero]

/-- A pinned window of the small size. -/
def pinnedSmall : Pinning := ⟨pinned 1000 64, some 1000, some 1000⟩

theorem neededDepth_smallWindow : neededDepth smallWindow 1000 = 17 := by
  rw [neededDepth, safetyMargin_smallWindow]
  decide

/-- The node has twice the window.  All probes of one tick time out, and pinning is
over. -/
theorem all_lost_unpins :
    smallWindow.minPinnedWindow + safetyMargin smallWindow ≤ 128 ∧
      pinnedSmall.recentBlocks ≠ [.latest] ∧
      ¬ IsWindow (tick smallWindow (some 1000) (faulty (fun _ => true) 128 1000)
        pinnedSmall).recentBlocks := by
  refine ⟨by rw [safetyMargin_smallWindow]; decide, by decide, ?_⟩
  rw [recentBlocks_tick (by decide), isWindow_repin_iff (by decide), neededDepth_smallWindow,
    le_probeStateDepth_iff (by decide) (by decide), exists_answer_iff (by decide)]
  rintro (hmin | ⟨n, depth, -, -, -, hlost⟩)
  · exact absurd hmin (by decide)
  · cases hlost

/-- If the first probe gets through, all others may be lost. -/
theorem first_answered_keeps_window :
    IsWindow (tick smallWindow (some 1000) (faulty (fun n => n != 0) 128 1000)
      pinnedSmall).recentBlocks := by
  apply (isWindow_tick_iff smallWindow 128 (by decide) _ pinnedSmall (by decide)).mpr
  refine Or.inr (Or.inr ⟨0, 63, ⟨true, by decide⟩, ?_, by decide, rfl⟩)
  rw [neededDepth_smallWindow]
  decide

end StateBenchmarks.LoadTests
