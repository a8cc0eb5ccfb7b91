/-
# The regression baseline

A run is compared with the most recent run of another milestone.  A load test
that failed too often is marked in its file, and its latencies are left out of
it, so that it does not become the baseline of the runs after it.

`find_previous_milestone` orders the files by timestamp and takes the last; it
does not look at the mark.  A broken run is the baseline of every run until a
newer one of a third milestone is written.
-/

import StateBenchmarks.Metrics.Aggregator
import Mathlib.Data.List.ReduceOption
import Mathlib.Data.Prod.Lex
import Mathlib.Data.String.Basic

namespace StateBenchmarks.Metrics

open Python Control

/-- There is no metrics file, or a run has written it. -/
def Written (entry : TreeEntry) : Prop :=
  entry.metrics = .absent ∨
    ∃ (run : LoadRun) (listing : Listing) (tree : Tree) (report : Report),
      mainLoad run listing tree = .ok report ∧ entry.metrics = .holds (run.payload report)

/-- The benchmarks directory when every metrics file in it was written by the
aggregator. -/
structure Benchmarks where
  tree : Tree
  nodup : (tree.map (·.name)).Nodup
  written : ∀ entry ∈ tree, Written entry

/-- The candidates of a run, in the order they are listed. -/
def siblings (milestone : String) (tree : Tree) : List Candidate :=
  tree.filterMap (candidateOf milestone)

/-- A candidate whose load test passed the failure gate. -/
def Valid (c : Candidate) : Prop := c.payload.get "load_test_valid" = .ok (.bool true)

/-- When a candidate was written, its milestone breaking ties. -/
def recency (c : Candidate) : String ×ₗ String :=
  toLex (match c.timestamp with | .str s => s | _ => "", c.milestone)

/-- What a written file gives as a candidate. -/
theorem candidateOf_written {milestone : String} {entry : TreeEntry} {c : Candidate}
    (h : Written entry) (hc : candidateOf milestone entry = some c) :
    ∃ (run : LoadRun) (report : Report), c.timestamp = .str run.timestamp ∧
      c.payload = run.payload report := by
  rw [candidateOf] at hc
  split_ifs at hc with hname hdir
  rcases h with habsent | ⟨run, -, -, report, -, hholds⟩
  · rw [habsent] at hc
    cases hc
  · rw [hholds] at hc
    cases hc
    exact ⟨run, report, rfl, rfl⟩

/-- Candidates with a text for a timestamp are compared by how recent they are. -/
theorem comparesBy_of_texts {candidates : List Candidate}
    (htext : ∀ c ∈ candidates, ∃ s, c.timestamp = .str s) :
    ComparesBy candidateLt recency candidates := by
  intro a ha b hb
  obtain ⟨s, hs⟩ := htext a ha
  obtain ⟨t, ht⟩ := htext b hb
  have hlt : recency a < recency b ↔ s < t ∨ s = t ∧ a.milestone < b.milestone := by
    rw [recency, recency, hs, ht]
    exact Prod.Lex.toLex_lt_toLex
  rw [candidateLt, hs, ht, Json.pyEq_str]
  by_cases heq : s = t
  · rw [if_pos (beq_iff_eq.mpr heq), decide_eq_decide.mpr]
    rw [hlt, heq]
    simp
  · rw [if_neg fun h => heq (beq_iff_eq.mp h), Json.pyLt, decide_eq_decide.mpr]
    rw [hlt]
    simp [heq]

/-- What the aggregator wrote has a text for a timestamp. -/
theorem texts_of_written {milestone : String} {tree : Tree}
    (hwritten : ∀ entry ∈ tree, Written entry) :
    ∀ c ∈ siblings milestone tree, ∃ s, c.timestamp = .str s := by
  intro c hc
  obtain ⟨entry, hentry, hcandidate⟩ := List.mem_filterMap.mp hc
  obtain ⟨run, -, htimestamp, -⟩ := candidateOf_written (hwritten entry hentry) hcandidate
  exact ⟨run.timestamp, htimestamp⟩

/-- Nothing is selected exactly where there is no candidate. -/
theorem findPreviousMilestone_eq_none_iff (milestone : String) (tree : Tree) :
    findPreviousMilestone milestone tree = .ok none ↔ siblings milestone tree = [] := by
  apply Iff.intro
  · intro h
    by_contra hne
    have hnonempty : (tree.filterMap (candidateOf milestone)).isEmpty = false :=
      List.isEmpty_eq_false_iff.mpr hne
    simp only [findPreviousMilestone, hnonempty, bind, Except.bind] at h
    cases hsort : sortM candidateLt (tree.filterMap (candidateOf milestone)) with
    | error e => simp [hsort] at h
    | ok zs =>
        have hzs : zs = [] := by simpa [hsort, pure, Except.pure] using h
        rw [hzs] at hsort
        exact hne (perm_of_sortM hsort).nil_eq.symm
  · intro h
    rw [findPreviousMilestone, show tree.filterMap (candidateOf milestone) = [] from h]
    rfl

/-- Among candidates compared by how recent they are the most recent is selected. -/
theorem findPreviousMilestone_of_compares {milestone : String} {tree : Tree}
    (hcompares : ComparesBy candidateLt recency (siblings milestone tree))
    (hne : siblings milestone tree ≠ []) :
    ∃ last ∈ siblings milestone tree, findPreviousMilestone milestone tree = .ok (some last) ∧
      ∀ c ∈ siblings milestone tree, recency c ≤ recency last := by
  obtain ⟨zs, last, hsort, hlast, hmem, hmax⟩ := sortM_getLast hcompares hne
  refine ⟨last, hmem, ?_, hmax⟩
  have hsort' : sortM candidateLt (tree.filterMap (candidateOf milestone)) = .ok zs := hsort
  have hnonempty : (tree.filterMap (candidateOf milestone)).isEmpty = false :=
    List.isEmpty_eq_false_iff.mpr hne
  simp only [findPreviousMilestone, hnonempty, hsort', bind, Except.bind, pure, Except.pure]
  exact congrArg Except.ok hlast

/-- The selected run is the most recent sibling. -/
theorem findPreviousMilestone_spec (milestone : String) {tree : Tree}
    (hwritten : ∀ entry ∈ tree, Written entry) :
    (siblings milestone tree = [] ∧ findPreviousMilestone milestone tree = .ok none) ∨
      ∃ last ∈ siblings milestone tree, findPreviousMilestone milestone tree = .ok (some last) ∧
        ∀ c ∈ siblings milestone tree, recency c ≤ recency last := by
  by_cases hempty : siblings milestone tree = []
  · exact Or.inl ⟨hempty, (findPreviousMilestone_eq_none_iff milestone tree).mpr hempty⟩
  · exact Or.inr (findPreviousMilestone_of_compares
      (comparesBy_of_texts (texts_of_written hwritten)) hempty)

/-- The value a metric had in a candidate's file. -/
def HasMetric (c : Candidate) (metric : String) (value : Json) : Prop :=
  ∃ metrics, c.payload.getD "metrics" (.obj []) = .ok metrics ∧ metrics.item metric = .ok value

/-- A regression of one metric names the values it was found between. -/
theorem previous_of_compareMetric {milestone : String} {metrics : Json} {higher : List String}
    {threshold : ℚ} {key : String} {current : Json} {r : Regression}
    (h : compareMetric milestone metrics higher threshold key current = .ok (some r)) :
    r.metric = key ∧ r.previousMilestone = milestone ∧ metrics.item key = .ok r.previous := by
  rw [compareMetric] at h
  cases hcontains : metrics.contains key with
  | error e =>
      rw [hcontains] at h
      cases h
  | ok present =>
      rw [hcontains] at h
      cases present with
      | false => cases h
      | true =>
          cases hitem : metrics.item key with
          | error e =>
              rw [hitem] at h
              cases h
          | ok previous =>
              rw [hitem] at h
              simp only [bind, Except.bind, pure, Except.pure, if_pos] at h
              split at h
              · split_ifs at h <;> cases h <;> exact ⟨rfl, rfl, rfl⟩
              · cases h

/-- Every regression compares with a value of the candidate it was given. -/
theorem previous_of_mem {current : Dict Json} {prev : Candidate} {higher : List String}
    {threshold : ℚ} {regressions : List Regression}
    (h : compareAgainstPrevious current prev higher threshold = .ok regressions) {r : Regression}
    (hr : r ∈ regressions) :
    r.previousMilestone = prev.milestone ∧ HasMetric prev r.metric r.previous := by
  rw [compareAgainstPrevious] at h
  cases hmetrics : prev.payload.getD "metrics" (.obj []) with
  | error e =>
      rw [hmetrics] at h
      cases h
  | ok metrics =>
      rw [hmetrics] at h
      simp only [bind, Except.bind, pure, Except.pure] at h
      split_ifs at h with hfalsy
      · cases h
        cases hr
      · split at h
        · cases h
        · rename_i compared hcompared
          cases h
          obtain ⟨⟨key, value⟩, -, hmetric⟩ :=
            mem_of_mapM hcompared (List.reduceOption_mem_iff.mp hr)
          obtain ⟨rfl, hmilestone, hitem⟩ := previous_of_compareMetric hmetric
          exact ⟨hmilestone, metrics, hmetrics, hitem⟩

theorem names_write (tree : Tree) (milestone : String) (payload : Json) :
    (Tree.write tree milestone payload).map (·.name) = tree.map (·.name) := by
  rw [Tree.write, List.map_map]
  apply List.map_congr_left
  intro entry _
  show (if entry.name = milestone then _ else entry).name = entry.name
  split_ifs <;> rfl

/-- Making the milestone's directory adds nothing to compare with. -/
theorem makeDir_cases {tree tree' : Tree} {milestone : String}
    (h : Tree.makeDir tree milestone = .ok tree') :
    tree' = tree ∨
      tree' = tree ++ [⟨milestone, true, .absent⟩] ∧ milestone ∉ tree.map (·.name) := by
  rw [Tree.makeDir] at h
  split at h
  · rename_i hnone
    cases h
    refine Or.inr ⟨rfl, fun hmem => ?_⟩
    obtain ⟨entry, hentry, hname⟩ := List.mem_map.mp hmem
    have hnot := List.find?_eq_none.mp hnone entry hentry
    exact hnot (beq_iff_eq.mpr hname)
  · split_ifs at h
    cases h
    exact Or.inl rfl

theorem siblings_makeDir {tree tree' : Tree} {milestone : String}
    (h : Tree.makeDir tree milestone = .ok tree') :
    siblings milestone tree' = siblings milestone tree := by
  rcases makeDir_cases h with rfl | ⟨rfl, -⟩
  · rfl
  · rw [siblings, siblings, List.filterMap_append]
    have hself : candidateOf milestone ⟨milestone, true, .absent⟩ = none := if_pos rfl
    rw [List.filterMap_cons_none hself, List.filterMap_nil, List.append_nil]

namespace Benchmarks

/-- The directory with that of the milestone. -/
def withDir (b : Benchmarks) {milestone : String} {tree' : Tree}
    (h : Tree.makeDir b.tree milestone = .ok tree') : Benchmarks where
  tree := tree'
  nodup := by
    rcases makeDir_cases h with rfl | ⟨rfl, hnew⟩
    · exact b.nodup
    · rw [List.map_append]
      exact List.nodup_append.mpr ⟨b.nodup, by simp, by simpa using hnew⟩
  written := by
    rcases makeDir_cases h with rfl | ⟨rfl, -⟩
    · exact b.written
    · intro entry hentry
      rcases List.mem_append.mp hentry with hold | hnew
      · exact b.written entry hold
      · rw [List.mem_singleton.mp hnew]
        exact Or.inl rfl

/-- The directory after a run has written its payload. -/
def withPayload (b : Benchmarks) {run : LoadRun} {listing : Listing} {tree : Tree}
    {report : Report} (h : mainLoad run listing tree = .ok report) : Benchmarks where
  tree := b.tree.write run.milestone (run.payload report)
  nodup := by
    rw [names_write]
    exact b.nodup
  written := by
    intro entry hentry
    obtain ⟨old, hold, rfl⟩ := List.mem_map.mp hentry
    split_ifs
    · exact Or.inr ⟨run, listing, tree, report, h, rfl⟩
    · exact b.written old hold

/-- The directory after a run. -/
def after (b : Benchmarks) (run : LoadRun) (listing : Listing) : Benchmarks where
  tree := treeAfter run listing b.tree
  nodup := by
    rw [treeAfter]
    split
    · exact b.nodup
    · rename_i tree' hmake
      split
      · exact (b.withDir hmake).nodup
      · rename_i hmain
        exact ((b.withDir hmake).withPayload hmain).nodup
  written := by
    rw [treeAfter]
    split
    · exact b.written
    · rename_i tree' hmake
      split
      · exact (b.withDir hmake).written
      · rename_i hmain
        exact ((b.withDir hmake).withPayload hmain).written

/-- The directory after a history of runs, each listing it in its own order. -/
def afterAll (b : Benchmarks) (history : List (LoadRun × Listing)) : Benchmarks :=
  history.foldl (fun b step => b.after step.1 step.2) b

end Benchmarks

/-! ## The baseline of a run -/

/-- A name stands for one sibling only. -/
theorem siblings_ext (b : Benchmarks) {milestone : String} {c c' : Candidate}
    (hc : c ∈ siblings milestone b.tree) (hc' : c' ∈ siblings milestone b.tree)
    (h : c.milestone = c'.milestone) : c = c' := by
  obtain ⟨entry, hentry, hcandidate⟩ := List.mem_filterMap.mp hc
  obtain ⟨entry', hentry', hcandidate'⟩ := List.mem_filterMap.mp hc'
  have hname : ∀ {e : TreeEntry} {d : Candidate}, candidateOf milestone e = some d →
      d.milestone = e.name := fun {e d} hd => by
    rw [candidateOf] at hd
    split_ifs at hd
    split at hd
    · split at hd
      · cases hd
        rfl
      · cases hd
    · cases hd
  obtain rfl : entry = entry' := List.inj_on_of_nodup_map b.nodup hentry hentry' (by
    rw [← hname hcandidate, ← hname hcandidate', h])
  exact Option.some_inj.mp (hcandidate.symm.trans hcandidate')

/-- The newest siblings are one and the same. -/
theorem newest_unique (b : Benchmarks) {milestone : String} {c c' : Candidate}
    (hc : c ∈ siblings milestone b.tree) (hc' : c' ∈ siblings milestone b.tree)
    (hle : recency c ≤ recency c') (hge : recency c' ≤ recency c) : c = c' := by
  have heq := le_antisymm hle hge
  exact siblings_ext b hc hc' (Prod.mk.inj (toLex_inj.mp heq)).2

/-- In whatever order the directory is listed, a run selects its newest
sibling. -/
theorem selected_spec (b : Benchmarks) (listing : Listing) {milestone : String} {tree' : Tree}
    (h : Tree.makeDir b.tree milestone = .ok tree') :
    (siblings milestone b.tree = [] ∧
        findPreviousMilestone milestone (listing.order tree') = .ok none) ∨
      ∃ last ∈ siblings milestone b.tree,
        findPreviousMilestone milestone (listing.order tree') = .ok (some last) ∧
        ∀ c ∈ siblings milestone b.tree, recency c ≤ recency last := by
  have hwritten : ∀ entry ∈ listing.order tree', Written entry := fun entry hentry =>
    (b.withDir h).written entry ((listing.perm tree').mem_iff.mp hentry)
  have hsiblings : (siblings milestone (listing.order tree')).Perm (siblings milestone b.tree) := by
    rw [← siblings_makeDir h]
    exact (listing.perm tree').filterMap _
  rcases findPreviousMilestone_spec milestone hwritten with
    ⟨hempty, hnone⟩ | ⟨last, hlast, hsome, hmax⟩
  · rw [hempty] at hsiblings
    exact Or.inl ⟨hsiblings.nil_eq.symm, hnone⟩
  · exact Or.inr ⟨last, hsiblings.mem_iff.mp hlast, hsome, fun c hc =>
      hmax c (hsiblings.mem_iff.mpr hc)⟩

/-- The run gets as far as comparing itself with another. -/
def Compares (run : LoadRun) (tree : Tree) : Prop :=
  (∃ tree', Tree.makeDir tree run.milestone = .ok tree') ∧ ∃ report, run.measured = .ok report

/-- The baseline of a run is the most recent valid sibling, and what the run
compares itself with are the values of a valid sibling. -/
structure BaselineSound (run : LoadRun) (listing : Listing) (tree : Tree) : Prop where
  selected : ∀ tree', Tree.makeDir tree run.milestone = .ok tree' →
    ∃ choice, findPreviousMilestone run.milestone (listing.order tree') = .ok choice ∧
      (∀ prev, choice = some prev → Valid prev) ∧
      ∀ c ∈ siblings run.milestone tree, Valid c →
        ∃ prev, choice = some prev ∧ recency c ≤ recency prev
  compared : ∀ tree' report, Tree.makeDir tree run.milestone = .ok tree' →
    mainLoad run listing tree' = .ok report → ∀ r ∈ report.regressions,
      ∃ prev ∈ siblings run.milestone tree, Valid prev ∧
        r.previousMilestone = prev.milestone ∧ HasMetric prev r.metric r.previous

/-- The newest sibling, if there is one, is of a run whose load test was
valid. -/
def NewestValid (milestone : String) (tree : Tree) : Prop :=
  ∀ c ∈ siblings milestone tree,
    (∀ c' ∈ siblings milestone tree, recency c' ≤ recency c) → Valid c

/-- What a run reports as regressions it found against the run it selected. -/
theorem regression_spec {run : LoadRun} {listing : Listing} {tree : Tree} {report : Report}
    (h : mainLoad run listing tree = .ok report) {r : Regression} (hr : r ∈ report.regressions) :
    ∃ prev, findPreviousMilestone run.milestone (listing.order tree) = .ok (some prev) ∧
      r.previousMilestone = prev.milestone ∧ HasMetric prev r.metric r.previous := by
  rw [mainLoad] at h
  cases hmeasured : run.measured with
  | error e =>
      rw [hmeasured] at h
      cases h
  | ok measured =>
      have hnone : measured.regressions = [] := (measured_spec hmeasured).2
      rw [hmeasured] at h
      simp only [bind, Except.bind, LoadRun.compared] at h
      cases hfind : findPreviousMilestone run.milestone (listing.order tree) with
      | error e =>
          rw [hfind] at h
          cases h
      | ok choice =>
          rw [hfind] at h
          cases choice with
          | none =>
              cases h
              rw [hnone] at hr
              cases hr
          | some prev =>
              dsimp only at h
              split at h
              · cases h
              · rename_i regressions hcompared
                cases h
                exact ⟨prev, rfl, previous_of_mem hcompared hr⟩

/-- **A run's baseline is sound exactly when its newest sibling is valid.** -/
theorem baselineSound_iff (b : Benchmarks) (run : LoadRun) (listing : Listing)
    (hcompares : Compares run b.tree) :
    BaselineSound run listing b.tree ↔ NewestValid run.milestone b.tree := by
  obtain ⟨⟨tree', hmake⟩, -⟩ := hcompares
  have hspec := selected_spec b listing hmake
  constructor
  · intro h c hc hnewest
    obtain ⟨choice, hfound, hvalid, -⟩ := h.selected tree' hmake
    rcases hspec with ⟨hempty, -⟩ | ⟨last, hlast, hsome, hmax⟩
    · rw [hempty] at hc
      cases hc
    · rw [hsome] at hfound
      cases hfound
      rw [newest_unique b hc hlast (hmax c hc) (hnewest last hlast)]
      exact hvalid last rfl
  · intro hnewest
    constructor
    · intro tree'' hmake'
      rw [hmake] at hmake'
      cases hmake'
      rcases hspec with ⟨hempty, hnone⟩ | ⟨last, hlast, hsome, hmax⟩
      · refine ⟨none, hnone, nofun, fun c hc => ?_⟩
        rw [hempty] at hc
        cases hc
      · refine ⟨some last, hsome, fun prev h => ?_, fun c hc _ => ⟨last, rfl, hmax c hc⟩⟩
        cases h
        exact hnewest last hlast hmax
    · intro tree'' report hmake' hmain r hr
      rw [hmake] at hmake'
      cases hmake'
      obtain ⟨prev, hprev, hmetric⟩ := regression_spec hmain hr
      rcases hspec with ⟨-, hnone⟩ | ⟨last, hlast, hsome, hmax⟩
      · rw [hnone] at hprev
        cases hprev
      · rw [hsome] at hprev
        cases hprev
        exact ⟨prev, hlast, hnewest prev hlast hmax, hmetric⟩

/-- **Over every history, the baselines are sound exactly when at every run that
gets to the comparison the newest other run is valid.** -/
theorem history_baselineSound_iff (b : Benchmarks) (history : List (LoadRun × Listing)) :
    (∀ past run listing future, history = past ++ (run, listing) :: future →
        Compares run (b.afterAll past).tree →
        BaselineSound run listing (b.afterAll past).tree) ↔
      ∀ past run listing future, history = past ++ (run, listing) :: future →
        Compares run (b.afterAll past).tree →
        NewestValid run.milestone (b.afterAll past).tree := by
  constructor
  · intro h past run listing future hsplit hcompares
    exact (baselineSound_iff _ run listing hcompares).mp
      (h past run listing future hsplit hcompares)
  · intro h past run listing future hsplit hcompares
    exact (baselineSound_iff _ run listing hcompares).mpr
      (h past run listing future hsplit hcompares)

theorem mapM_ne_error {α β : Type} {f : α → Except Exn β} {xs : List α} {e : Exn}
    (h : ∀ x ∈ xs, ∃ y, f x = .ok y) (herror : xs.mapM f = .error e) : False := by
  obtain ⟨ys, hys⟩ := mapM_isOk_iff.mpr h
  cases hys.symm.trans herror

/-- A key that a dictionary contains has a value. -/
theorem item_isOk_of_contains {fields : List (String × Json)} {key : String}
    (h : fields.any (·.1 == key) = true) : ∃ v, Json.item (.obj fields) key = .ok v := by
  obtain ⟨⟨name, v⟩, hmem, hname⟩ := List.any_eq_true.mp h
  have hget : Dict.get? fields key ≠ none := fun hnone => by
    have hall := List.lookup_eq_none_iff.mp hnone ⟨name, v⟩ hmem
    rw [beq_iff_eq] at hname
    rw [← hname] at hall
    simp at hall
  obtain ⟨value, hvalue⟩ := Option.ne_none_iff_exists'.mp hget
  exact ⟨value, by rw [Json.item, hvalue]⟩

theorem compareMetric_isOk {milestone : String} {fields : List (String × Json)}
    {higher : List String} {threshold : ℚ} {key : String} {current : Json} :
    ∃ r, compareMetric milestone (.obj fields) higher threshold key current = .ok r := by
  rw [compareMetric]
  cases hcontains : fields.any (·.1 == key) with
  | false =>
      rw [show Json.contains (.obj fields) key = .ok false by rw [Json.contains, hcontains]]
      exact ⟨none, rfl⟩
  | true =>
      obtain ⟨previous, hitem⟩ := item_isOk_of_contains hcontains
      rw [show Json.contains (.obj fields) key = .ok true by rw [Json.contains, hcontains]]
      simp only [hitem, bind, Except.bind, pure, Except.pure, if_pos]
      split
      · split_ifs <;> exact ⟨_, rfl⟩
      · exact ⟨_, rfl⟩

/-- In a directory the aggregator wrote, a run that has measured reports. -/
theorem mainLoad_isOk (b : Benchmarks) {run : LoadRun} (listing : Listing) {tree' : Tree}
    {measured : Report} (hmake : Tree.makeDir b.tree run.milestone = .ok tree')
    (hmeasured : run.measured = .ok measured) :
    ∃ report, mainLoad run listing tree' = .ok report := by
  rw [mainLoad, hmeasured]
  simp only [LoadRun.compared, bind, Except.bind, pure, Except.pure]
  rcases selected_spec b listing hmake with ⟨-, hnone⟩ | ⟨last, hlast, hsome, -⟩
  · rw [hnone]
    exact ⟨measured, rfl⟩
  · rw [hsome]
    obtain ⟨entry, hentry, hcandidate⟩ := List.mem_filterMap.mp hlast
    obtain ⟨prevRun, prevReport, -, hpayload⟩ :=
      candidateOf_written (b.written entry hentry) hcandidate
    have hmetrics : last.payload.getD "metrics" (.obj []) = .ok (.obj prevReport.metrics) := by
      rw [hpayload]
      rfl
    obtain ⟨compared, hcompared⟩ : ∃ compared, compareAgainstPrevious measured.metrics last
        run.config.higherIsBetter run.config.regressionThreshold = .ok compared := by
      rw [compareAgainstPrevious, hmetrics]
      simp only [bind, Except.bind, pure, Except.pure]
      split_ifs
      · exact ⟨[], rfl⟩
      · split
        · rename_i e herror
          exact (mapM_ne_error (fun _ _ => compareMetric_isOk) herror).elim
        · exact ⟨_, rfl⟩
    dsimp only
    rw [hcompared]
    exact ⟨_, rfl⟩

/-- A run that reports has its payload in its milestone's directory. -/
theorem mem_treeAfter {run : LoadRun} {listing : Listing} {tree tree' : Tree} {report : Report}
    (hmake : Tree.makeDir tree run.milestone = .ok tree')
    (hmain : mainLoad run listing tree' = .ok report) :
    ∃ entry ∈ treeAfter run listing tree, entry.name = run.milestone ∧
      entry.metrics = .holds (run.payload report) := by
  have hdir : ∃ entry ∈ tree', entry.name = run.milestone := by
    rw [Tree.makeDir] at hmake
    split at hmake
    · cases hmake
      exact ⟨⟨run.milestone, true, .absent⟩, by simp, rfl⟩
    · rename_i entry hfind
      split_ifs at hmake
      cases hmake
      have hname := (List.find?_eq_some_iff_append.mp hfind).1
      exact ⟨entry, List.mem_of_find?_eq_some hfind, beq_iff_eq.mp hname⟩
  obtain ⟨entry, hentry, hname⟩ := hdir
  rw [treeAfter, hmake]
  dsimp only
  rw [hmain]
  refine ⟨{ entry with metrics := .holds (run.payload report) }, ?_, hname, rfl⟩
  exact List.mem_map.mpr ⟨entry, hentry, if_pos hname⟩

/-- The row of a load test in which five of ten requests failed. -/
def halfFailed : CsvRow :=
  [("Name", some "Aggregated"), ("50%", some "2"), ("95%", some "2"), ("99%", some "2"),
    ("Average Response Time", some "2"), ("Requests/s", some "2"),
    ("Request Count", some "10"), ("Failure Count", some "5")]

def halfFailedEntry : LocustEntry := ⟨2, 2, 2, 2, 2, 10, 5, 0⟩

/-- A run of a milestone with these Locust statistics and nothing else. -/
def bareRun (milestone timestamp : String) (stats : Option (List CsvRow)) : LoadRun where
  client := "nethermind"
  milestone := milestone
  failOnRegression := false
  config := { queries := [], clientQueries := [], loadWindow := "5m", higherIsBetter := [] }
  answer _ := none
  syncPhase := .absent
  syncMetrics := .absent
  stats := stats
  proofRows := none
  numbers := ⟨fun _ => some 2, fun s => if s = "10" then some 10 else some 5⟩
  timestamp := timestamp

def brokenRun : LoadRun := bareRun "v1" "2026-01-01T00:00:00+00:00" (some [halfFailed])

def nextRun : LoadRun := bareRun "v2" "2026-01-02T00:00:00+00:00" none

def brokenReport : Report where
  stateSize := .null
  loadTestValid := false
  metrics := [("rpc_failure_ratio", .float (failureRatio halfFailedEntry))]
  missingMetrics := []
  rpc := ⟨some halfFailedEntry, []⟩
  proofSizes := []
  regressions := []

theorem measured_brokenRun : brokenRun.measured = .ok brokenReport := by
  have hparse : parseLocustStats brokenRun.numbers brokenRun.stats =
      .ok ⟨some halfFailedEntry, []⟩ := rfl
  have hlocust : brokenRun.mergeLocust [] ⟨some halfFailedEntry, []⟩ =
      ([("rpc_failure_ratio", .float (failureRatio halfFailedEntry))], false) := by
    have hgate : brokenRun.config.maxFailureRatio < failureRatio halfFailedEntry := by
      have hmax : brokenRun.config.maxFailureRatio = 1 / 10 := rfl
      rw [hmax]
      norm_num [failureRatio, halfFailedEntry]
    exact mergeLocust_of_lt rfl hgate
  have hsync : brokenRun.mergeSync (brokenRun.mergeSyncPhase []) = .ok ([], .null) := rfl
  have hprometheus : gatherPrometheusMetrics brokenRun.answer brokenRun.client
      brokenRun.config.loadWindow brokenRun.config.queries brokenRun.config.clientQueries =
      ([], []) := rfl
  have hproof : parseProofSizes brokenRun.numbers brokenRun.proofRows = .ok [] := rfl
  simp only [LoadRun.measured, hprometheus, hsync, hparse, hlocust, hproof, bind, Except.bind,
    pure, Except.pure]
  rfl

/-- A benchmarks directory in which nothing has run yet. -/
def noMilestones : Benchmarks where
  tree := []
  nodup := List.nodup_nil
  written := nofun

def asListed : Listing := ⟨fun tree => tree, fun tree => List.Perm.refl tree⟩

/-- After the broken run its file is the only one. -/
theorem tree_after_brokenRun :
    (noMilestones.afterAll [(brokenRun, asListed)]).tree =
      [⟨"v1", true, .holds (brokenRun.payload brokenReport)⟩] := by
  have hmain : mainLoad brokenRun asListed [⟨"v1", true, .absent⟩] = .ok brokenReport := by
    rw [mainLoad, measured_brokenRun]
    rfl
  show treeAfter brokenRun asListed [] = _
  have hmake : Tree.makeDir [] brokenRun.milestone = .ok [⟨"v1", true, .absent⟩] := rfl
  rw [treeAfter, hmake]
  dsimp only
  rw [hmain]
  rfl

/-- The run after a broken one has it as its baseline. -/
theorem nextRun_not_baselineSound :
    Compares nextRun (noMilestones.afterAll [(brokenRun, asListed)]).tree ∧
      ¬ BaselineSound nextRun asListed (noMilestones.afterAll [(brokenRun, asListed)]).tree := by
  rw [tree_after_brokenRun]
  refine ⟨⟨⟨_, rfl⟩, _, rfl⟩, fun h => ?_⟩
  obtain ⟨choice, hfound, hvalid, -⟩ := h.selected _ rfl
  have hselected : findPreviousMilestone nextRun.milestone
      (asListed.order
        [⟨"v1", true, .holds (brokenRun.payload brokenReport)⟩, ⟨"v2", true, .absent⟩]) =
      .ok (some ⟨"v1", .str "2026-01-01T00:00:00+00:00", brokenRun.payload brokenReport⟩) := rfl
  have hchoice := Except.ok.inj (hselected.symm.trans hfound)
  have hmark := hvalid _ hchoice.symm
  cases hmark

end StateBenchmarks.Metrics
