/-
# The exit status as a gate

With `--fail-on-regression` a load phase that exits with zero is taken to have
been measured, tolerable and no worse than the run before.  The last two are
checked.  The first is not: the run counts as valid until the aggregate row of
the Locust statistics says otherwise, and a row that is missing or does not
parse says nothing.
-/

import StateBenchmarks.Metrics.Baseline

namespace StateBenchmarks.Metrics

open Python Control

/-- The entry of a row, if the row is the aggregate one and parses. -/
def aggregatedEntry (numbers : NumberText) (row : CsvRow) : Option LocustEntry :=
  if Dict.get? row "Name" = some (some "Aggregated") then (parseEntry numbers row).toOption
  else none

/-- The last aggregate row that parses. -/
def lastAggregated (numbers : NumberText) (rows : List CsvRow) : Option LocustEntry :=
  (rows.filterMap (aggregatedEntry numbers)).getLast?

/-- A named row that ends before one of the columns, so that converting the cell
raises something that is not caught. -/
def CutShort (numbers : NumberText) (row : CsvRow) : Prop :=
  ∃ name, Dict.get? row "Name" = some (some name) ∧ name ≠ "" ∧
    ∃ e, parseEntry numbers row = .error e ∧ isKeyOrValueError e = false

variable {numbers : NumberText} {row : CsvRow} {rows : List CsvRow}

theorem parseRow_of_cutShort (h : CutShort numbers row) (out : LocustStats) :
    ∃ e, parseRow numbers out row = .error e := by
  obtain ⟨name, hname, hne, e, hentry, huncaught⟩ := h
  refine ⟨e, ?_⟩
  rw [parseRow, hname]
  simp [hne, hentry, huncaught]

/-- A row that is complete sets the aggregate entry if it has one. -/
theorem parseRow_of_complete (h : ¬ CutShort numbers row) (out : LocustStats) :
    ∃ out', parseRow numbers out row = .ok out' ∧
      out'.aggregate = (aggregatedEntry numbers row).or out.aggregate := by
  rw [parseRow, aggregatedEntry]
  rcases hname : Dict.get? row "Name" with _ | _ | name
  · exact ⟨out, rfl, by simp⟩
  · exact ⟨out, rfl, by simp⟩
  · dsimp only
    by_cases hempty : name = ""
    · rw [if_pos hempty]
      exact ⟨out, rfl, by simp [hempty]⟩
    · rw [if_neg hempty]
      cases hentry : parseEntry numbers row with
      | error e =>
          dsimp only
          cases hcaught : isKeyOrValueError e with
          | false => exact absurd ⟨name, hname, hempty, e, hentry, hcaught⟩ h
          | true => exact ⟨out, rfl, by simp [Except.toOption]⟩
      | ok entry =>
          dsimp only
          by_cases haggregated : name = "Aggregated"
          · rw [if_pos haggregated]
            exact ⟨_, rfl, by simp [haggregated, Except.toOption]⟩
          · rw [if_neg haggregated]
            exact ⟨_, rfl, by simp [haggregated]⟩

theorem foldlM_parseRow (h : ∀ row ∈ rows, ¬ CutShort numbers row) (out : LocustStats) :
    ∃ out', rows.foldlM (parseRow numbers) out = .ok out' ∧
      out'.aggregate = (lastAggregated numbers rows).or out.aggregate := by
  induction rows generalizing out with
  | nil => exact ⟨out, rfl, by simp [lastAggregated]⟩
  | cons row rows ih =>
      rw [List.forall_mem_cons] at h
      obtain ⟨out', hrow, haggregate⟩ := parseRow_of_complete h.1 out
      obtain ⟨out'', hrows, haggregate'⟩ := ih h.2 out'
      refine ⟨out'', ?_, ?_⟩
      · rw [List.foldlM_cons, hrow]
        exact hrows
      · rw [haggregate', haggregate, lastAggregated, lastAggregated, List.filterMap_cons]
        cases aggregatedEntry numbers row with
        | none => simp
        | some entry => simp [List.getLast?_cons]

theorem foldlM_of_cutShort (h : ∃ row ∈ rows, CutShort numbers row) (out : LocustStats) :
    ∃ e, rows.foldlM (parseRow numbers) out = .error e := by
  induction rows generalizing out with
  | nil =>
      obtain ⟨row, hrow, -⟩ := h
      cases hrow
  | cons row rows ih =>
      by_cases hshort : CutShort numbers row
      · obtain ⟨e, he⟩ := parseRow_of_cutShort hshort out
        refine ⟨e, ?_⟩
        rw [List.foldlM_cons, he]
        rfl
      · obtain ⟨out', hrow, -⟩ := parseRow_of_complete hshort out
        obtain ⟨short, hmem, hcut⟩ := h
        have hrest : short ∈ rows := (List.mem_cons.mp hmem).resolve_left fun heq =>
          hshort (heq ▸ hcut)
        rw [List.foldlM_cons, hrow]
        exact ih ⟨short, hrest, hcut⟩ out'

/-- What parses has the last aggregate row as its aggregate. -/
theorem aggregate_of_parse {stats : Option (List CsvRow)} {rpc : LocustStats}
    (h : parseLocustStats numbers stats = .ok rpc) :
    rpc.aggregate = lastAggregated numbers (stats.getD []) := by
  rw [parseLocustStats] at h
  by_cases hcut : ∃ row ∈ stats.getD [], CutShort numbers row
  · obtain ⟨e, he⟩ := foldlM_of_cutShort hcut ⟨none, []⟩
    rw [he] at h
    cases h
  · have hcomplete : ∀ row ∈ stats.getD [], ¬ CutShort numbers row :=
      fun row hrow hshort => hcut ⟨row, hrow, hshort⟩
    obtain ⟨out, hout, haggregate⟩ := foldlM_parseRow hcomplete ⟨none, []⟩
    rw [hout] at h
    cases h
    rw [haggregate, Option.or_none]

/-- Where the run gets as far as the comparison, it finds no regression. -/
def NoRegression (run : LoadRun) (listing : Listing) (tree : Tree) : Prop :=
  ∀ tree' report prev, tree.makeDir run.milestone = .ok tree' → run.measured = .ok report →
    findPreviousMilestone run.milestone (listing.order tree') = .ok (some prev) →
      compareAgainstPrevious report.metrics prev run.config.higherIsBetter
        run.config.regressionThreshold = .ok []

/-- What exiting with zero stands for. -/
structure Passed (run : LoadRun) (listing : Listing) (tree : Tree) : Prop where
  read : ∃ agg, lastAggregated run.numbers (run.stats.getD []) = some agg ∧
    failureRatio agg ≤ run.config.maxFailureRatio
  noRegression : NoRegression run listing tree

/-- A run that exits with zero has passed. -/
def GateSound (run : LoadRun) (listing : Listing) (tree : Tree) : Prop :=
  exitAfter run listing tree = 0 → Passed run listing tree

/-- Exiting with zero, a gated run has written a valid report without
regressions. -/
theorem report_of_exitAfter {run : LoadRun} {listing : Listing} {tree : Tree}
    (hgate : run.failOnRegression = true) (h : exitAfter run listing tree = 0) :
    ∃ tree' report, tree.makeDir run.milestone = .ok tree' ∧
      mainLoad run listing tree' = .ok report ∧ report.loadTestValid = true ∧
      report.regressions = [] := by
  rw [exitAfter] at h
  cases hmake : tree.makeDir run.milestone with
  | error e =>
      rw [hmake] at h
      cases h
  | ok tree' =>
      rw [hmake] at h
      dsimp only at h
      cases hmain : mainLoad run listing tree' with
      | error e =>
          rw [hmain] at h
          cases h
      | ok report =>
          rw [hmain] at h
          dsimp only [LoadRun.exitStatus] at h
          refine ⟨tree', report, rfl, hmain, ?_, ?_⟩
          · by_contra hinvalid
            rw [if_pos ⟨hgate, Bool.eq_false_iff.mpr hinvalid⟩] at h
            cases h
          · by_contra hregressed
            split_ifs at h with hinvalid hreported
            · cases h
            · cases h
            · exact hreported ⟨hregressed, hgate⟩

/-- The comparison of a run that reports no regressions found none. -/
theorem noRegression_of_mainLoad {run : LoadRun} {listing : Listing} {tree tree' : Tree}
    {report : Report} (hmake : tree.makeDir run.milestone = .ok tree')
    (hmain : mainLoad run listing tree' = .ok report) (hnone : report.regressions = []) :
    NoRegression run listing tree := by
  intro tree'' measured prev hmake' hmeasured hprev
  cases hmake.symm.trans hmake'
  rw [mainLoad, hmeasured] at hmain
  simp only [bind, Except.bind, LoadRun.compared, hprev] at hmain
  cases hcompared : compareAgainstPrevious measured.metrics prev run.config.higherIsBetter
      run.config.regressionThreshold with
  | error e =>
      rw [hcompared] at hmain
      cases hmain
  | ok regressions =>
      rw [hcompared] at hmain
      cases hmain
      rw [← hnone]

/-- A report that gates an aggregate row as valid found its failure ratio
tolerable. -/
theorem failureRatio_le_of_valid {run : LoadRun} {report : Report} (h : Gated run report)
    (hvalid : report.loadTestValid = true) {agg : LocustEntry}
    (hagg : report.rpc.aggregate = some agg) : failureRatio agg ≤ run.config.maxFailureRatio := by
  obtain ⟨base, -, hmerged, -⟩ := h.merged
  by_contra hlt
  rw [mergeLocust_of_lt hagg (lt_of_not_ge hlt)] at hmerged
  rw [hmerged] at hvalid
  cases hvalid

/-- A gated run with these statistics, and nothing else to read. -/
def gatedRun (numbers : NumberText) (stats : Option (List CsvRow)) : LoadRun :=
  { bareRun "v1" "2026-01-01T00:00:00+00:00" stats with failOnRegression := true, numbers }

/-- Without a row that raises it exits with zero, if there is no aggregate row to
find fault with. -/
theorem exitAfter_gatedRun {stats : Option (List CsvRow)}
    (hcomplete : ∀ row ∈ stats.getD [], ¬ CutShort numbers row)
    (hunread : lastAggregated numbers (stats.getD []) = none) :
    exitAfter (gatedRun numbers stats) asListed [] = 0 := by
  obtain ⟨rpc, hparse, haggregate⟩ := foldlM_parseRow hcomplete ⟨none, []⟩
  rw [hunread] at haggregate
  have hbefore : (gatedRun numbers stats).beforeLocust = .ok ([], .null) := rfl
  obtain ⟨report, hreport⟩ := measured_isOk hbefore hparse
    (show parseProofSizes (gatedRun numbers stats).numbers (gatedRun numbers stats).proofRows =
      .ok [] from rfl)
  obtain ⟨hgated, hregressions⟩ := measured_spec hreport
  obtain ⟨base, -, hvalid, -⟩ := hgated.merged
  have hrpc : report.rpc.aggregate = none := by
    have hsame := hgated.parsed.symm.trans hparse
    rw [Except.ok.inj hsame]
    exact haggregate
  have hmerged : report.loadTestValid = true := by
    rw [hvalid, LoadRun.mergeLocust, hrpc]
  have hmake : Tree.makeDir [] (gatedRun numbers stats).milestone =
      .ok [⟨"v1", true, .absent⟩] := rfl
  have hmain : mainLoad (gatedRun numbers stats) asListed [⟨"v1", true, .absent⟩] =
      .ok report := by
    rw [mainLoad, hreport]
    rfl
  rw [exitAfter, hmake]
  dsimp only
  rw [hmain]
  simp [LoadRun.exitStatus, hmerged, hregressions]

/-- **The gate is sound over a file of Locust statistics, whatever else a run
reads, if and only if the file has an aggregate row that parses, or a row that
ends the run.** -/
theorem gateSound_iff (numbers : NumberText) (stats : Option (List CsvRow)) :
    (∀ run listing tree, run.numbers = numbers → run.stats = stats →
        run.failOnRegression = true → GateSound run listing tree) ↔
      (∃ row ∈ stats.getD [], ∃ agg, aggregatedEntry numbers row = some agg) ∨
        ∃ row ∈ stats.getD [], CutShort numbers row := by
  apply Iff.intro
  · intro h
    by_contra hneither
    rw [not_or] at hneither
    have hcomplete : ∀ row ∈ stats.getD [], ¬ CutShort numbers row :=
      fun row hrow hshort => hneither.2 ⟨row, hrow, hshort⟩
    have hunread : lastAggregated numbers (stats.getD []) = none := by
      rw [lastAggregated, List.getLast?_eq_none_iff, List.filterMap_eq_nil_iff]
      intro row hrow
      rw [Option.eq_none_iff_forall_ne_some]
      exact fun agg hagg => hneither.1 ⟨row, hrow, agg, hagg⟩
    have hpassed := h (gatedRun numbers stats) asListed [] rfl rfl rfl
      (exitAfter_gatedRun hcomplete hunread)
    obtain ⟨agg, hagg, -⟩ := hpassed.read
    cases hunread.symm.trans hagg
  · intro h run listing tree hnumbers hstats hgate hexit
    obtain ⟨tree', report, hmake, hmain, hvalid, hregressions⟩ := report_of_exitAfter hgate hexit
    have hgated := mainLoad_spec hmain
    have hparsed := hgated.parsed
    refine ⟨?_, noRegression_of_mainLoad hmake hmain hregressions⟩
    have haggregate := aggregate_of_parse hparsed
    rcases h with ⟨row, hrow, entry, hentry⟩ | hcut
    · rw [← hnumbers] at hentry
      rw [← hstats] at hrow
      have hmem : entry ∈ (run.stats.getD []).filterMap (aggregatedEntry run.numbers) :=
        List.mem_filterMap.mpr ⟨row, hrow, hentry⟩
      obtain ⟨agg, hagg⟩ := Option.isSome_iff_exists.mp (List.getLast?_isSome.mpr
        (List.ne_nil_of_mem hmem))
      exact ⟨agg, hagg, failureRatio_le_of_valid hgated hvalid (haggregate.trans hagg)⟩
    · rw [← hnumbers, ← hstats] at hcut
      obtain ⟨e, he⟩ := foldlM_of_cutShort hcut ⟨none, []⟩
      rw [parseLocustStats, he] at hparsed
      cases hparsed

/-- Without the file of the statistics a run passes that has measured nothing. -/
theorem missingStats_not_gateSound : ¬ GateSound (gatedRun ⟨fun _ => none, fun _ => none⟩ none)
    asListed [] := by
  intro h
  have hexit : exitAfter (gatedRun ⟨fun _ => none, fun _ => none⟩ none) asListed [] = 0 :=
    exitAfter_gatedRun nofun rfl
  obtain ⟨agg, hagg, -⟩ := (h hexit).read
  cases hagg

end StateBenchmarks.Metrics
