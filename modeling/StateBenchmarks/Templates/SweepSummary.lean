/-
# What a sweep reports of its entries

The summary of `run_snapshot_matrix.sh` has a line for every snapshot that was
skipped, and for every duration of one that was not.  The status of a run is read
off `benchmarks/<milestone>/metrics_<client>.json` once `run_benchmark.sh` is over,
however that ended.

Nothing removes the file before a run, so a run that writes none is reported by the
file of an earlier sweep.  And a block that bash takes for a bad octal number ends
the main loop where it is added one to: neither it nor the entries behind it get a
line.
-/

import StateBenchmarks.Templates.KeptSnapshots

namespace StateBenchmarks.Templates

open Python

namespace Knobs

variable (k : Knobs)

/-- What a snapshot is called where it is skipped. -/
def skippedName (e : Entry) : String := if isNumeric (block e) then block e else e.url

/-- What an entry's lines are to be about: its runs, or the snapshot if it is skipped. -/
def subjects (step : Serving) : List String :=
  if k.benchmarks step then k.durations.map (k.milestone step.entry)
  else [skippedName step.entry]

end Knobs

/-- The statuses of a run that is said to have measured something. -/
def Reports (status : String) : Prop := status = "OK" ∨ status = "PARTIAL:no-resource-metrics"

instance (status : String) : Decidable (Reports status) := inferInstanceAs (Decidable (_ ∨ _))

/-- The summary of a sweep has one line for each of its subjects, and reports only what the
sweep has written. -/
structure SummaryTrue (subjects : List String) (r : Report) : Prop where
  oneEach : r.sweep.summary.map Prod.fst = subjects
  measured : ∀ line ∈ r.sweep.summary, Reports line.2 →
    ∃ run ∈ r.runs, run.milestone = line.1 ∧ run.Wrote

/-- Where no run wrote, the file is the one from before. -/
theorem leftBy_of_not_wrote {prior : Benchmarks} {runs : List Run} {m : String}
    (h : ∀ r ∈ runs, r.milestone = m → ¬ r.Wrote) : leftBy prior runs m = prior m := by
  induction runs generalizing prior with
  | nil => rfl
  | cons r rest ih =>
      rw [List.forall_mem_cons] at h
      have hone : r.leaves prior m = prior m := by
        obtain ⟨milestone, rpcReady, wrote⟩ := r
        cases rpcReady with
        | false => rfl
        | true =>
            cases wrote with
            | none => rfl
            | some written =>
                apply Function.update_of_ne
                rintro rfl
                exact h.1 rfl ⟨rfl, by simp⟩
      exact (ih h.2).trans hone

theorem reports_runStatus_iff {o : RunOutcome} :
    Reports (Knobs.runStatus o) ↔ o.rpcReady = true ∧ o.metrics ≠ .missing := by
  obtain ⟨rpcReady, metrics⟩ := o
  cases rpcReady <;> cases metrics <;> simp [Reports, Knobs.runStatus]

namespace Knobs

variable {k : Knobs} {prior : Benchmarks} {past : List Run} {step : Serving}
  {lowerdir : Option String}

/-- A run, and the line it gets once some runs are over. -/
def lineAfter (prior : Benchmarks) (seen : List Run) (r : Run) : String × String :=
  (r.milestone, runStatus ⟨r.attempt.rpcReady, leftBy prior seen r.milestone⟩)

/-- The runs of an entry get a line each, by what is there after them. -/
theorem summary_of_benchmarks (h : k.benchmarks step = true) :
    (k.runOneSnapshot lowerdir step.entry (k.outcomeAfter prior past step)).summary =
      (k.runsOf step).mapIdx fun i r =>
        lineAfter prior (past ++ (k.runsOf step).take (i + 1)) r := by
  have hruns : k.runsOf step =
      k.durations.mapIdx fun i dur => ⟨k.milestone step.entry dur, step.attempts i⟩ := if_pos h
  rw [benchmarks, serves, Bool.and_eq_true, Bool.and_eq_true, Bool.and_eq_true] at h
  obtain ⟨⟨⟨hblock, hacquire⟩, hpayloads⟩, -⟩ := h
  have hacquire : k.acquireFailure (k.outcomeAfter prior past step) = none :=
    Option.isNone_iff_eq_none.mp hacquire
  have hpayloads : payloadsFailure (k.outcomeAfter prior past step) = none :=
    Option.isNone_iff_eq_none.mp hpayloads
  rw [runOneSnapshot, if_neg (by simp [hblock]), hacquire]
  dsimp only
  rw [hpayloads]
  apply List.ext_getElem?
  intro i
  rw [List.getElem?_mapIdx, List.getElem?_mapIdx]
  conv_rhs => rw [hruns, List.getElem?_mapIdx, ← hruns]
  cases hdur : k.durations[i]? with
  | none => rfl
  | some dur =>
      simp [lineAfter, outcomeAfter, milestone, hdur]

theorem not_reports_acquireFailure {o : Outcome} {status : String}
    (h : k.acquireFailure o = some status) : ¬ Reports status := by
  rw [acquireFailure] at h
  split_ifs at h
  split at h
  · cases h
    decide
  · split_ifs at h
    cases h
    decide

theorem not_reports_payloadsFailure {o : Outcome} {status : String}
    (h : payloadsFailure o = some status) : ¬ Reports status := by
  rw [payloadsFailure] at h
  split_ifs at h
  · cases h
    decide
  · cases h
    decide

/-- A snapshot that is skipped gets one line, which reports no measurement. -/
theorem summary_of_skipped {o : Outcome}
    (h : (k.serves (step.entry, o) && (payloadsFailure o).isNone) = false) :
    ∃ status, ¬ Reports status ∧ (k.runOneSnapshot lowerdir step.entry o).summary =
      [(skippedName step.entry, status)] := by
  rw [runOneSnapshot, skippedName]
  rw [serves] at h
  generalize block step.entry = name at h ⊢
  cases hblock : isNumeric name with
  | false =>
      rw [if_pos rfl]
      exact ⟨"SKIP:bad-url", by decide, rfl⟩
  | true =>
      rw [if_neg (by simp)]
      cases hfailure : k.acquireFailure o with
      | some status => exact ⟨status, not_reports_acquireFailure hfailure, rfl⟩
      | none =>
          cases hpayloads : payloadsFailure o with
          | some status => exact ⟨status, not_reports_payloadsFailure hpayloads, rfl⟩
          | none =>
              rw [hblock, hfailure, hpayloads] at h
              cases h

/-- What an entry adds to the summary, after the runs before it. -/
def LinesAfter (k : Knobs) (prior : Benchmarks) (past : List Run) (step : Serving)
    (lines : List (String × String)) : Prop :=
  k.benchmarks step = true ∧
      lines = (k.runsOf step).mapIdx (fun i r =>
        lineAfter prior (past ++ (k.runsOf step).take (i + 1)) r) ∨
    k.benchmarks step = false ∧ ∃ status, ¬ Reports status ∧
      lines = [(skippedName step.entry, status)]

theorem linesAfter_runOneSnapshot (hstops : k.stops step = false) :
    k.LinesAfter prior past step
      (k.runOneSnapshot lowerdir step.entry (k.outcomeAfter prior past step)).summary := by
  cases hbench : k.benchmarks step with
  | true => exact Or.inl ⟨hbench, summary_of_benchmarks hbench⟩
  | false =>
      have hskipped : (k.serves (step.entry, k.outcomeAfter prior past step) &&
          (payloadsFailure (k.outcomeAfter prior past step)).isNone) = false := by
        rw [benchmarks, hstops, Bool.not_false, Bool.and_true] at hbench
        exact hbench
      exact Or.inr ⟨hbench, summary_of_skipped hskipped⟩

/-- The lines of an entry are about what they are to be about. -/
theorem LinesAfter.map_fst {lines : List (String × String)}
    (h : k.LinesAfter prior past step lines) : lines.map Prod.fst = k.subjects step := by
  rcases h with ⟨hbench, hlines⟩ | ⟨hbench, status, -, hlines⟩
  · rw [hlines, runsOf, if_pos hbench, subjects, if_pos hbench]
    apply List.ext_getElem?
    intro i
    simp [lineAfter, Function.comp_def]
  · have hsubjects : k.subjects step = [skippedName step.entry] := if_neg (by simp [hbench])
    rw [hlines, hsubjects, List.map_singleton]

/-- What an iteration does to the summary and the runs. -/
theorem serveNext_cases (prior : Benchmarks) (r : Report) (step : Serving) :
    ((r.ended = true ∨ k.stops step = true) ∧ (k.serveNext prior r step).ended = true ∧
        (k.serveNext prior r step).runs = r.runs ∧
        (k.serveNext prior r step).sweep.summary = r.sweep.summary) ∨
      (r.ended = false ∧ k.stops step = false) ∧ (k.serveNext prior r step).ended = false ∧
        (k.serveNext prior r step).runs = r.runs ++ k.runsOf step ∧
        ∃ lines, k.LinesAfter prior r.runs step lines ∧
          (k.serveNext prior r step).sweep.summary = r.sweep.summary ++ lines := by
  rw [serveNext]
  split_ifs with hended hstops
  · exact Or.inl ⟨Or.inl hended, hended, rfl, rfl⟩
  · exact Or.inl ⟨Or.inr hstops, rfl, rfl, rfl⟩
  · rw [Bool.not_eq_true] at hended hstops
    have hlines : k.LinesAfter prior r.runs step (k.runOneSnapshot r.sweep.lowerdir step.entry
        (k.outcomeAfter prior r.runs step)).summary := linesAfter_runOneSnapshot hstops
    exact Or.inr ⟨⟨hended, hstops⟩, rfl, rfl, _, hlines, rfl⟩

variable {steps : List Serving} {r : Report}

theorem report_concat : k.report prior lowerdir (steps ++ [step]) =
    k.serveNext prior (k.report prior lowerdir steps) step := by
  rw [report, List.foldl_append]
  rfl

/-- The lines that report something and the runs answer to each other: each is a run's line
after some of the runs. -/
structure Accounts (prior : Benchmarks) (r : Report) : Prop where
  reported : ∀ line ∈ r.sweep.summary, Reports line.2 →
    ∃ run ∈ r.runs, ∃ seen ⊆ r.runs, line = lineAfter prior seen run
  listed : ∀ run ∈ r.runs, ∃ seen ⊆ r.runs, lineAfter prior seen run ∈ r.sweep.summary

/-- One more entry's lines and runs answer to each other. -/
theorem Accounts.append (h : Accounts prior r) {lines : List (String × String)}
    (hlines : k.LinesAfter prior r.runs step lines) {r' : Report}
    (hruns : r'.runs = r.runs ++ k.runsOf step)
    (hsummary : r'.sweep.summary = r.sweep.summary ++ lines) : Accounts prior r' := by
  have hold : r.runs ⊆ r'.runs := by
    rw [hruns]
    exact List.subset_append_left _ _
  have hseen : ∀ i, r.runs ++ (k.runsOf step).take (i + 1) ⊆ r'.runs := by
    intro i
    rw [hruns]
    exact List.append_subset.mpr ⟨List.subset_append_left _ _, fun run hrun =>
      List.mem_append_right _ (List.mem_of_mem_take hrun)⟩
  refine ⟨fun line hline hreports => ?_, fun run hrun => ?_⟩
  · rw [hsummary] at hline
    rcases List.mem_append.mp hline with hline | hline
    · obtain ⟨run, hrun, seen, hsub, hlast⟩ := h.reported line hline hreports
      exact ⟨run, hold hrun, seen, List.Subset.trans hsub hold, hlast⟩
    · rcases hlines with ⟨-, hlines⟩ | ⟨-, status, hstatus, hlines⟩
      · rw [hlines] at hline
        obtain ⟨i, hi, rfl⟩ := List.mem_mapIdx.mp hline
        refine ⟨(k.runsOf step)[i], ?_, _, hseen i, rfl⟩
        rw [hruns]
        exact List.mem_append_right _ (List.getElem_mem hi)
      · rw [hlines, List.mem_singleton] at hline
        rw [hline] at hreports
        exact absurd hreports hstatus
  · rw [hruns] at hrun
    rw [hsummary]
    rcases List.mem_append.mp hrun with hrun | hrun
    · obtain ⟨seen, hsub, hmem⟩ := h.listed run hrun
      exact ⟨seen, List.Subset.trans hsub hold, List.mem_append_left _ hmem⟩
    · rcases hlines with ⟨-, hlines⟩ | ⟨hbench, -⟩
      · obtain ⟨i, hi, rfl⟩ := List.getElem_of_mem hrun
        refine ⟨_, hseen i, List.mem_append_right _ ?_⟩
        rw [hlines]
        exact List.mem_mapIdx.mpr ⟨i, hi, rfl⟩
      · rw [runsOf, if_neg (by simp [hbench])] at hrun
        cases hrun

theorem accounts_report (k : Knobs) (prior : Benchmarks) (lowerdir : Option String)
    (steps : List Serving) : Accounts prior (k.report prior lowerdir steps) := by
  induction steps using List.reverseRecOn with
  | nil => exact ⟨List.forall_mem_nil _, List.forall_mem_nil _⟩
  | append_singleton steps step ih =>
      rw [report_concat]
      rcases serveNext_cases (k := k) prior (k.report prior lowerdir steps) step with
        ⟨-, -, hruns, hsummary⟩ | ⟨-, -, hruns, lines, hlines, hsummary⟩
      · refine ⟨fun line hline => ?_, fun run hrun => ?_⟩
        · rw [hsummary] at hline
          rw [hruns]
          exact ih.reported line hline
        · rw [hruns] at hrun ⊢
          rw [hsummary]
          exact ih.listed run hrun
      · exact ih.append hlines hruns hsummary

variable (prior lowerdir) in
/-- While no block ends the main loop, every entry is served. -/
theorem report_of_not_stops (h : ∀ step ∈ steps, k.stops step = false) :
    (k.report prior lowerdir steps).ended = false ∧
      (k.report prior lowerdir steps).runs = steps.flatMap k.runsOf ∧
      (k.report prior lowerdir steps).sweep.summary.map Prod.fst = steps.flatMap k.subjects := by
  induction steps using List.reverseRecOn with
  | nil => exact ⟨rfl, rfl, rfl⟩
  | append_singleton steps step ih =>
      rw [List.forall_mem_append, List.forall_mem_singleton] at h
      obtain ⟨hended, hruns, hnames⟩ := ih h.1
      rw [report_concat, List.flatMap_append, List.flatMap_append, List.flatMap_singleton,
        List.flatMap_singleton]
      rcases serveNext_cases (k := k) prior (k.report prior lowerdir steps) step with
        ⟨hbad, -⟩ | ⟨-, hnext, hruns', lines, hlines, hsummary⟩
      · rcases hbad with hbad | hbad
        · rw [hended] at hbad
          cases hbad
        · rw [h.2] at hbad
          cases hbad
      · rw [hnext, hruns', hsummary, List.map_append, hruns, hnames, hlines.map_fst]
        exact ⟨rfl, rfl, rfl⟩

variable (prior lowerdir) in
/-- An entry that ends the main loop has no line. -/
theorem length_summary_of_stops (hstep : step ∈ steps) (hstops : k.stops step = true) :
    (k.report prior lowerdir steps).sweep.summary.length < (steps.flatMap k.subjects).length := by
  obtain ⟨first, hfirst⟩ : ∃ first, steps.find? k.stops = some first := by
    rw [← Option.isSome_iff_exists, List.find?_isSome]
    exact ⟨step, hstep, hstops⟩
  obtain ⟨hends, before, after, rfl, hbefore⟩ := List.find?_eq_some_iff_append.mp hfirst
  have hserved : (k.report prior lowerdir before).sweep.summary.map Prod.fst =
      before.flatMap k.subjects :=
    (report_of_not_stops prior lowerdir fun step hmem => by simpa using hbefore step hmem).2.2
  have hreport : (k.report prior lowerdir (before ++ first :: after)).sweep.summary =
      (k.report prior lowerdir before).sweep.summary := by
    rcases serveNext_cases (k := k) prior (k.report prior lowerdir before) first with
      ⟨-, hended, -, hsummary⟩ | ⟨⟨-, hnot⟩, -⟩
    · rw [report, List.foldl_append, List.foldl_cons]
      exact (congrArg (·.sweep.summary) (foldl_serveNext_of_ended hended)).trans hsummary
    · rw [hends] at hnot
      cases hnot
  have hsubjects : 0 < (k.subjects first).length := by
    have hbench : ¬ k.benchmarks first = true := by
      rw [benchmarks, hends, Bool.not_true, Bool.and_false]
      exact Bool.false_ne_true
    rw [subjects, if_neg hbench]
    exact Nat.one_pos
  have hlength := congrArg List.length hserved
  rw [List.length_map] at hlength
  rw [hreport, hlength, List.flatMap_append, List.flatMap_cons, List.length_append,
    List.length_append]
  omega

/-- Over the entries the summary is true exactly if no block ends the main loop and every run
whose node came up found no metrics from before for its milestone, or the sweep writes
some. -/
theorem summaryTrue_report_iff (k : Knobs) (prior : Benchmarks) (lowerdir : Option String)
    (steps : List Serving) :
    SummaryTrue (steps.flatMap k.subjects) (k.report prior lowerdir steps) ↔
      (∀ step ∈ steps, k.stops step = false) ∧
        ∀ run ∈ steps.flatMap k.runsOf, run.attempt.rpcReady = true →
          prior run.milestone = .missing ∨
            ∃ other ∈ steps.flatMap k.runsOf, other.milestone = run.milestone ∧ other.Wrote := by
  have haccounts := accounts_report k prior lowerdir steps
  apply Iff.intro
  · intro h
    have hserved : ∀ step ∈ steps, k.stops step = false := by
      intro step hstep
      rw [← Bool.not_eq_true]
      intro hstops
      have hlt := length_summary_of_stops prior lowerdir hstep hstops
      have hlength := congrArg List.length h.oneEach
      rw [List.length_map] at hlength
      omega
    refine ⟨hserved, ?_⟩
    rw [← (report_of_not_stops prior lowerdir hserved).2.1]
    intro run hrun hready
    by_contra hneither
    rw [not_or] at hneither
    obtain ⟨seen, hseen, hline⟩ := haccounts.listed run hrun
    have hprior : leftBy prior seen run.milestone = prior run.milestone :=
      leftBy_of_not_wrote fun r hr hsame hwrote => hneither.2 ⟨r, hseen hr, hsame, hwrote⟩
    have hreports : Reports (lineAfter prior seen run).2 := by
      rw [lineAfter, reports_runStatus_iff, hprior]
      exact ⟨hready, hneither.1⟩
    exact hneither.2 (h.measured _ hline hreports)
  · rintro ⟨hserved, hfresh⟩
    obtain ⟨-, hruns, hnames⟩ := report_of_not_stops prior lowerdir hserved
    rw [← hruns] at hfresh
    refine ⟨hnames, fun line hline hreports => ?_⟩
    obtain ⟨run, hrun, seen, hseen, rfl⟩ := haccounts.reported line hline hreports
    rw [lineAfter, reports_runStatus_iff] at hreports
    obtain ⟨hready, hfile⟩ := hreports
    by_contra hneither
    have hprior : leftBy prior seen run.milestone = prior run.milestone :=
      leftBy_of_not_wrote fun r hr hsame hwrote => hneither ⟨r, hseen hr, hsame, hwrote⟩
    rcases hfresh run hrun hready with hmissing | hwritten
    · exact hfile (hprior.trans hmissing)
    · exact hneither hwritten

end Knobs

/-- The node comes up, and `run_benchmark.sh` fails before it writes anything. -/
def failedServing : Serving where
  entry := block24358000
  outcome := allWell
  headKnown := true
  attempts _ := ⟨true, none⟩

theorem stops_failedServing : ∀ step ∈ [failedServing], keepingKnobs.stops step = false := by
  rw [List.forall_mem_singleton, Knobs.stops]
  exact Bool.and_false _

theorem runsOf_failedServing : keepingKnobs.runsOf failedServing =
    [⟨"neth-x35-24358000-5m", ⟨true, none⟩⟩, ⟨"neth-x35-24358000-60m", ⟨true, none⟩⟩] := by
  have hblock : Knobs.block failedServing.entry = "24358000" := block_block24358000
  have hbench : keepingKnobs.benchmarks failedServing = true := by
    rw [Knobs.benchmarks, Knobs.serves, hblock, stops_failedServing _ (List.mem_singleton_self _)]
    decide
  have hlabel : keepingKnobs.label "24358000" = "neth-x35-24358000" := by decide
  rw [Knobs.runsOf, if_pos hbench]
  simp only [Knobs.milestone, hblock, hlabel]
  rfl

end StateBenchmarks.Templates
