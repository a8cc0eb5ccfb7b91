/-
# What a sweep reports of its manifest

The main loop of `run_snapshot_matrix.sh` goes through its manifest line by line.  A line is
cut at its first `#`, passed through `xargs` to trim it, and what comes back is split into
the URL and the payload file.

A line that comes back empty is passed over without a word.  Blank lines and comments are
meant, but `xargs` returns nothing either where the first word has a quote that is not
closed, and `echo` nothing for words that are options to it.  Such a line lists a snapshot
that gets no line in the summary.

On top of this a status is read off the metrics file that is there after a run, whoever
wrote it, and a block that bash takes for a bad octal number ends the main loop.
-/

import StateBenchmarks.Shell.Xargs
import StateBenchmarks.Templates.SweepSummary

namespace StateBenchmarks.Templates

open Shell

/-- What `$(..)` takes off the end of an output. -/
def dropNewlines (text : Text) : Text := (text.reverse.dropWhile (· == '\n')).reverse

/-- The programs the main loop hands words to: `/bin/echo`, of which only the options are its
own, and the expansion of patterns in the working directory. -/
structure Tools where
  /-- What is printed for some words, without the newlines at its end. -/
  echo : List Text → Text
  expand : Text → List Text
  echo_words : ∀ words : List Text, (∀ word ∈ words.head?, word.head? ≠ some '-') →
    echo words = dropNewlines ([' '].intercalate words)
  expand_literal : ∀ word : Text, (∀ c ∈ word, c ∉ ['*', '?', '[', '\\']) → expand word = [word]

/-- A working directory that no pattern matches in, and words that are no options. -/
def plainTools : Tools where
  echo words := dropNewlines ([' '].intercalate words)
  expand word := [word]
  echo_words _ _ := rfl
  expand_literal _ _ := rfl

/-- `${rawline%%#*}`. -/
def cutComment (raw : Text) : Text := raw.takeWhile (· != '#')

/-- The whole text is an option to `echo`. -/
def isEchoOption (text : Text) : Bool :=
  match text with
  | '-' :: letters => letters != [] && letters.all fun c => c == 'n' || c == 'e' || c == 'E'
  | _ => false

/-- What the main loop makes of a line of the manifest. -/
inductive Reading where
  /-- There is nothing on the line. -/
  | passed
  /-- There is something, but no word; `set -u` ends the script at the first parameter. -/
  | unset
  | entry (url payloads : Text)
  deriving DecidableEq

namespace Tools

variable (tools : Tools)

/-- `echo "$line" | xargs`. -/
def trimmed (line : Text) : Text :=
  tools.echo (if isEchoOption line then [] else xargsWords line)

/-- The parameters `set --` makes of a line. -/
def parameters (line : Text) : List Text := (fields line).flatMap tools.expand

/-- One line of the manifest. -/
def readLine (raw : Text) : Reading :=
  let line := tools.trimmed (cutComment raw)
  if line = [] then .passed
  else
    match tools.parameters line with
    | [] => .unset
    | url :: more => .entry url (more.headD [])

/-- The entry on a line, if it is read as one. -/
def serving (line : Text × Answers) : Option Serving :=
  match tools.readLine line.1 with
  | .entry url _ => some ⟨line.2, ⟨String.ofList url⟩⟩
  | _ => none

end Tools

example : plainTools.readLine " url/1/s  'my file' # x".toList =
    .entry "url/1/s".toList "my".toList := by decide

example : plainTools.readLine "url/1/it's payloads".toList = .passed := by decide

/-- The lines of a manifest, with what the machine answers for the entries on them. -/
def manifestLines (manifest : Text) (answers : ℕ → Answers) : List (Text × Answers) :=
  (lines manifest).mapIdx fun i raw => (raw, answers i)

/-- The line lists a snapshot: there is more than white space in front of its first `#`. -/
def Lists (raw : Text) : Prop := ∃ c ∈ cutComment raw, isSpace c = false

instance (raw : Text) : Decidable (Lists raw) := inferInstanceAs (Decidable (∃ c ∈ _, _))

/-- The line is read as an entry. -/
def Tools.Reads (tools : Tools) (raw : Text) : Prop :=
  ∃ url payloads, tools.readLine raw = .entry url payloads

/-- The entries of a manifest. -/
def Tools.entries (tools : Tools) (manifest : Text) (answers : ℕ → Answers) : List Serving :=
  (manifestLines manifest answers).filterMap tools.serving

namespace Knobs

variable (k : Knobs) (tools : Tools)

/-- One line of the main loop.  Where the script ends it has not printed the summary. -/
def serveLine (prior : Benchmarks) (r : Report) (line : Text × Answers) : Report :=
  match tools.readLine line.1 with
  | .passed => r
  | .unset =>
      if r.ended then r else { r with sweep := { r.sweep with summary := [] }, ended := true }
  | .entry url _ => k.serveNext prior r ⟨line.2, ⟨String.ofList url⟩⟩

/-- The sweep over a manifest. -/
def sweepManifest (prior : Benchmarks) (lowerdir : Option String) (manifest : Text)
    (answers : ℕ → Answers) : Report :=
  (manifestLines manifest answers).foldl (k.serveLine tools prior) ⟨⟨lowerdir, [], []⟩, [], false⟩

/-- What the summary is to have for a line of the manifest: what the entry on it needs, and
where it is not read as one, a line of its own. -/
def lineSubjects (line : Text × Answers) : List String :=
  if Lists line.1 then
    (tools.serving line).elim [String.ofList (cutComment line.1)] k.subjects
  else []

/-- What the summary is to have for a manifest. -/
def manifestSubjects (manifest : Text) (answers : ℕ → Answers) : List String :=
  (manifestLines manifest answers).flatMap (k.lineSubjects tools)

end Knobs

variable {k : Knobs} {tools : Tools} {prior : Benchmarks} {lowerdir : Option String} {raw : Text}

theorem dropNewlines_of_not_mem {text : Text} (h : '\n' ∉ text) : dropNewlines text = text := by
  rw [dropNewlines, List.reverse_eq_iff, List.dropWhile_eq_self_iff]
  intro hlength hnewline
  apply h
  rw [← List.mem_reverse, ← beq_iff_eq.mp hnewline]
  exact List.getElem_mem hlength

theorem trimmed_of_words {line : Text} (h : line.head? ≠ some '-')
    (hfirst : ∀ word ∈ (xargsWords line).head?, word.head? ≠ some '-') :
    tools.trimmed line = dropNewlines ([' '].intercalate (xargsWords line)) := by
  have hoption : ¬ isEchoOption line = true := by
    rw [isEchoOption.eq_def]
    split
    · exact absurd rfl h
    · exact Bool.false_ne_true
  rw [Tools.trimmed, if_neg hoption, tools.echo_words _ hfirst]

/-- Where only white space is in front of the comment, the line is passed over. -/
theorem readLine_of_not_lists (h : ¬ Lists raw) : tools.readLine raw = .passed := by
  have hspace : ∀ c ∈ cutComment raw, isSpace c = true := by
    intro c hc
    by_contra hother
    exact h ⟨c, hc, by simpa using hother⟩
  have hdash : (cutComment raw).head? ≠ some '-' := by
    intro hdash
    exact absurd (hspace '-' (List.mem_of_head? hdash)) (by decide)
  have hwords : xargsWords (cutComment raw) = [] := xargsWords_of_space hspace
  have htrimmed : tools.trimmed (cutComment raw) = [] := by
    rw [trimmed_of_words hdash (by simp [hwords]), hwords]
    rfl
  rw [Tools.readLine, htrimmed]
  rfl

/-- A line `xargs` and the shell find no more in than words. -/
structure IsPlainLine (line : Text) : Prop where
  chars : ∀ c ∈ line, IsPlainChar c ∧ c ∉ ['*', '?', '[', '\\']
  start : line.head? ≠ some '-'
  first : ∀ word ∈ (fields line).head?, word.head? ≠ some '-'

/-- On a plain line the URL is the first word, and the payload file the second if there is
one. -/
theorem readLine_of_plain (h : IsPlainLine (cutComment raw)) (hlists : Lists raw) :
    ∃ url more, fields (cutComment raw) = url :: more ∧
      tools.readLine raw = .entry url (more.headD []) := by
  obtain ⟨c, hc, hother⟩ := hlists
  have hne : fields (cutComment raw) ≠ [] := by
    apply fields_ne_nil hc
    rw [← Bool.not_eq_true]
    intro hspace
    rw [isSpace, hspace] at hother
    cases hother
  obtain ⟨url, more, hfields⟩ := List.exists_cons_of_ne_nil hne
  have hwords := xargsWords_of_plain fun c hc => (h.chars c hc).1
  have hshape : ∀ word ∈ fields (cutComment raw),
      word ≠ [] ∧ ∀ c ∈ word, isFieldSpace c = false := fun word hword => of_mem_fields hword
  have hnewline : '\n' ∉ [' '].intercalate (fields (cutComment raw)) :=
    newline_not_mem_intercalate fun word hword => (hshape word hword).2
  have htrimmed : tools.trimmed (cutComment raw) =
      [' '].intercalate (fields (cutComment raw)) := by
    rw [trimmed_of_words h.start (by rw [hwords]; exact h.first), hwords,
      dropNewlines_of_not_mem hnewline]
  have hexpand : ∀ word ∈ fields (cutComment raw), tools.expand word = [word] :=
    fun word hword => tools.expand_literal word fun c hc =>
      (h.chars c (mem_of_mem_fields hword c hc)).2
  have hparameters : tools.parameters (tools.trimmed (cutComment raw)) = url :: more := by
    rw [Tools.parameters, htrimmed, fields_intercalate hshape, List.flatMap_congr hexpand,
      List.flatMap_singleton', hfields]
  have hsome : tools.trimmed (cutComment raw) ≠ [] := by
    intro hnil
    rw [hnil] at hparameters
    cases hparameters
  refine ⟨url, more, hfields, ?_⟩
  rw [Tools.readLine, if_neg hsome, hparameters]

variable {line : Text × Answers} {given : List (Text × Answers)}

theorem serving_of_not_lists (h : ¬ Lists line.1) : tools.serving line = none := by
  rw [Tools.serving, readLine_of_not_lists h]

theorem serving_isSome_iff : (tools.serving line).isSome = true ↔ tools.Reads line.1 := by
  rw [Tools.serving, Tools.Reads]
  cases tools.readLine line.1 <;> simp

namespace Knobs

/-- A line that is read, or lists nothing, does what the entry on it does. -/
theorem serveLine_eq (h : Lists line.1 → tools.Reads line.1) (r : Report) :
    k.serveLine tools prior r line = (tools.serving line).elim r (k.serveNext prior r) := by
  rw [serveLine, Tools.serving]
  by_cases hlists : Lists line.1
  · obtain ⟨url, payloads, hread⟩ := h hlists
    rw [hread]
    rfl
  · rw [readLine_of_not_lists hlists]
    rfl

/-- Where every line that lists a snapshot is read, the main loop serves the entries. -/
theorem foldl_serveLine (h : ∀ line ∈ given, Lists line.1 → tools.Reads line.1) (r : Report) :
    given.foldl (k.serveLine tools prior) r =
      (given.filterMap tools.serving).foldl (k.serveNext prior) r := by
  induction given generalizing r with
  | nil => rfl
  | cons line rest ih =>
      rw [List.forall_mem_cons] at h
      rw [List.foldl_cons, serveLine_eq h.1, List.filterMap_cons, ih h.2]
      cases tools.serving line <;> rfl

/-- Then the summary is to have what the entries need. -/
theorem flatMap_lineSubjects (h : ∀ line ∈ given, Lists line.1 → tools.Reads line.1) :
    given.flatMap (k.lineSubjects tools) = (given.filterMap tools.serving).flatMap k.subjects := by
  induction given with
  | nil => rfl
  | cons line rest ih =>
      rw [List.forall_mem_cons] at h
      rw [List.flatMap_cons, ih h.2, List.filterMap_cons, lineSubjects]
      by_cases hlists : Lists line.1
      · obtain ⟨serving, hserving⟩ :=
          Option.isSome_iff_exists.mp (serving_isSome_iff.mpr (h.1 hlists))
        rw [if_pos hlists, hserving, Option.elim_some, List.flatMap_cons]
      · rw [if_neg hlists, serving_of_not_lists hlists, List.nil_append]

/-- Whatever the lines are like, the summary has lines for entries only. -/
theorem length_summary_le (r : Report) :
    (given.foldl (k.serveLine tools prior) r).sweep.summary.length ≤
      r.sweep.summary.length + ((given.filterMap tools.serving).flatMap k.subjects).length := by
  induction given generalizing r with
  | nil => exact Nat.le_refl _
  | cons line rest ih =>
      refine (ih _).trans ?_
      rw [List.filterMap_cons, serveLine, Tools.serving]
      cases tools.readLine line.1 with
      | passed => exact Nat.le_refl _
      | unset =>
          dsimp only
          split_ifs
          · exact Nat.le_refl _
          · exact Nat.add_le_add_right (Nat.zero_le _) _
      | entry url payloads =>
          dsimp only
          generalize (⟨line.2, ⟨String.ofList url⟩⟩ : Serving) = step
          rw [List.flatMap_cons, List.length_append, ← Nat.add_assoc]
          apply Nat.add_le_add_right
          rcases serveNext_cases (k := k) prior r step with
            ⟨-, -, -, hsummary⟩ | ⟨-, -, -, more, hmore, hsummary⟩
          · rw [hsummary]
            exact Nat.le_add_right _ _
          · rw [hsummary, List.length_append, ← hmore.map_fst, List.length_map]

/-- A line is to have the lines of its entry, and one more where it is not read. -/
theorem length_lineSubjects (line : Text × Answers) :
    ((tools.serving line).elim [] k.subjects).length ≤ (k.lineSubjects tools line).length ∧
      (Lists line.1 → ¬ tools.Reads line.1 →
        ((tools.serving line).elim [] k.subjects).length < (k.lineSubjects tools line).length) := by
  rw [lineSubjects, ← serving_isSome_iff]
  by_cases hlists : Lists line.1
  · rw [if_pos hlists]
    cases tools.serving line with
    | none => exact ⟨Nat.zero_le _, fun _ _ => Nat.one_pos⟩
    | some step => exact ⟨Nat.le_refl _, fun _ hnot => absurd rfl hnot⟩
  · rw [if_neg hlists, serving_of_not_lists hlists]
    exact ⟨Nat.le_refl _, fun h => absurd h hlists⟩

theorem length_subjects_cons :
    (((line :: given).filterMap tools.serving).flatMap k.subjects).length =
      ((tools.serving line).elim [] k.subjects).length +
        ((given.filterMap tools.serving).flatMap k.subjects).length := by
  rw [List.filterMap_cons]
  cases tools.serving line with
  | none => exact (Nat.zero_add _).symm
  | some step => rw [List.flatMap_cons, List.length_append, Option.elim_some]

theorem length_subjects_le :
    ((given.filterMap tools.serving).flatMap k.subjects).length ≤
      (given.flatMap (k.lineSubjects tools)).length := by
  induction given with
  | nil => exact Nat.le_refl _
  | cons line rest ih =>
      rw [length_subjects_cons, List.flatMap_cons, List.length_append]
      exact Nat.add_le_add (length_lineSubjects line).1 ih

/-- A line that lists a snapshot and is not read is missing from the entries. -/
theorem length_subjects_lt (hmem : line ∈ given) (hlists : Lists line.1)
    (hread : ¬ tools.Reads line.1) :
    ((given.filterMap tools.serving).flatMap k.subjects).length <
      (given.flatMap (k.lineSubjects tools)).length := by
  induction given with
  | nil => cases hmem
  | cons first rest ih =>
      rw [length_subjects_cons, List.flatMap_cons, List.length_append]
      rcases List.mem_cons.mp hmem with rfl | hmem
      · exact Nat.add_lt_add_of_lt_of_le ((length_lineSubjects line).2 hlists hread)
          length_subjects_le
      · exact Nat.add_lt_add_of_le_of_lt (length_lineSubjects first).1 (ih hmem)

/-- **The summary has one line for every skipped snapshot and every run of the manifest, and
reports only what the sweep has written, exactly if every line that lists a snapshot is read
as an entry, no block ends the main loop, and every run whose node came up found no metrics
from before for its milestone, or the sweep writes some.** -/
theorem summaryTrue_iff (k : Knobs) (tools : Tools) (prior : Benchmarks)
    (lowerdir : Option String) (manifest : Text) (answers : ℕ → Answers) :
    SummaryTrue (k.manifestSubjects tools manifest answers)
        (k.sweepManifest tools prior lowerdir manifest answers) ↔
      (∀ raw ∈ lines manifest, Lists raw → tools.Reads raw) ∧
        (∀ step ∈ tools.entries manifest answers, k.stops step = false) ∧
        ∀ run ∈ (tools.entries manifest answers).flatMap k.runsOf,
          run.attempt.rpcReady = true →
            prior run.milestone = .missing ∨
              ∃ other ∈ (tools.entries manifest answers).flatMap k.runsOf,
                other.milestone = run.milestone ∧ other.Wrote := by
  have hlines : (∀ line ∈ manifestLines manifest answers, Lists line.1 → tools.Reads line.1) ↔
      ∀ raw ∈ lines manifest, Lists raw → tools.Reads raw := by
    rw [manifestLines]
    apply Iff.intro
    · intro h raw hraw
      obtain ⟨i, hi, rfl⟩ := List.getElem_of_mem hraw
      exact h _ (List.mem_mapIdx.mpr ⟨i, hi, rfl⟩)
    · intro h line hline
      obtain ⟨i, hi, rfl⟩ := List.mem_mapIdx.mp hline
      exact h _ (List.getElem_mem hi)
  rw [← hlines]
  by_cases hread : ∀ line ∈ manifestLines manifest answers, Lists line.1 → tools.Reads line.1
  · rw [and_iff_right hread, sweepManifest, manifestSubjects, foldl_serveLine hread,
      flatMap_lineSubjects hread]
    exact summaryTrue_report_iff k prior lowerdir (tools.entries manifest answers)
  · refine iff_of_false (fun h => hread fun line hline hlists => ?_) fun h => hread h.1
    by_contra hnot
    have hlt : _ < (k.manifestSubjects tools manifest answers).length :=
      length_subjects_lt hline hlists hnot
    have hle : (k.sweepManifest tools prior lowerdir manifest answers).sweep.summary.length ≤ _ :=
      length_summary_le _
    have hlength := congrArg List.length h.oneEach
    rw [List.length_map] at hlength
    rw [hlength] at hle
    exact absurd (hlt.trans_le hle) (by simp)

end Knobs

/-- The manifest that lists one snapshot. -/
def failedManifest : Text := block24358000.url.toList ++ ['\n']

theorem lines_failedManifest : lines failedManifest = [block24358000.url.toList, []] := by
  decide +kernel

theorem readLine_failedManifest : plainTools.readLine block24358000.url.toList =
    .entry block24358000.url.toList [] := by
  decide +kernel

theorem entries_failedManifest :
    plainTools.entries failedManifest (fun _ => failedServing.toAnswers) = [failedServing] := by
  have hserving : plainTools.serving (block24358000.url.toList, failedServing.toAnswers) =
      some failedServing := by
    rw [Tools.serving, readLine_failedManifest]
    dsimp only
    rw [String.ofList_toList]
    rfl
  have hnone : plainTools.serving ([], failedServing.toAnswers) = none := rfl
  rw [Tools.entries, manifestLines, lines_failedManifest]
  simp [hserving, hnone]

theorem reads_failedManifest :
    ∀ line ∈ manifestLines failedManifest (fun _ => failedServing.toAnswers),
      Lists line.1 → plainTools.Reads line.1 := by
  rw [manifestLines, lines_failedManifest]
  intro line hline hlists
  obtain ⟨i, hi, rfl⟩ := List.mem_mapIdx.mp hline
  rcases List.mem_cons.mp (List.getElem_mem hi) with hurl | hempty
  · exact ⟨_, _, hurl ▸ readLine_failedManifest⟩
  · rw [List.mem_singleton.mp hempty] at hlists
    obtain ⟨c, hc, -⟩ := hlists
    cases hc

/-- With the metrics of an earlier sweep in place, runs that measured nothing are OK. -/
theorem staleMetrics_reported :
    (("neth-x35-24358000-5m", "OK") ∈ (keepingKnobs.sweepManifest plainTools (fun _ => .withPeak)
          none failedManifest fun _ => failedServing.toAnswers).sweep.summary ∧
      ∀ r ∈ (keepingKnobs.sweepManifest plainTools (fun _ => .withPeak) none failedManifest
        fun _ => failedServing.toAnswers).runs, ¬ r.Wrote) ∧
      ¬ ∀ (k : Knobs) (tools : Tools) (prior : Benchmarks) (lowerdir : Option String)
        (manifest : Text) (answers : ℕ → Answers),
        SummaryTrue (k.manifestSubjects tools manifest answers)
          (k.sweepManifest tools prior lowerdir manifest answers) := by
  have hreport : keepingKnobs.sweepManifest plainTools (fun _ => .withPeak) none failedManifest
      (fun _ => failedServing.toAnswers) =
        keepingKnobs.report (fun _ => .withPeak) none [failedServing] := by
    rw [Knobs.sweepManifest, Knobs.foldl_serveLine reads_failedManifest, ← Tools.entries,
      entries_failedManifest]
    rfl
  have hruns : (keepingKnobs.report (fun _ => .withPeak) none [failedServing]).runs =
      [⟨"neth-x35-24358000-5m", ⟨true, none⟩⟩, ⟨"neth-x35-24358000-60m", ⟨true, none⟩⟩] := by
    rw [(Knobs.report_of_not_stops _ none stops_failedServing).2.1, List.flatMap_singleton,
      runsOf_failedServing]
  have hnone : ∀ r ∈ (keepingKnobs.report (fun _ => .withPeak) none [failedServing]).runs,
      ¬ r.Wrote := by
    rw [hruns]
    simp [Run.Wrote]
  have hline : ("neth-x35-24358000-5m", "OK") ∈
      (keepingKnobs.report (fun _ => .withPeak) none [failedServing]).sweep.summary := by
    obtain ⟨seen, hseen, hmem⟩ := (Knobs.accounts_report keepingKnobs (fun _ => .withPeak) none
      [failedServing]).listed ⟨"neth-x35-24358000-5m", ⟨true, none⟩⟩ (by simp [hruns])
    rw [Knobs.lineAfter, leftBy_of_not_wrote fun r hr _ => hnone r (hseen hr)] at hmem
    exact hmem
  rw [hreport]
  refine ⟨⟨hline, hnone⟩, fun hall => ?_⟩
  have hmeasured := (hall keepingKnobs plainTools (fun _ => .withPeak) none failedManifest
    fun _ => failedServing.toAnswers).measured
  rw [hreport] at hmeasured
  obtain ⟨r, hr, -, hwrote⟩ := hmeasured _ hline (Or.inl rfl)
  exact hnone r hr hwrote

end StateBenchmarks.Templates
