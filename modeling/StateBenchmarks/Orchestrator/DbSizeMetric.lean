/-
# The database size for Prometheus

`export_db_size_metric` has a shell on the docker host write the measured size to a file
that node_exporter reads whenever it is scraped.  The script writes a second file and
moves it into place.  It carries the client's name in its text, and with an
`ssh_command` the whole script is a quoted word of another command; neither may change
what is written.
-/

import StateBenchmarks.Orchestrator.RemoteCommand
import StateBenchmarks.Orchestrator.Runner
import StateBenchmarks.Shell.Files

namespace StateBenchmarks.Orchestrator

open Shell Python

/-- The file node_exporter reads, and the one written beside it. -/
def metricPath : String := joinPath textfileMetricsDir "benchmark_db_size.prom"

def metricTmp : String := metricPath ++ ".tmp"

/-- The `content` of `export_db_size_metric`. -/
def metricContent (client size : String) : String :=
  "# HELP benchmark_db_size_bytes Client database size measured by the orchestrator" ++
  " (du -sb of the nodes.data_dirs path).\n" ++
  "# TYPE benchmark_db_size_bytes gauge\n" ++
  "benchmark_db_size_bytes\x7bclient=\"" ++ client ++ "\"\x7d " ++ size ++ "\n"

theorem metricPath_ne_metricTmp : metricPath ≠ metricTmp := by decide

/-- The script, with its parts named. -/
theorem exportScript_eq (client size : String) :
    exportScript client size =
      "mkdir -p " ++ shellQuote textfileMetricsDir ++ " && printf '%s' " ++
        shellQuote (metricContent client size) ++ " > " ++ shellQuote metricTmp ++ " && mv " ++
        shellQuote metricTmp ++ " " ++ shellQuote metricPath :=
  rfl

/-- The words of the three commands. -/
def exportTokens (client size : String) : List Token :=
  [.word (bareCells "mkdir".toList), .word (bareCells "-p".toList),
    .word (quotedWord textfileMetricsDir), .andIf,
    .word (bareCells "printf".toList), .word (quotedCells "%s".toList),
    .word (quotedWord (metricContent client size)), .redirect, .word (quotedWord metricTmp),
    .andIf, .word (bareCells "mv".toList), .word (quotedWord metricTmp),
    .word (quotedWord metricPath)]

theorem tokens_exportScript (client size : String) :
    tokens (exportScript client size) = some (exportTokens client size) := by
  have htext : (exportScript client size).toList =
      "mkdir".toList ++ ' ' :: ("-p".toList ++ ' ' :: ((shellQuote textfileMetricsDir).toList ++
        ' ' :: '&' :: '&' :: ' ' :: ("printf".toList ++ ' ' :: ('\'' :: ("%s".toList ++ ['\'']) ++
          ' ' :: ((shellQuote (metricContent client size)).toList ++ ' ' :: '>' :: ' ' ::
            ((shellQuote metricTmp).toList ++ ' ' :: '&' :: '&' :: ' ' :: ("mv".toList ++
              ' ' :: ((shellQuote metricTmp).toList ++ ' ' ::
                (shellQuote metricPath).toList)))))))) := by
    rw [exportScript_eq]
    simp only [String.toList_append, String.reduceToList, List.cons_append, List.nil_append,
      List.append_assoc]
  have hmkdir : Spells "mkdir".toList (bareCells "mkdir".toList) :=
    .literal (by decide) (by decide)
  have hp : Spells "-p".toList (bareCells "-p".toList) := .literal (by decide) (by decide)
  have hprintf : Spells "printf".toList (bareCells "printf".toList) :=
    .literal (by decide) (by decide)
  have hformat : Spells ('\'' :: ("%s".toList ++ ['\''])) (quotedCells "%s".toList) :=
    .singleQuoted (by decide)
  have hmv : Spells "mv".toList (bareCells "mv".toList) := .literal (by decide) (by decide)
  rw [tokens, htext, hmkdir.before_blank, hp.before_blank, (shellQuote_spells _).before_blank,
    tokensFrom_andIf, hprintf.before_blank, hformat.before_blank,
    (shellQuote_spells _).before_blank, tokensFrom_redirect, (shellQuote_spells _).before_blank,
    tokensFrom_andIf, hmv.before_blank, (shellQuote_spells _).before_blank,
    (shellQuote_spells _).at_end]
  rfl

/-- The action of a command under a bare name. -/
theorem action_of_name (name : String) (args : List Word) (target : Option Word)
    (h : ((bareCells name.toList).isAssignment || (bareCells name.toList).isReserved ||
      (bareCells name.toList).isJob) = false) :
    Simple.action ⟨bareCells name.toList :: args, target⟩ =
      some ⟨name :: args.map Word.text, target.map Word.text⟩ := by
  simp [Simple.action, Simple.argv, h, text_bareCells]

/-- What the script does, whatever the client is called. -/
theorem actions_exportScript (client size : String) :
    (commands (exportScript client size)).bind (fun cs => cs.mapM Simple.action) =
      some (publishing textfileMetricsDir (metricContent client size) metricTmp metricPath) := by
  have hcommands : commandsFrom ⟨[], none⟩ (exportTokens client size) =
      some [⟨[bareCells "mkdir".toList, bareCells "-p".toList, quotedWord textfileMetricsDir],
          none⟩,
        ⟨[bareCells "printf".toList, quotedCells "%s".toList,
          quotedWord (metricContent client size)], some (quotedWord metricTmp)⟩,
        ⟨[bareCells "mv".toList, quotedWord metricTmp, quotedWord metricPath], none⟩] :=
    rfl
  rw [commands, tokens_exportScript, Option.bind_some, hcommands, Option.bind_some]
  have hmkdir := action_of_name "mkdir" [bareCells "-p".toList, quotedWord textfileMetricsDir]
    none (by decide)
  have hprintf := action_of_name "printf" [quotedCells "%s".toList,
    quotedWord (metricContent client size)] (some (quotedWord metricTmp)) (by decide)
  have hmv := action_of_name "mv" [quotedWord metricTmp, quotedWord metricPath] none (by decide)
  simp only [List.mapM_cons, List.mapM_nil, hmkdir, hprintf, hmv, Option.bind_eq_bind,
    Option.bind_some, Option.pure_def, List.map_cons, List.map_nil, Option.map_some,
    Option.map_none, text_bareCells, text_quotedCells, text_quotedWord, String.ofList_toList,
    publishing]

/-- The command the docker host runs for a command of the runner: the one itself, or what
its shell makes of the text `ssh` brings. -/
def Settings.Arrives (set : Settings) (cmd argv : List String) : Prop :=
  match set.sshPrefix with
  | none => argv = cmd
  | some sshWords => ∃ text, set.finalCmd cmd = sshWords ++ [text] ∧ Runs text argv

/-- A command with a callable name arrives as it is. -/
theorem Settings.arrives_iff (set : Settings) {name : String} (hname : callable name = true)
    (args argv : List String) : set.Arrives (name :: args) argv ↔ argv = name :: args := by
  rw [Settings.Arrives, Settings.finalCmd]
  cases set.sshPrefix with
  | none => rfl
  | some sshWords =>
      have hruns := runs_remoteText (name :: args)
      constructor
      · rintro ⟨text, htext, htextRuns⟩
        rw [List.append_cancel_left_eq, List.cons.injEq] at htext
        rw [← htext.1] at htextRuns
        exact ((hruns argv).mp htextRuns).1
      · rintro rfl
        exact ⟨_, rfl, (hruns _).mpr ⟨rfl, hname⟩⟩

/-- An export: the client, the size measured and whether the script succeeded. -/
structure Export where
  client : String
  size : String
  ok : Bool

/-- Exports one after the other, on the files of the docker host. -/
inductive Exports (set : Settings) : List Export → Files → List Files → Files → Prop where
  | nil (files : Files) : Exports set [] files [] files
  | cons {export' : Export} {rest : List Export} {files files' files'' : Files}
      {seen seen' : List Files} (script : String)
      (harrives : set.Arrives ["sh", "-c", exportScript export'.client export'.size]
        ["sh", "-c", script])
      (hruns : Executes script files seen files' export'.ok)
      (hrest : Exports set rest files' seen' files'') :
      Exports set (export' :: rest) files (seen ++ seen') files''

/-- What is in the metrics file after these exports: that of the last that succeeded. -/
def exported (exports : List Export) (before : Option String) : Option String :=
  exports.foldl (fun now e => if e.ok then some (metricContent e.client e.size) else now) before

/-- A moment of a series: some exports are over, one is running, and its states up to then
and from then on are known. -/
structure Underway (set : Settings) (exports : List Export) (files : Files) (past : List Files)
    (now : Files) (done : List Export) (current : Export) : Prop where
  split : ∃ rest, exports = done ++ current :: rest
  during : ∃ earlier before after between next, past = earlier ++ before ∧
    Exports set done files earlier between ∧
    Exports set [current] between (before ++ now :: after) next

/-- One export publishes its content. -/
theorem published_of_executes {client size : String} {files files' : Files} {seen : List Files}
    {ok : Bool} (h : Executes (exportScript client size) files seen files' ok) :
    Published (metricContent client size) metricTmp metricPath files seen files' ok := by
  obtain ⟨actions, hactions, hruns⟩ := h
  rw [actions_exportScript, Option.some_inj] at hactions
  exact published_of_publishing metricPath_ne_metricTmp (hactions ▸ hruns)

/-- **Whatever the clients are called, wherever the commands run and whatever fails on the
way: at every moment the metrics file holds what the exports that are over have left, or all
that the running one writes if it succeeds; in the end it holds what the last successful one
wrote, and no other file but the one beside it changes.** -/
theorem exports_published {set : Settings} {exports : List Export} {files files' : Files}
    {seen : List Files} (h : Exports set exports files seen files') :
    (∀ past now future, seen = past ++ now :: future →
      ∃ done current, Underway set exports files past now done current ∧
        (now metricPath = exported done (files metricPath) ∨
          current.ok = true ∧ now metricPath = exported (done ++ [current]) (files metricPath))) ∧
    files' metricPath = exported exports (files metricPath) ∧
    ∀ now ∈ files' :: seen, ∀ p, p ≠ metricPath → p ≠ metricTmp → now p = files p := by
  induction h with
  | nil files => exact ⟨by simp, rfl, by simp⟩
  | @cons e rest files between files' seen seen' script harrives hruns hrest ih =>
      have hscript := harrives
      rw [set.arrives_iff (by decide), List.cons.injEq, List.cons.injEq, List.cons.injEq]
        at hscript
      have hpublished := published_of_executes (hscript.2.2.1 ▸ hruns)
      have hone : Exports set [e] files (seen ++ []) between := .cons script harrives hruns (.nil _)
      rw [List.append_nil] at hone
      have hbetween : between metricPath = exported [e] (files metricPath) := hpublished.final
      obtain ⟨hseen, hfinal, hothers⟩ := ih
      have hlater : ∀ past now future, seen' = past ++ now :: future →
          ∃ done current, Underway set (e :: rest) files (seen ++ past) now done current ∧
            (now metricPath = exported done (files metricPath) ∨ current.ok = true ∧
              now metricPath = exported (done ++ [current]) (files metricPath)) := by
        intro past now future hsplit
        obtain ⟨done, current, ⟨⟨more, hmore⟩, hduring⟩, hnow⟩ := hseen past now future hsplit
        obtain ⟨earlier, before, after, mid, next, rfl, hdone, hcurrent⟩ := hduring
        refine ⟨e :: done, current, ⟨⟨more, congrArg (e :: ·) hmore⟩, seen ++ earlier, before,
          after, mid, next, (List.append_assoc ..).symm, .cons script harrives hruns hdone,
          hcurrent⟩, ?_⟩
        rw [hbetween] at hnow
        exact hnow
      refine ⟨?_, ?_, ?_⟩
      · intro past now future hsplit
        rcases List.append_eq_append_iff.mp hsplit with ⟨past', rfl, hrest'⟩ | ⟨own, hown, hrest'⟩
        · exact hlater past' now future hrest'
        · cases own with
          | nil =>
              rw [List.append_nil] at hown
              have hfirst := hlater [] now future hrest'.symm
              rw [List.append_nil, hown] at hfirst
              exact hfirst
          | cons first after =>
              -- Within this export: nothing of it yet, or all of it.
              obtain ⟨rfl, -⟩ := List.cons.inj hrest'
              have hmem : now ∈ seen := hown ▸ List.mem_append_right _ List.mem_cons_self
              refine ⟨[], e, ⟨⟨rest, rfl⟩, [], past, after, files, between, rfl, .nil files,
                hown ▸ hone⟩, ?_⟩
              exact (hpublished.whole now hmem).imp_right fun ⟨hok, hwhole⟩ =>
                ⟨hok, by rw [hwhole, exported, List.nil_append, List.foldl_cons, if_pos hok,
                  List.foldl_nil]⟩
      · rw [hfinal, hbetween]
        rfl
      · intro now hnow p hp htmp
        rw [← List.cons_append, List.mem_append, List.mem_cons, or_assoc, or_left_comm,
          ← List.mem_cons] at hnow
        cases hnow with
        | inl hnow => exact hpublished.others now (.tail _ hnow) p hp htmp
        | inr hnow =>
            exact (hothers now hnow p hp htmp).trans
              (hpublished.others between (.head _) p hp htmp)

/-- A successful export leaves the file beside moved away. -/
theorem executes_export (client size : String) (files : Files) :
    ∃ seen, Executes (exportScript client size) files seen
      ((files.write metricTmp (metricContent client size)).rename metricTmp metricPath) true := by
  have hmoved : ((files.write metricTmp (metricContent client size)) metricTmp).isSome := by
    rw [Files.write_self]
    rfl
  exact ⟨_, _, actions_exportScript client size,
    .next (.mkdir _ _ true) (.next (.printf _ _ _ []) (.next (.mv _ _ _ hmoved) (.nil _)))⟩

/-- A second export that breaks off half written changes nothing, and a third one counts. -/
theorem exports_published_geth :
    ∃ seen files', Exports .remote
        [⟨"geth", "1024", true⟩, ⟨"geth", "2048", false⟩, ⟨"reth", "4096", true⟩]
        (fun _ => none) seen files' ∧
      (∀ now ∈ seen, now metricPath = none ∨
        now metricPath = some (metricContent "geth" "1024") ∨
        now metricPath = some (metricContent "reth" "4096")) ∧
      files' metricPath = some (metricContent "reth" "4096") := by
  obtain ⟨first, hfirst⟩ := executes_export "geth" "1024" fun _ => none
  obtain ⟨third, hthird⟩ := executes_export "reth" "4096"
    (Files.write _ metricTmp "# HELP")
  have harrives (script : String) :
      Settings.remote.Arrives ["sh", "-c", script] ["sh", "-c", script] :=
    (Settings.arrives_iff .remote (by decide) _ _).mpr rfl
  have hruns : Exports .remote
      [⟨"geth", "1024", true⟩, ⟨"geth", "2048", false⟩, ⟨"reth", "4096", true⟩]
      (fun _ => none) _ _ :=
    .cons _ (harrives _) hfirst (.cons _ (harrives _) ⟨_, actions_exportScript "geth" "2048",
      .next (.mkdir _ _ true) (.stop (.printfFails _ _ _ [] "# HELP"))⟩
      (.cons _ (harrives _) hthird (.nil _)))
  obtain ⟨hmoments, hfinal, -⟩ := exports_published hruns
  refine ⟨_, _, hruns, fun now hnow => ?_, hfinal⟩
  obtain ⟨past, future, hsplit⟩ := List.append_of_mem hnow
  obtain ⟨done, current, ⟨⟨rest, hrest⟩, -⟩, hholds⟩ := hmoments past now future hsplit
  rcases done with _ | ⟨d, _ | ⟨d', _ | ⟨d'', more⟩⟩⟩
  · obtain ⟨rfl, -⟩ := List.cons.inj hrest
    exact hholds.imp_right fun h => .inl h.2
  · obtain ⟨rfl, hsecond⟩ := List.cons.inj hrest
    obtain ⟨rfl, -⟩ := List.cons.inj hsecond
    exact .inr (.inl (hholds.elim id fun h => absurd h.1 Bool.false_ne_true))
  · obtain ⟨rfl, hsecond⟩ := List.cons.inj hrest
    obtain ⟨rfl, hthird⟩ := List.cons.inj hsecond
    obtain ⟨rfl, -⟩ := List.cons.inj hthird
    exact .inr (hholds.imp id fun h => h.2)
  · have hlength := congrArg List.length hrest
    simp at hlength

end StateBenchmarks.Orchestrator
