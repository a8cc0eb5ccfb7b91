/-
# A command on the remote host

With an `ssh_command` configured, `run_cmd` joins the quoted words of a command to one
text, which `ssh` hands to the shell of the remote host.  A remote command is the local
one if that shell reads the same words out of the text.

`shlex.quote` leaves a word bare when nothing in it could mean more than itself.  It does
not know where the word will stand, and at the head of a command `name=value` and a
reserved word do mean more where they are bare, and `%job` even between quotes.  These are
the only commands that do not arrive.
-/

import StateBenchmarks.Orchestrator.Infrastructure
import StateBenchmarks.Shell.Words

namespace StateBenchmarks.Orchestrator

open Shell

/-- The word a quoted text is read as. -/
def quotedWord (s : String) : Word :=
  if s ≠ "" ∧ s.toList.all shellSafe then bareCells s.toList else quotedCells s.toList

theorem text_quotedWord (s : String) : (quotedWord s).text = s := by
  rw [quotedWord]
  split
  · rw [text_bareCells, String.ofList_toList]
  · rw [text_quotedCells, String.ofList_toList]

/-- A single quote inside single quotes: out, quoted the other way, and in again. -/
def escapeQuotes (cs : List Char) : List Char :=
  cs.flatMap fun c => if c = '\'' then ['\'', '"', '\'', '"', '\''] else [c]

theorem tokensFrom_escapeQuotes (cs rest : List Char) (w : Word) :
    tokensFrom (.single w) (escapeQuotes cs ++ '\'' :: rest) =
      tokensFrom (.bare ((quotedCells cs).reverse ++ w)) rest := by
  induction cs generalizing w with
  | nil => exact tokensFrom_cons_of_silent rfl
  | cons c cs ih =>
      have hcells : (quotedCells (c :: cs)).reverse ++ w =
          (quotedCells cs).reverse ++ ⟨c, true⟩ :: w := by
        simp [quotedCells]
      rw [escapeQuotes, List.flatMap_cons, ← escapeQuotes, List.append_assoc, hcells, ← ih]
      by_cases hc : c = '\''
      · subst hc
        exact (tokensFrom_cons_of_silent rfl).trans ((tokensFrom_cons_of_silent rfl).trans
          ((tokensFrom_cons_of_silent rfl).trans ((tokensFrom_cons_of_silent rfl).trans
            (tokensFrom_cons_of_silent rfl))))
      · rw [if_neg hc]
        exact tokensFrom_cons_of_silent (by rw [Mode.read, if_neg hc])

/-- `shlex.quote` spells its argument. -/
theorem shellQuote_spells (s : String) : Spells (shellQuote s).toList (quotedWord s) := by
  by_cases hempty : s = ""
  · subst hempty
    intro rest
    exact (tokensFrom_cons_of_silent rfl).trans (tokensFrom_cons_of_silent rfl)
  by_cases hsafe : s.toList.all shellSafe
  · rw [shellQuote, if_neg hempty, if_pos hsafe, quotedWord, if_pos ⟨hempty, hsafe⟩]
    exact Spells.literal (by simpa using hempty) hsafe
  · intro rest
    rw [shellQuote, if_neg hempty, if_neg hsafe, quotedWord, if_neg fun h => hsafe h.2]
    have htext : ("'" ++ String.ofList (escapeQuotes s.toList) ++ "'").toList ++ rest =
        '\'' :: (escapeQuotes s.toList ++ '\'' :: rest) := by
      simp
    rw [← escapeQuotes, htext,
      tokensFrom_cons_of_silent (show Mode.between.read '\'' = some ([], .single []) from rfl),
      tokensFrom_escapeQuotes, List.append_nil]

/-- The text of a command for the remote shell. -/
def remoteText (cmd : List String) : String := String.intercalate " " (cmd.map shellQuote)

theorem tokens_remoteText (cmd : List String) :
    tokens (remoteText cmd) = some ((cmd.map quotedWord).map .word) := by
  apply tokens_intercalate
  rw [List.forall₂_map_left_iff, List.forall₂_map_right_iff, List.forall₂_same]
  exact fun s _ => shellQuote_spells s

/-- Words alone are one command. -/
theorem commandsFrom_words (current : Simple) (words : List Word) :
    commandsFrom current (words.map .word) =
      if current.words ++ words = [] then none
      else some [{ current with words := current.words ++ words }] := by
  induction words generalizing current with
  | nil => simp [commandsFrom]
  | cons w words ih => simp [commandsFrom, ih]

/-- A name that stands for itself at the head of a command: bare, it is neither an
assignment nor a reserved word, and quoted or not, it is no job. -/
def callable (name : String) : Bool :=
  name.toList.head? != some '%' &&
    (!name.toList.all shellSafe ||
      (!(bareCells name.toList).isAssignment && !reserved.contains name))

example : (["docker", "docker-compose", "env", "sh"].all callable) = true := by decide

example : (["PYTHONPATH=src", "time", "in", "%1", "%a b"].any callable) = false := by decide

/-! Bare and quoted words at the head of a command. -/

theorem isAssignment_quotedCells (cs : List Char) : (quotedCells cs).isAssignment = false := by
  cases cs with
  | nil => rfl
  | cons c cs =>
      by_cases hc : c = '='
      · subst hc
        rfl
      · simp [Word.isAssignment, quotedCells, hc]

theorem isReserved_quotedCells (cs : List Char) : (quotedCells cs).isReserved = false := by
  cases cs with
  | nil => decide
  | cons c cs => simp [Word.isReserved, quotedCells]

theorem isReserved_bareCells (s : String) :
    (bareCells s.toList).isReserved = reserved.contains s := by
  have hbare : (bareCells s.toList).all (fun cell => !cell.quoted) = true := by
    simp [bareCells]
  rw [Word.isReserved, hbare, text_bareCells, String.ofList_toList, Bool.true_and]

theorem isJob_quotedWord (s : String) :
    (quotedWord s).isJob = (s.toList.head? == some '%') := by
  rw [quotedWord]
  split <;> cases s.toList <;> simp [Word.isJob, bareCells, quotedCells]

/-- A word can be called if and only if its shell reads no more than a name in it. -/
theorem callable_iff (s : String) :
    callable s = !((quotedWord s).isAssignment || (quotedWord s).isReserved ||
      (quotedWord s).isJob) := by
  rw [isJob_quotedWord, callable, bne]
  by_cases hsafe : s.toList.all shellSafe
  · by_cases hempty : s = ""
    · subst hempty
      decide
    · rw [quotedWord, if_pos ⟨hempty, hsafe⟩, isReserved_bareCells, hsafe]
      generalize (bareCells s.toList).isAssignment = assigned
      generalize reserved.contains s = isReserved
      generalize (s.toList.head? == some '%') = isJob
      revert assigned isReserved isJob
      decide
  · have hquoted : quotedWord s = quotedCells s.toList := if_neg fun h => hsafe h.2
    rw [hquoted, isAssignment_quotedCells, isReserved_quotedCells]
    simp [hsafe]

/-- The remote shell runs the command that was quoted for it, or nothing that can be
called one. -/
theorem runs_remoteText (cmd argv : List String) :
    Runs (remoteText cmd) argv ↔ argv = cmd ∧ cmd.head?.any callable := by
  have hcommands : commands (remoteText cmd) =
      if cmd = [] then none else some [⟨cmd.map quotedWord, none⟩] := by
    rw [commands, tokens_remoteText, Option.bind_some, commandsFrom_words, List.nil_append]
    simp
  cases cmd with
  | nil =>
      rw [Runs, hcommands]
      simp
  | cons name rest =>
      have hargv : Simple.argv ⟨(name :: rest).map quotedWord, none⟩ =
          if callable name then some (name :: rest) else none := by
        have htexts : (rest.map quotedWord).map Word.text = rest := by
          simp [Function.comp_def, text_quotedWord]
        simp only [Simple.argv, List.map_cons, callable_iff, text_quotedWord, htexts]
        cases (quotedWord name).isAssignment || (quotedWord name).isReserved ||
          (quotedWord name).isJob <;> rfl
      constructor
      · rintro ⟨command, hcommand, -, hruns⟩
        rw [hcommands, if_neg (List.cons_ne_nil name rest), Option.some_inj, List.cons.injEq]
          at hcommand
        rw [← hcommand.1, hargv] at hruns
        by_cases hname : callable name
        · rw [if_pos hname, Option.some_inj] at hruns
          exact ⟨hruns.symm, hname⟩
        · rw [if_neg hname] at hruns
          cases hruns
      · rintro ⟨rfl, hname⟩
        refine ⟨_, hcommands, rfl, ?_⟩
        rw [hargv, if_pos (by simpa using hname)]

namespace Settings

variable (set : Settings)

/-- Settings of a benchmark on another host. -/
def remote : Settings where
  rpcUrl := "http://el:8545"
  sshPrefix := some ["ssh", "bench@el"]
  manageInfra := true
  monitoringCompose := "docker/monitoring.yml"
  clientsCompose := "docker/clients.yml"
  composeCommand := ["docker", "compose"]
  envFileExists := true
  consensusMode := "none"
  mockCl := .obj []
  stopTimeoutSec := 600
  overlay := .obj []
  configPath := "config.yaml"
  dataDirs := []
  config := .obj []
  rpcStartupTimeout := 600

end Settings

end StateBenchmarks.Orchestrator
