/-
# Starting and stopping the infrastructure

The part of `src/orchestrator/runner.py` that brings the containers, the overlay
and the consensus driver up before a benchmark and takes them down after it.
Every step is a command run somewhere: the runner sees an exit status and what
was printed, or that the executable is missing.
-/

import StateBenchmarks.Orchestrator.Overlay

namespace StateBenchmarks.Orchestrator

open Python Control

/-- The module globals `main` sets from the configuration, and whether there is
a `.env` in the working directory. -/
structure Settings where
  rpcUrl : String
  /-- `shlex.split(SSH_CMD)`, when an SSH command is configured. -/
  sshPrefix : Option (List String)
  manageInfra : Bool
  monitoringCompose : String
  clientsCompose : String
  composeCommand : List String
  envFileExists : Bool
  consensusMode : String
  mockCl : Json
  stopTimeoutSec : ℤ
  overlay : Json
  configPath : String
  /-- `DATA_DIRS`. -/
  dataDirs : Dict String
  /-- `CONFIG`. -/
  config : Json
  rpcStartupTimeout : ℤ

/-- The commands the runner runs. -/
inductive Call where
  | overlay (action : Action)
  | monitoringUp
  | clientUp (env : List String) (client : String)
  | lighthouseUp (client : String)
  | clientsDown
  | monitoringDown
  | diskUsage (client dir : String)
  | exportDbSize (client size : String)
  | locust (configPath milestoneDir client : String) (extraAddresses : List String)
  | aggregator (client milestone phase : String) (failOnRegression : Bool)
  deriving DecidableEq

/-- What `subprocess.run` returns. -/
structure Completed where
  returncode : ℤ
  stdout : String

/-- The characters `shlex.quote` leaves bare. -/
def shellSafe (c : Char) : Bool :=
  c.isAlphanum || c == '_' || c == '@' || c == '%' || c == '+' || c == '=' || c == ':' ||
    c == ',' || c == '.' || c == '/' || c == '-'

/-- `shlex.quote`. -/
def shellQuote (s : String) : String :=
  if s = "" then "''"
  else if s.toList.all shellSafe then s
  else
    "'" ++ String.ofList (s.toList.flatMap fun c =>
      if c = '\'' then ['\'', '"', '\'', '"', '\''] else [c]) ++ "'"

namespace Settings

variable (set : Settings)

/-- `compose_cmd`. -/
def composeCmd (file : String) : List String :=
  set.composeCommand ++ (if set.envFileExists then ["--env-file", ".env"] else []) ++
    ["-f", file]

/-- The words `run_cmd` hands to `subprocess.run`. -/
def finalCmd (cmd : List String) : List String :=
  match set.sshPrefix with
  | some words => words ++ [String.intercalate " " (cmd.map shellQuote)]
  | none => cmd

end Settings

/-- The machine the runner runs on.  `proc` is `MOCK_CL_PROC`, the background
driver by its process number. -/
structure Machine (σ : Type) where
  subprocess : Call → σ → Option Completed × σ
  proc : σ → Option ℕ
  setProc : Option ℕ → σ → σ
  popen : List String → σ → Option ℕ × σ
  terminate : ℕ → σ → Except Exn PUnit × σ
  wait : ℕ → σ → Except Exn PUnit × σ
  kill : ℕ → σ → Except Exn PUnit × σ

variable {σ : Type} (M : Machine σ) (env : PathEnv) (set : Settings)

/-- `subprocess.run(…, check=True)`, for a command given by its words. -/
def runCmd (call : Call) (argv : List String) : Script Exn σ Completed := fun s =>
  match M.subprocess call s with
  | (none, s') => .error (.notFound argv) s'
  | (some completed, s') =>
      if completed.returncode = 0 then .ok completed s'
      else .error (.calledProcessError argv) s'

/-- A `run_cmd` statement. -/
def runStep (call : Call) (cmd : List String) : Script Exn σ PUnit := do
  let _ ← runCmd M call (set.finalCmd cmd)

/-- `except subprocess.CalledProcessError`. -/
def isCalledProcessError : Exn → Bool
  | .calledProcessError _ => true
  | _ => false

/-- Performing a method of the background driver's process. -/
def procStep (method : ℕ → σ → Except Exn PUnit × σ) (pid : ℕ) : Script Exn σ PUnit :=
  fun s =>
    match method pid s with
    | (.ok _, s') => .ok ⟨⟩ s'
    | (.error e, s') => .error e s'

/-- `build_mock_cl_command`. -/
def buildMockClCommand (subcommand : String) (cfg : Json) : Except Exn (List String) := do
  let engineUrl ← cfg.getD "engine_url" (.str "http://localhost:8551")
  let jwt ← cfg.getD "jwt" (.str "")
  let cmd := ["uv", "run", "python", "-m", "mock_cl", "--engine-url", env.str engineUrl,
    "--jwt", env.str jwt, subcommand]
  if subcommand = "pivot" then
    let pivot ← cfg.getD "pivot" (.obj [])
    let hash ← pivot.getD "hash" (.str "")
    let number ← pivot.get "number"
    let interval ← pivot.get "interval"
    return cmd ++ ["--pivot-hash", env.str hash] ++ optional "--pivot-number" number ++
      optional "--interval" interval ++ ["--status-rpc", set.rpcUrl]
  else if subcommand = "replay" then
    let replay ← cfg.getD "replay" (.obj [])
    let payloads ← replay.getD "payloads" (.str "")
    let count ← replay.get "count"
    let latencyCsv ← replay.get "latency_csv"
    let version ← replay.get "newpayload_version"
    return cmd ++ ["--payloads", env.str payloads] ++ optional "--count" count ++
      (if latencyCsv.truthy then ["--latency-csv", env.str latencyCsv] else []) ++
      optional "--newpayload-version" version
  else return cmd
where
  /-- An option that is passed unless its value is `None`. -/
  optional (flag : String) (value : Json) : List String :=
    match value with
    | .null => []
    | value => [flag, env.str value]

/-- `MOCK_CL_PROC = subprocess.Popen(cmd, …)`. -/
def openMockCl (cmd : List String) : Script Exn σ PUnit := fun s =>
  match M.popen cmd s with
  | (none, s') => .error (.notFound cmd) s'
  | (some pid, s') => .ok ⟨⟩ (M.setProc (some pid) s')

/-- The `except` clauses of `stop_mock_cl`: a driver that does not stop in time is
killed, anything else is logged. -/
def stopFailed (pid : ℕ) : Exn → Script Exn σ PUnit
  | .external "TimeoutExpired" => procStep M.kill pid
  | _ => pure ⟨⟩

/-- `stop_mock_cl`. -/
def stopMockCl : Script Exn σ PUnit := fun s =>
  match M.proc s with
  | none => .ok ⟨⟩ s
  | some pid =>
      Script.finallyDo
        (Script.handle
          (do
            procStep M.terminate pid
            procStep M.wait pid)
          (stopFailed M pid))
        (modify (M.setProc none)) s

/-- `overlay_enabled`. -/
def overlayEnabled : Except Exn Bool :=
  match parseOverlayConfig env set.overlay with
  | .ok cfg => .ok cfg.isSome
  | .error (.valueError message) =>
      .error (.runtimeError (.text "Invalid overlay config: " :: message))
  | .error e => .error e

/-- `run_overlay_action`. -/
def runOverlayAction (action : Action) : Script Exn σ PUnit :=
  runStep M set (.overlay action)
    ["env", "PYTHONPATH=src", "uv", "run", "python", "-m", "orchestrator.overlay",
      action.name, "--config", set.configPath]

/-- The overlay part of `start_infrastructure`: what it puts before the
client's compose command. -/
def startOverlay : Script Exn σ (List String) := do
  if ← Script.ofExcept (overlayEnabled env set) then
    match ← Script.ofExcept (parseOverlayConfig env set.overlay) with
    | none => throw .attributeError
    | some cfg =>
        runOverlayAction M set .up
        return ["env", cfg.dbPathEnv ++ "=" ++ cfg.path .merged]
  else
    return []

/-- The consensus part of `start_infrastructure`. -/
def startConsensus (client : String) : Script Exn σ PUnit := do
  if set.consensusMode = "lighthouse" then
    Script.suppress isCalledProcessError
      (runStep M set (.lighthouseUp client)
        (set.composeCmd set.clientsCompose ++ ["up", "-d", "lighthouse-" ++ client]))
  else if set.consensusMode = "mock" then
    let cmd ← Script.ofExcept (buildMockClCommand env set "pivot" set.mockCl)
    openMockCl M cmd
  else
    return ⟨⟩

/-- `start_infrastructure`. -/
def startInfrastructure (client : String) : Script Exn σ PUnit := do
  if set.manageInfra then
    let clientEnv ← startOverlay M env set
    runStep M set .monitoringUp (set.composeCmd set.monitoringCompose ++ ["up", "-d"])
    runStep M set (.clientUp clientEnv client)
      (clientEnv ++ set.composeCmd set.clientsCompose ++ ["up", "-d", client])
    startConsensus M env set client
  else
    return ⟨⟩

/-- The `compose down` of the clients and of the monitoring stack; a failing one
is passed over. -/
def composeDown : Script Exn σ PUnit := do
  Script.suppress isCalledProcessError
    (runStep M set .clientsDown
      (set.composeCmd set.clientsCompose ++ ["down", "-v", "-t", toString set.stopTimeoutSec]))
  Script.suppress isCalledProcessError
    (runStep M set .monitoringDown (set.composeCmd set.monitoringCompose ++ ["down", "-v"]))

/-- The overlay part of `stop_infrastructure`. -/
def stopOverlay : Script Exn σ PUnit := do
  if ← Script.ofExcept (overlayEnabled env set) then
    Script.suppress isCalledProcessError (runOverlayAction M set .down)
  else
    return ⟨⟩

/-- `stop_infrastructure`. -/
def stopInfrastructure : Script Exn σ PUnit := do
  if set.manageInfra then
    stopMockCl M
    composeDown M set
    stopOverlay M env set
  else
    return ⟨⟩

/-- The commands that bring the infrastructure up and down. -/
def Call.isInfrastructure : Call → Bool
  | .overlay _ => true
  | .monitoringUp => true
  | .clientUp _ _ => true
  | .lighthouseUp _ => true
  | .clientsDown => true
  | .monitoringDown => true
  | _ => false

/-- The infrastructure's commands and its background driver keep `P`. -/
structure Spares (M : Machine σ) (P : σ → Prop) : Prop where
  subprocess : ∀ call, call.isInfrastructure = true → ∀ s, P s → P (M.subprocess call s).2
  setProc : ∀ proc s, P s → P (M.setProc proc s)
  popen : ∀ cmd s, P s → P (M.popen cmd s).2
  terminate : ∀ pid s, P s → P (M.terminate pid s).2
  wait : ∀ pid s, P s → P (M.wait pid s).2
  kill : ∀ pid s, P s → P (M.kill pid s).2

variable {M env set} {P : σ → Prop}

/-- A command run and checked ends in the state the command leaves. -/
theorem stateOf_runCmd (call : Call) (argv : List String) (s : σ) :
    Script.stateOf (runCmd M call argv s) = (M.subprocess call s).2 := by
  rw [runCmd]
  rcases M.subprocess call s with ⟨_ | completed, t⟩
  · rfl
  · dsimp only
    split_ifs <;> rfl

theorem stateOf_runStep (call : Call) (cmd : List String) (s : σ) :
    Script.stateOf (runStep M set call cmd s) = (M.subprocess call s).2 := by
  rw [← stateOf_runCmd call (set.finalCmd cmd) s]
  exact Script.Keeps.after (P := fun t => t = _) rfl fun _ => Script.Keeps.pure _

theorem keeps_runCmd {call : Call} (h : ∀ s, P s → P (M.subprocess call s).2)
    (argv : List String) : Script.Keeps P (runCmd M call argv) := by
  intro s hs
  rw [stateOf_runCmd]
  exact h s hs

theorem keeps_runStep {call : Call} (h : ∀ s, P s → P (M.subprocess call s).2)
    (cmd : List String) : Script.Keeps P (runStep M set call cmd) := by
  intro s hs
  rw [stateOf_runStep]
  exact h s hs

theorem keeps_openMockCl (hpopen : ∀ cmd s, P s → P (M.popen cmd s).2)
    (hsetProc : ∀ proc s, P s → P (M.setProc proc s)) (cmd : List String) :
    Script.Keeps P (openMockCl M cmd) := by
  intro s hs
  have hopened := hpopen cmd s hs
  rw [openMockCl]
  rcases hpopened : M.popen cmd s with ⟨_ | pid, t⟩ <;> rw [hpopened] at hopened
  · exact hopened
  · exact hsetProc (some pid) t hopened

theorem keeps_startConsensus {client : String}
    (hlighthouse : ∀ s, P s → P (M.subprocess (.lighthouseUp client) s).2)
    (hpopen : ∀ cmd s, P s → P (M.popen cmd s).2)
    (hsetProc : ∀ proc s, P s → P (M.setProc proc s)) :
    Script.Keeps P (startConsensus M env set client) := by
  rw [startConsensus]
  split_ifs
  · exact Script.Keeps.suppress (keeps_runStep hlighthouse _)
  · exact Script.Keeps.bind (Script.Keeps.ofExcept _) (keeps_openMockCl hpopen hsetProc)
  · exact Script.Keeps.pure _

/-- The infrastructure's commands keep `P`. -/
def SparesCommands (M : Machine σ) (P : σ → Prop) : Prop :=
  ∀ call, call.isInfrastructure = true → ∀ s, P s → P (M.subprocess call s).2

/-- The commands that bring the node up, before its consensus driver, keep `P`. -/
structure SparesNode (M : Machine σ) (P : σ → Prop) : Prop where
  overlay : ∀ action s, P s → P (M.subprocess (.overlay action) s).2
  monitoringUp : ∀ s, P s → P (M.subprocess .monitoringUp s).2
  clientUp : ∀ clientEnv client s, P s → P (M.subprocess (.clientUp clientEnv client) s).2

theorem SparesCommands.node (h : SparesCommands M P) : SparesNode M P :=
  ⟨fun _ => h _ rfl, h _ rfl, fun _ _ => h _ rfl⟩

theorem keeps_startOverlay (h : SparesNode M P) : Script.Keeps P (startOverlay M env set) := by
  rw [startOverlay]
  refine Script.Keeps.bind (Script.Keeps.ofExcept _) fun enabled => ?_
  split_ifs
  · refine Script.Keeps.bind (Script.Keeps.ofExcept _) fun cfg => ?_
    cases cfg with
    | none => exact fun s hs => hs
    | some cfg =>
        exact Script.Keeps.bind (keeps_runStep (h.overlay _) _) fun _ => Script.Keeps.pure _
  · exact Script.Keeps.pure _

/-- The node is up before the consensus driver is. -/
theorem keeps_startInfrastructure_of_consensus (h : SparesNode M P) {Q : σ → Prop}
    (hweaken : ∀ s, P s → Q s) {client : String} (hmanage : set.manageInfra = true)
    (hconsensus : ∀ s, P s → Q (Script.stateOf (startConsensus M env set client s))) {s : σ}
    (hs : P s) : Q (Script.stateOf (startInfrastructure M env set client s)) := by
  rw [startInfrastructure, if_pos hmanage]
  refine Script.Keeps.leads (keeps_startOverlay h) hweaken (fun clientEnv t ht => ?_) hs
  refine Script.Keeps.leads (keeps_runStep h.monitoringUp _) hweaken (fun _ u hu => ?_) ht
  exact Script.Keeps.leads (keeps_runStep (h.clientUp clientEnv client) _) hweaken
    (fun _ => hconsensus) hu

theorem keeps_startInfrastructure (h : Spares M P) (client : String) :
    Script.Keeps P (startInfrastructure M env set client) := by
  intro s hs
  cases hmanage : set.manageInfra with
  | false =>
      rw [startInfrastructure, hmanage]
      exact hs
  | true =>
      exact keeps_startInfrastructure_of_consensus (SparesCommands.node h.subprocess)
        (fun _ => id) hmanage
        (keeps_startConsensus (h.subprocess _ rfl) h.popen h.setProc) hs

theorem procStep_of_ok {method : ℕ → σ → Except Exn PUnit × σ} {pid : ℕ} {s : σ}
    (h : (method pid s).1 = .ok ⟨⟩) : procStep method pid s = .ok ⟨⟩ (method pid s).2 := by
  rcases hperformed : method pid s with ⟨_ | _, t⟩
  · rw [hperformed] at h
    cases h
  · rw [procStep, hperformed]

theorem procStep_of_error {method : ℕ → σ → Except Exn PUnit × σ} {pid : ℕ} {s : σ} {e : Exn}
    (h : (method pid s).1 = .error e) : procStep method pid s = .error e (method pid s).2 := by
  rcases hperformed : method pid s with ⟨_ | _, t⟩
  · rw [hperformed] at h
    cases h
    rw [procStep, hperformed]
  · rw [hperformed] at h
    cases h

theorem keeps_procStep {method : ℕ → σ → Except Exn PUnit × σ}
    (h : ∀ pid s, P s → P (method pid s).2) (pid : ℕ) : Script.Keeps P (procStep method pid) := by
  intro s hs
  cases hended : (method pid s).1 with
  | error e =>
      rw [procStep_of_error hended]
      exact h pid s hs
  | ok _ =>
      rw [procStep_of_ok hended]
      exact h pid s hs

theorem keeps_stopMockCl (h : Spares M P) : Script.Keeps P (stopMockCl M) := by
  intro s hs
  rw [stopMockCl]
  cases M.proc s with
  | none => exact hs
  | some pid =>
      have hclear : Script.Keeps P (modify (M.setProc none) : Script Exn σ PUnit) :=
        fun s hs => h.setProc none s hs
      refine Script.Keeps.finallyDo (Script.Keeps.handle ?_ fun e => ?_) hclear s hs
      · exact Script.Keeps.bind (keeps_procStep h.terminate pid) fun _ =>
          keeps_procStep h.wait pid
      · unfold stopFailed
        split
        · exact keeps_procStep h.kill pid
        · exact Script.Keeps.pure _

theorem keeps_composeDown (h : SparesCommands M P) : Script.Keeps P (composeDown M set) :=
  Script.Keeps.bind (Script.Keeps.suppress (keeps_runStep (h _ rfl) _)) fun _ =>
    Script.Keeps.suppress (keeps_runStep (h _ rfl) _)

theorem keeps_stopOverlay (h : SparesCommands M P) : Script.Keeps P (stopOverlay M env set) := by
  rw [stopOverlay]
  refine Script.Keeps.bind (Script.Keeps.ofExcept _) fun enabled => ?_
  split_ifs
  · exact Script.Keeps.suppress (keeps_runStep (h _ rfl) _)
  · exact Script.Keeps.pure _

theorem keeps_stopInfrastructure (h : Spares M P) :
    Script.Keeps P (stopInfrastructure M env set) := by
  rw [stopInfrastructure]
  split_ifs
  · apply Script.Keeps.bind (keeps_stopMockCl h)
    intro _
    apply Script.Keeps.bind (keeps_composeDown h.subprocess)
    intro _
    exact keeps_stopOverlay h.subprocess
  · exact Script.Keeps.pure _

end StateBenchmarks.Orchestrator
