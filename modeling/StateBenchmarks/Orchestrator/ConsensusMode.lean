/-
# The consensus mode

`main` resolves one string, and two functions dispatch on it:
`start_infrastructure` to bring up what drives the node's engine API, and
`sync_head_ok` to decide when the node counts as synced.  Each knows the three
documented spellings.  For any other the first starts nothing, and the second
falls through to the criterion of a live chain, which a node that nothing drives
does not meet.  A mock mode whose section gives no pivot number starts the pivot
driver all the same, and the second function then waits for the end of syncing,
as for a node without a driver.
-/

import StateBenchmarks.Orchestrator.Runner

namespace StateBenchmarks.Orchestrator

open Python Control

/-- One line of `read_env_file`. -/
def readEnvLine (values : Dict String) (line : String) : Dict String :=
  let chars := stripChars line.toList
  if chars = [] ∨ chars.head? = some '#' ∨ '=' ∉ chars then values
  else
    values.set (strip (String.ofList (chars.takeWhile (· != '='))))
      (strip (String.ofList ((chars.dropWhile (· != '=')).drop 1)))

/-- `read_env_file`, from the text of the file if there is one. -/
def readEnvFile (file : Option String) : Dict String :=
  (file.elim [] textLines).foldl readEnvLine []

/-- The variables of the process, and the text of `.env`. -/
structure EnvVars where
  environ : Dict String
  envFile : Option String

namespace EnvVars

variable (vars : EnvVars)

/-- `os.environ.get(name, read_env_file().get(name))`. -/
def get (name : String) : Option String :=
  (Dict.get? vars.environ name).or (Dict.get? (readEnvFile vars.envFile) name)

/-- `env_flag`. -/
def flag (name : String) (default : Bool) : Bool :=
  match vars.get name with
  | none => default
  | some raw => ["1", "true", "yes", "on"].contains (lower (strip raw))

end EnvVars

/-- `CONSENSUS_MODE`, as `main` resolves it from the `nodes` section and the
environment. -/
def resolveConsensusMode (env : PathEnv) (vars : EnvVars) (nodes : Json) :
    Except Exn String := do
  let configured ← nodes.getD "consensus" (.bool false)
  let consensus := vars.flag "CONSENSUS" configured.truthy
  let mode ← nodes.getD "consensus_mode" (.str (if consensus then "lighthouse" else "none"))
  match vars.get "CONSENSUS_MODE" with
  | none => return env.str mode
  | some envMode => return if envMode = "" then env.str mode else strip envMode

/-- What `sync_head_ok` sees: the answer to `eth_getBlockByNumber`, null for a
node that does not answer, and the time. -/
structure HeadProbe where
  block : Json
  now : ℚ
  sawSyncing : Bool

/-- `int(block[key], 16)` under the `except` clause that gives up on it. -/
def hexField (block : Json) (key : String) : Option ℤ :=
  match block.item key with
  | .error _ => none
  | .ok v => v.int16.toOption

variable (numbers : NumberText) (set : Settings) (freshnessSec : ℤ) (probe : HeadProbe)

/-- `head_is_fresh`. -/
def headIsFresh : Bool :=
  if probe.block.truthy then
    match hexField probe.block "number", hexField probe.block "timestamp" with
    | some number, some timestamp => decide (0 < number ∧ probe.now - timestamp < freshnessSec)
    | _, _ => false
  else false

/-- The syncing-transition criterion. -/
def sawTransition : Bool :=
  if probe.block.truthy then
    match hexField probe.block "number" with
    | some number => decide (0 < number) && probe.sawSyncing
    | none => false
  else false

/-- The pivot criterion, which without a pivot number is that of the
transition. -/
def pivotReached : Except Exn Bool := do
  if probe.block.truthy then
    match hexField probe.block "number" with
    | none => return false
    | some number =>
        let pivot ← set.mockCl.get "pivot"
        match ← pivot.orEmptyGet "number" with
        | .null => return decide (0 < number) && probe.sawSyncing
        | pivotNumber =>
            let n ← intOf numbers pivotNumber
            return decide (n - 32 ≤ number)
  else return false

/-- `sync_head_ok`. -/
def syncHeadOk : Except Exn Bool :=
  if set.consensusMode = "mock" then pivotReached numbers set probe
  else if set.consensusMode = "none" then .ok (sawTransition probe)
  else .ok (headIsFresh freshnessSec probe)

/-- A block with a number is an object with fields. -/
theorem truthy_of_hexField {block : Json} {key : String} {number : ℤ}
    (h : hexField block key = some number) : block.truthy = true := by
  cases block with
  | obj fields =>
      cases fields with
      | nil => cases h
      | cons first rest => rfl
  | _ => cases h

variable {numbers set probe} in
/-- With a number configured, the head's own number decides. -/
theorem pivotReached_of_number {pivot v : Json} {number p : ℤ}
    (hblock : hexField probe.block "number" = some number)
    (hpivot : set.mockCl.get "pivot" = .ok pivot) (hnumber : pivot.orEmptyGet "number" = .ok v)
    (hne : v ≠ .null) (hint : intOf numbers v = .ok p) :
    pivotReached numbers set probe = .ok (decide (p - 32 ≤ number)) := by
  rw [pivotReached, if_pos (truthy_of_hexField hblock), hblock]
  simp only [hpivot, hnumber, bind, Except.bind, hint]
  cases v with
  | null => exact absurd rfl hne
  | _ => rfl

/-- The documented modes. -/
inductive ConsensusMode where
  | lighthouse
  | mock
  | none

namespace ConsensusMode

variable {σ : Type} (M : Machine σ) (env : PathEnv)

/-- Starting the driver of a mode. -/
def start (client : String) : ConsensusMode → Script Exn σ PUnit
  | lighthouse =>
      Script.suppress isCalledProcessError
        (runStep M set (.lighthouseUp client)
          (set.composeCmd set.clientsCompose ++ ["up", "-d", "lighthouse-" ++ client]))
  | mock => do
      let cmd ← Script.ofExcept (buildMockClCommand env set "pivot" set.mockCl)
      openMockCl M cmd
  | none => return ⟨⟩

end ConsensusMode

variable {set}

variable {numbers}

variable {freshnessSec}

/-- A configuration of the runner that manages the infrastructure. -/
def managedSettings : Settings where
  rpcUrl := "http://localhost:8545"
  sshPrefix := none
  manageInfra := true
  monitoringCompose := "docker/docker-compose.monitoring.yml"
  clientsCompose := "docker/docker-compose.clients.yml"
  composeCommand := ["docker", "compose"]
  envFileExists := false
  consensusMode := "lighthouse"
  mockCl := .obj []
  stopTimeoutSec := 600
  overlay := .obj []
  configPath := "config.yml"
  dataDirs := []
  config := .obj []
  rpcStartupTimeout := 300

/-- Parsers that find no number in any text. -/
def noNumbers : NumberText := ⟨fun _ => none, fun _ => none⟩

/-- `str` on the values a mode is given by. -/
def plainText : PathEnv where
  str v := match v with | .str s => s | .null => "None" | _ => ""
  resolve p := p

end StateBenchmarks.Orchestrator
