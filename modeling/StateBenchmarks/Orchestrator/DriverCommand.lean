/-
# From the configuration to the mock driver

The runner describes the pivot in its configuration, `build_mock_cl_command` puts it on a
command line, and another process parses that line and starts the loop.  The two ends know
of each other only through the words in between.
-/

import StateBenchmarks.MockCl.CommandLine
import StateBenchmarks.Orchestrator.Infrastructure

namespace StateBenchmarks.Orchestrator

open Python MockCl CommandLine

variable (env : PathEnv) (set : Settings)

/-- The text that is passed for a value, unless it is `None`. -/
def givenText (v : Json) : Option String :=
  match v with
  | .null => none
  | v => some (env.str v)

/-- `python -m mock_cl`, as it is run. -/
def launcher : List String := ["uv", "run", "python", "-m", "mock_cl"]

/-- What every section configures. -/
def engineLine (mockCl : Dict Json) : EngineLine where
  engineUrl := env.str ((mockCl.get? "engine_url").getD (.str "http://localhost:8551"))
  jwt := env.str ((mockCl.get? "jwt").getD (.str ""))
  engineTimeout := none

/-- The command line of a `pivot` section. -/
def pivotLine (mockCl pivot : Dict Json) : PivotLine where
  toEngineLine := engineLine env mockCl
  pivotHash := env.str ((pivot.get? "hash").getD (.str ""))
  pivotNumber := givenText env (pivot.get "number")
  interval := givenText env (pivot.get "interval")
  statusRpc := set.rpcUrl

/-- The command line of a `replay` section. -/
def replayLine (mockCl replay : Dict Json) : ReplayLine where
  toEngineLine := engineLine env mockCl
  payloads := env.str ((replay.get? "payloads").getD (.str ""))
  count := givenText env (replay.get "count")
  latencyCsv :=
    if (replay.get "latency_csv").truthy then some (env.str (replay.get "latency_csv")) else none
  newpayloadVersion := givenText env (replay.get "newpayload_version")

theorem spelled_append (front back : List (Opt × String)) :
    spelled (front ++ back) = spelled front ++ spelled back := List.flatMap_append

theorem spelled_passed (o : Opt) (v : Json) :
    spelled (passed o (givenText env v)) = buildMockClCommand.optional env o.flag v := by
  cases v <;> rfl

theorem spelled_pivotLine (mockCl pivot : Dict Json) :
    spelled (pivotLine env set mockCl pivot).pairs =
      ["--pivot-hash", env.str ((pivot.get? "hash").getD (.str ""))] ++
        buildMockClCommand.optional env "--pivot-number" (pivot.get "number") ++
        buildMockClCommand.optional env "--interval" (pivot.get "interval") ++
        ["--status-rpc", set.rpcUrl] := by
  have hpairs : (pivotLine env set mockCl pivot).pairs =
      [(Options.pivotHash, env.str ((pivot.get? "hash").getD (.str "")))] ++
        passed Options.pivotNumber (givenText env (pivot.get "number")) ++
        passed Options.interval (givenText env (pivot.get "interval")) ++
        [(Options.statusRpc, set.rpcUrl)] := by
    simp [PivotLine.pairs, pivotLine]
  rw [hpairs, spelled_append, spelled_append, spelled_append, spelled_passed, spelled_passed]
  rfl

theorem spelled_replayLine (mockCl replay : Dict Json) :
    spelled (replayLine env mockCl replay).pairs =
      ["--payloads", env.str ((replay.get? "payloads").getD (.str ""))] ++
        buildMockClCommand.optional env "--count" (replay.get "count") ++
        (if (replay.get "latency_csv").truthy then
          ["--latency-csv", env.str (replay.get "latency_csv")] else []) ++
        buildMockClCommand.optional env "--newpayload-version"
          (replay.get "newpayload_version") := by
  have hcsv : ∀ v : Json, spelled (passed Options.latencyCsv
      (if v.truthy then some (env.str v) else none)) =
        if v.truthy then ["--latency-csv", env.str v] else [] := by
    intro v
    split_ifs <;> rfl
  have hpairs : (replayLine env mockCl replay).pairs =
      [(Options.payloads, env.str ((replay.get? "payloads").getD (.str "")))] ++
        passed Options.count (givenText env (replay.get "count")) ++
        passed Options.latencyCsv (if (replay.get "latency_csv").truthy then
          some (env.str (replay.get "latency_csv")) else none) ++
        passed Options.newpayloadVersion (givenText env (replay.get "newpayload_version")) := by
    simp [ReplayLine.pairs, replayLine]
  rw [hpairs, spelled_append, spelled_append, spelled_append, spelled_passed, spelled_passed, hcsv]
  rfl

theorem buildMockClCommand_pivot {mockCl pivot : Dict Json}
    (h : (mockCl.get? "pivot").getD (.obj []) = .obj pivot) :
    buildMockClCommand env set "pivot" (.obj mockCl) =
      .ok (launcher ++ (pivotLine env set mockCl pivot).words) := by
  rw [PivotLine.words, spelled_pivotLine]
  simp only [buildMockClCommand, Json.getD, Json.get, h, bind, Except.bind, if_true]
  rfl

theorem buildMockClCommand_replay {mockCl replay : Dict Json}
    (h : (mockCl.get? "replay").getD (.obj []) = .obj replay) :
    buildMockClCommand env set "replay" (.obj mockCl) =
      .ok (launcher ++ (replayLine env mockCl replay).words) := by
  have hpivot : "replay" ≠ "pivot" := by simp
  rw [ReplayLine.words, spelled_replayLine]
  simp only [buildMockClCommand, Json.getD, Json.get, h, bind, Except.bind, if_true,
    if_neg hpivot]
  rfl

/-- Texts without a dash in front and integers are accepted by the parsers they get to. -/
theorem readAs_pivotLine {numbers : NumberText}
    (hstr : ∀ n, env.str (.int n) = String.ofList (JsonText.intText n))
    (hint : ∀ n, numbers.int (String.ofList (JsonText.intText n)) = some n)
    {mockCl pivot : Dict Json} {number interval : Option ℤ}
    (hnumber : pivot.get "number" = (number.map .int).getD .null)
    (hinterval : pivot.get "interval" = (interval.map .int).getD .null)
    (hplain : ∀ text ∈ [(engineLine env mockCl).engineUrl, (engineLine env mockCl).jwt,
      (pivotLine env set mockCl pivot).pivotHash, set.rpcUrl], text.toList.head? ≠ some '-') :
    (engineLine env mockCl).ReadAs numbers none ∧
      (pivotLine env set mockCl pivot).ReadAs numbers number interval := by
  have hreads : ∀ (v : Json) (n : Option ℤ), v = (n.map .int).getD .null →
      ReadsInt numbers pivotOptions (givenText env v) n := by
    rintro _ n rfl
    cases n with
    | none => rfl
    | some n =>
        show pivotOptions.look (env.str (.int n)) = .argument ∧
          ∃ k, numbers.int (env.str (.int n)) = some k ∧ some n = some k
        rw [hstr]
        exact ⟨pivotOptions.look_intText n, n, hint n, rfl⟩
  simp only [List.forall_mem_cons, List.not_mem_nil, false_implies, implies_true, and_true]
    at hplain
  obtain ⟨hurl, hjwt, hhash, hrpc⟩ := hplain
  exact ⟨⟨ArgumentParser.look_plain hurl, ArgumentParser.look_plain hjwt, rfl⟩,
    ⟨ArgumentParser.look_plain hhash, hreads _ _ hnumber, hreads _ _ hinterval,
      ArgumentParser.look_plain hrpc⟩⟩

/-- **The driver the runner launches is the one configured.**  The command is accepted exactly
where each value reads as what it is for.  Every update the driver sends is for the configured
hash, and it ends by itself only where the target says that it is synced, at most thirty-two
blocks behind the configured number. -/
theorem pivot_launched {mockCl pivot : Dict Json}
    (hpivot : (mockCl.get? "pivot").getD (.obj []) = .obj pivot) (host : SecretHost)
    (numbers : NumberText) :
    ∃ l : PivotLine, l = pivotLine env set mockCl pivot ∧
      buildMockClCommand env set "pivot" (.obj mockCl) = .ok (launcher ++ l.words) ∧
      (∀ r, main host numbers l.words = some r ↔
        ∃ number interval, l.toEngineLine.ReadAs numbers none ∧
          l.ReadAs numbers number interval ∧
          r = (host.loadSecret (some l.jwt)).map fun secret =>
            .pivot ⟨l.engineUrl, secret, 60⟩ (l.driver number interval)) ∧
      ∀ number interval start rounds finish result,
        (l.driver number interval).run start rounds finish = some (.ok result) →
          ((l.driver number interval).loop start rounds).2.sent =
              List.replicate result.ticks ⟨l.pivotHash, 3⟩ ∧
            (result.synced = true → ∃ status ∈ result.lastStatus,
              status.syncing = .bool false ∧ 0 < status.head ∧
                ∀ n ∈ number, n - 32 ≤ status.head) := by
  refine ⟨_, rfl, buildMockClCommand_pivot env set hpivot, fun r => ?_, ?_⟩
  · rw [main_pivot_iff]
    apply Iff.intro
    · rintro ⟨timeout, number, interval, hengine, hline, rfl⟩
      obtain rfl : timeout = none := hengine.engineTimeout
      exact ⟨number, interval, hengine, hline, rfl⟩
    · rintro ⟨number, interval, hengine, hline, rfl⟩
      exact ⟨none, number, interval, hengine, hline, rfl⟩
  · intro number interval start rounds finish result hresult
    obtain ⟨hsent, hsynced, -⟩ := PivotDriver.returned_cases hresult
    exact ⟨hsent, hsynced.mp⟩

/-- Values as the witness prints them. -/
def printing : PathEnv where
  str
    | .str s => s
    | .int n => String.ofList (JsonText.intText n)
    | _ => ""
  resolve := id

def reading : NumberText where
  float _ := none
  int text :=
    match JsonText.readNumber (fun _ => 0) text.toList with
    | some (.int n, []) => some n
    | _ => none

def launchPivot : Dict Json := [("hash", .str "0xpivot"), ("number", .int 100)]

def launchSection : Dict Json := [("jwt", .str "0x2a"), ("pivot", .obj launchPivot)]

def launchSettings : Settings where
  rpcUrl := "http://localhost:8545"
  sshPrefix := none
  manageInfra := true
  monitoringCompose := "docker/docker-compose.monitoring.yml"
  clientsCompose := "docker/docker-compose.clients.yml"
  composeCommand := ["docker", "compose"]
  envFileExists := false
  consensusMode := "mock"
  mockCl := .obj launchSection
  stopTimeoutSec := 600
  overlay := .null
  configPath := "config.yml"
  dataDirs := []
  config := .obj []
  rpcStartupTimeout := 300

/-- The driver of a frozen pivot with a secret in place. -/
theorem pivot_launched_number :
    ∃ words, buildMockClCommand printing launchSettings "pivot" launchSettings.mockCl =
        .ok (launcher ++ words) ∧
      main ⟨fun _ => none, [], fun _ => []⟩ reading words =
        some (.ok (.pivot ⟨"http://localhost:8551", [0x2a], 60⟩
          ⟨"0xpivot", 12, 3, some "http://localhost:8545", some 100, true, none⟩)) := by
  obtain ⟨l, hl, hbuild, hmain, -⟩ := @pivot_launched printing launchSettings launchSection
    launchPivot rfl ⟨fun _ => none, [], fun _ => []⟩ reading
  have hreads := @readAs_pivotLine printing launchSettings reading (fun _ => rfl) ?_ launchSection
    launchPivot (some 100) none rfl rfl ?_
  · refine ⟨l.words, hbuild, (hmain _).mpr ⟨some 100, none, ?_, ?_, ?_⟩⟩
    · rw [hl]
      exact hreads.1
    · rw [hl]
      exact hreads.2
    · rw [hl]
      rfl
  · intro n
    have hread := @JsonText.readNumber_intText (fun _ => 0) n [] nofun
    simp only [reading, String.toList_ofList]
    rw [List.append_nil] at hread
    rw [hread]
  · simp [engineLine, pivotLine, launchSection, launchPivot, launchSettings, printing,
      Dict.get?_cons, Dict.get?_nil]

end StateBenchmarks.Orchestrator
