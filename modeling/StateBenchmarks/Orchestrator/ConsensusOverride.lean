/-
# Overriding the consensus driver

`CONSENSUS` in the environment or in `.env` is documented to override the
configuration, so that the `.env` that configures compose can disable the start of
Lighthouse.  It overrides `nodes.consensus`, which is the default of
`nodes.consensus_mode`; where the latter is set, as in the configuration shipped,
the former is not looked at.
-/

import StateBenchmarks.Orchestrator.DriverProcess

namespace StateBenchmarks.Orchestrator

open Python Control

/-- Under the mode `start_infrastructure` starts no Lighthouse service, whatever the
other settings and however the commands end. -/
def StartsNoLighthouse (mode : String) : Prop :=
  ∀ (σ : Type) (W : Workstation σ) (env : PathEnv) (set : Settings) (client : String) (s : σ),
    set.consensusMode = mode →
      ∀ e ∈ (Script.stateOf (startInfrastructure W.traced.toMachine env set client
        (Traced.start s))).events, ∀ service, e.1 ≠ .command (.lighthouseUp service)

/-- The texts `env_flag` takes for true. -/
def IsTruthyText (raw : String) : Prop := lower (strip raw) ∈ ["1", "true", "yes", "on"]

instance (raw : String) : Decidable (IsTruthyText raw) := inferInstanceAs (Decidable (_ ∈ _))

variable (env : PathEnv) (vars : EnvVars) (nodes : Json)

/-- `CONSENSUS` alone is set, and not to a text for true. -/
def Disables : Prop :=
  vars.get "CONSENSUS_MODE" = none ∧ ∃ raw, vars.get "CONSENSUS" = some raw ∧ ¬ IsTruthyText raw

/-- What is documented of `CONSENSUS`: it disables Lighthouse, the process comes before
`.env`, and without the variables the configuration decides. -/
structure OverridesConfig : Prop where
  disables : Disables vars →
    ∃ mode, resolveConsensusMode env vars nodes = .ok mode ∧ StartsNoLighthouse mode
  processFirst : ∀ envFile,
    (∀ name ∈ ["CONSENSUS", "CONSENSUS_MODE"], Dict.get? vars.environ name = none →
      Dict.get? (readEnvFile envFile) name = Dict.get? (readEnvFile vars.envFile) name) →
    resolveConsensusMode env { vars with envFile := envFile } nodes =
      resolveConsensusMode env vars nodes
  configAlone : vars.get "CONSENSUS" = none → vars.get "CONSENSUS_MODE" = none →
    resolveConsensusMode env vars nodes = resolveConsensusMode env ⟨[], none⟩ nodes

variable {σ : Type} {W : Workstation σ} {set : Settings}

/-- A history in which no Lighthouse was started. -/
abbrev NoLighthouse : Traced StationOp σ → Prop :=
  Traced.Satisfies (fun _ => True)
    fun label _ => ∀ service, label ≠ .command (.lighthouseUp service)

theorem noLighthouse_perform {α : Type} {label : StationOp}
    (h : ∀ service, label ≠ .command (.lighthouseUp service)) (operation : σ → α × σ)
    (r : Traced StationOp σ) (hr : NoLighthouse r) :
    NoLighthouse (Traced.perform label operation r).2 :=
  Traced.Satisfies.perform hr h trivial

theorem noLighthouse_subprocess {call : Call} (h : ∀ service, call ≠ .lighthouseUp service) :
    ∀ r : Traced StationOp σ, NoLighthouse r → NoLighthouse (W.traced.subprocess call r).2 :=
  noLighthouse_perform (fun service heq => h service (StationOp.command.inj heq)) _

theorem sparesNode_noLighthouse : SparesNode W.traced.toMachine NoLighthouse where
  overlay _ := noLighthouse_subprocess fun _ heq => by cases heq
  monitoringUp := noLighthouse_subprocess fun _ heq => by cases heq
  clientUp _ _ := noLighthouse_subprocess fun _ heq => by cases heq

/-- Under every mode but that of Lighthouse none is started. -/
theorem keeps_startConsensus_noLighthouse (h : set.consensusMode ≠ "lighthouse")
    (client : String) :
    Script.Keeps NoLighthouse (startConsensus W.traced.toMachine env set client) := by
  rw [startConsensus, if_neg h]
  split_ifs
  · have hpopen : ∀ service, StationOp.popen ≠ .command (.lighthouseUp service) :=
      fun _ heq => by cases heq
    have hsetProc : ∀ service, StationOp.setProc ≠ .command (.lighthouseUp service) :=
      fun _ heq => by cases heq
    exact Script.Keeps.bind (Script.Keeps.ofExcept _) (keeps_openMockCl
      (fun _ => noLighthouse_perform hpopen _)
      (fun proc => noLighthouse_perform hsetProc fun s => ((), W.setProc proc s)))
  · exact Script.Keeps.pure _

theorem noLighthouse_startInfrastructure (h : set.consensusMode ≠ "lighthouse") (client : String)
    (s : σ) : NoLighthouse (Script.stateOf (startInfrastructure W.traced.toMachine env set client
      (Traced.start s))) := by
  have hstart : NoLighthouse (Traced.start s : Traced StationOp σ) :=
    Traced.satisfies_start trivial
  cases hmanage : set.manageInfra with
  | false =>
      rw [startInfrastructure, hmanage]
      exact hstart
  | true =>
      exact keeps_startInfrastructure_of_consensus sparesNode_noLighthouse (fun _ => id) hmanage
        (keeps_startConsensus_noLighthouse env h client) hstart

/-- A workstation on which every command succeeds. -/
def obliging : Workstation PUnit where
  subprocess _ s := (some ⟨0, ""⟩, s)
  proc _ := none
  setProc _ s := s
  popen _ s := (some 1, s)
  terminate _ s := (.ok ⟨⟩, s)
  wait _ s := (.ok ⟨⟩, s)
  kill _ s := (.ok ⟨⟩, s)
  makedirs _ s := (.ok ⟨⟩, s)
  waitForRpc s := (.ok true, s)
  measureSyncTime s := (.ok none, s)
  syncMetrics _ _ _ := .absent
  writeSyncMetrics _ _ _ s := (.ok ⟨⟩, s)
  seedState _ := .absent

/-- Lighthouse is started under its own mode only. -/
theorem startsNoLighthouse_iff (mode : String) : StartsNoLighthouse mode ↔ mode ≠ "lighthouse" := by
  apply Iff.intro
  · rintro h rfl
    have hevents := h PUnit obliging plainText managedSettings "geth" ⟨⟩ rfl
    have hstarted : (Script.stateOf (startInfrastructure obliging.traced.toMachine plainText
        managedSettings "geth" (Traced.start ⟨⟩))).events.head? =
        some (.command (.lighthouseUp "geth"), ⟨⟩) := rfl
    exact hevents _ (List.mem_of_head? hstarted) "geth" rfl
  · rintro hne σ W env set client s rfl
    exact (noLighthouse_startInfrastructure env hne client s).past

theorem flag_eq_false_iff {vars : EnvVars} {raw : String} (h : vars.get "CONSENSUS" = some raw)
    (default : Bool) : vars.flag "CONSENSUS" default = false ↔ ¬ IsTruthyText raw := by
  rw [EnvVars.flag, h, IsTruthyText, ← Bool.not_eq_true]
  exact not_congr List.contains_iff_mem

/-- The environment is used through what the two variables are found to be. -/
theorem resolveConsensusMode_congr {vars vars' : EnvVars}
    (h : ∀ name ∈ ["CONSENSUS", "CONSENSUS_MODE"], vars'.get name = vars.get name) :
    resolveConsensusMode env vars' nodes = resolveConsensusMode env vars nodes := by
  have hconsensus := h "CONSENSUS" (by simp)
  have hmode := h "CONSENSUS_MODE" (by simp)
  have hflag : ∀ default, vars'.flag "CONSENSUS" default = vars.flag "CONSENSUS" default :=
    fun default => by rw [EnvVars.flag, EnvVars.flag, hconsensus]
  simp only [resolveConsensusMode, hflag, hmode]

theorem get_eq_of_environ {vars : EnvVars} {envFile : Option String} {name : String}
    (h : Dict.get? vars.environ name = none →
      Dict.get? (readEnvFile envFile) name = Dict.get? (readEnvFile vars.envFile) name) :
    ({ vars with envFile := envFile } : EnvVars).get name = vars.get name := by
  rw [EnvVars.get, EnvVars.get]
  cases hfound : Dict.get? vars.environ name with
  | none => rw [h hfound]
  | some value => rfl

variable {env vars}

/-- With `CONSENSUS` set to a text that is not for true, the mode configured or the mode
without a driver. -/
theorem resolveConsensusMode_of_disables (hstr : ∀ s, env.str (.str s) = s) (h : Disables vars)
    (fields : Dict Json) :
    resolveConsensusMode env vars (.obj fields) =
      .ok (((Dict.get? fields "consensus_mode").map env.str).getD "none") := by
  obtain ⟨hmode, raw, hraw, hfalse⟩ := h
  simp only [resolveConsensusMode, Json.getD, bind, Except.bind, hmode,
    (flag_eq_false_iff hraw _).mpr hfalse]
  cases Dict.get? fields "consensus_mode" with
  | none => exact congrArg Except.ok (hstr "none")
  | some v => rfl

/-- **`CONSENSUS` overrides the configuration exactly where `nodes.consensus_mode` does not
say Lighthouse; the process comes before `.env` in any case.** -/
theorem overridesConfig_iff (hstr : ∀ s, env.str (.str s) = s) (fields : Dict Json) :
    OverridesConfig env vars (.obj fields) ↔
      (Disables vars →
        ∀ v, Dict.get? fields "consensus_mode" = some v → env.str v ≠ "lighthouse") := by
  apply Iff.intro
  · intro h hdisables v hv
    obtain ⟨mode, hresolved, hstarts⟩ := h.disables hdisables
    rw [resolveConsensusMode_of_disables hstr hdisables, hv] at hresolved
    cases hresolved
    exact (startsNoLighthouse_iff _).mp hstarts
  · intro h
    refine ⟨fun hdisables => ?_, fun envFile hfile => ?_, fun hconsensus hmode => ?_⟩
    · refine ⟨_, resolveConsensusMode_of_disables hstr hdisables fields,
        (startsNoLighthouse_iff _).mpr ?_⟩
      cases hv : Dict.get? fields "consensus_mode" with
      | none => exact (by decide : "none" ≠ "lighthouse")
      | some v => exact h hdisables v hv
    · exact resolveConsensusMode_congr env _ fun name hname => get_eq_of_environ (hfile name hname)
    · refine resolveConsensusMode_congr env _ fun name hname => ?_
      rcases List.mem_pair.mp hname with rfl | rfl
      · exact hconsensus
      · exact hmode

/-- `CONSENSUS=false` in `.env`, with the legacy key alone. -/
theorem overridesConfig_legacy :
    OverridesConfig plainText ⟨[], some "CONSENSUS=false\n"⟩ (.obj [("consensus", .bool true)]) :=
  (overridesConfig_iff (fun _ => rfl) _).mpr fun _ v hv => by cases hv

/-- The `nodes` section shipped, of which the first key is overridden. -/
def shippedNodes : Json :=
  .obj [("consensus", .bool true), ("consensus_mode", .str "lighthouse")]

/-- It resolves to Lighthouse under `CONSENSUS=false`. -/
theorem shippedNodes_not_overridden :
    resolveConsensusMode plainText ⟨[("CONSENSUS", "false")], none⟩ shippedNodes =
        .ok "lighthouse" ∧
      ¬ OverridesConfig plainText ⟨[("CONSENSUS", "false")], none⟩ shippedNodes := by
  have hresolved : resolveConsensusMode plainText ⟨[("CONSENSUS", "false")], none⟩ shippedNodes =
      .ok "lighthouse" := by rfl
  refine ⟨hresolved, fun h => ?_⟩
  have hfalse : ¬ IsTruthyText "false" := by decide
  obtain ⟨mode, hmode, hstarts⟩ := h.disables ⟨rfl, "false", rfl, hfalse⟩
  rw [hresolved] at hmode
  cases hmode
  exact (startsNoLighthouse_iff _).mp hstarts rfl

end StateBenchmarks.Orchestrator
