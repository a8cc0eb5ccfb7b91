/-
# The background driver over a matrix of clients

In mock mode every client's run starts a pivot driver in the background, and
`MOCK_CL_PROC` holds the last one started.  `main` runs the clients one after
the other, going on where one fails.  Between two of them the driver is stopped
only if the stack is torn down, which by default it is not: the next client's
driver is started beside it, and nothing holds the first one any more.
-/

import StateBenchmarks.Control.Traced
import StateBenchmarks.Orchestrator.ConsensusMode

namespace StateBenchmarks.Orchestrator

open Python Control

variable {σ : Type} (W : Workstation σ) (env : PathEnv) (numbers : NumberText) (set : Settings)
  (job : Benchmark)

/-- The loop of `main`: a failing client does not abort the rest. -/
def runClients (clients : List String) : Script Exn σ PUnit :=
  clients.forM fun client =>
    Script.suppress (fun _ => true) ({ job with client := client }.run W env numbers set)

/-- What is done to a workstation. -/
inductive StationOp where
  | command (call : Call)
  | setProc
  | popen
  | terminate
  | wait
  | kill
  | makedirs
  | waitForRpc
  | measureSyncTime
  | writeSyncMetrics

/-- The workstation with its history. -/
def Workstation.traced : Workstation (Traced StationOp σ) where
  subprocess call := Traced.perform (.command call) (W.subprocess call)
  proc r := W.proc r.now
  setProc proc r := (Traced.perform .setProc (fun s => ((), W.setProc proc s)) r).2
  popen cmd := Traced.perform .popen (W.popen cmd)
  terminate pid := Traced.perform .terminate (W.terminate pid)
  wait pid := Traced.perform .wait (W.wait pid)
  kill pid := Traced.perform .kill (W.kill pid)
  makedirs path := Traced.perform .makedirs (W.makedirs path)
  waitForRpc := Traced.perform .waitForRpc W.waitForRpc
  measureSyncTime := Traced.perform .measureSyncTime W.measureSyncTime
  syncMetrics dir client r := W.syncMetrics dir client r.now
  writeSyncMetrics dir client payload :=
    Traced.perform .writeSyncMetrics (W.writeSyncMetrics dir client payload)
  seedState r := W.seedState r.now

/-- The matrix from a state, with what is done. -/
def matrix (clients : List String) (s : σ) : Traced StationOp σ :=
  Script.stateOf (runClients W.traced env numbers set job clients (Traced.start s))

/-- No driver comes up, and the handle stays. -/
structure Calm (alive : σ → Finset ℕ) (s t : σ) : Prop where
  alive : alive t ⊆ alive s
  proc : W.proc t = W.proc s

/-- `alive` are the started drivers that are alive: they come up by being started,
and are gone once they have been waited for or killed. -/
structure ProcessTable (alive : σ → Finset ℕ) : Prop where
  subprocess : ∀ call s, Calm W alive s (W.subprocess call s).2
  makedirs : ∀ path s, Calm W alive s (W.makedirs path s).2
  waitForRpc : ∀ s, Calm W alive s (W.waitForRpc s).2
  measureSyncTime : ∀ s, Calm W alive s (W.measureSyncTime s).2
  writeSyncMetrics : ∀ dir client payload s,
    Calm W alive s (W.writeSyncMetrics dir client payload s).2
  terminate : ∀ pid s, Calm W alive s (W.terminate pid s).2
  wait : ∀ pid s, Calm W alive s (W.wait pid s).2
  kill : ∀ pid s, Calm W alive s (W.kill pid s).2
  setProc : ∀ proc s, alive (W.setProc proc s) ⊆ alive s ∧ W.proc (W.setProc proc s) = proc
  failed : ∀ cmd s t, W.popen cmd s = (none, t) → Calm W alive s t
  started : ∀ cmd s pid t, W.popen cmd s = (some pid, t) → alive t ⊆ insert pid (alive s)
  waited : ∀ pid s t, W.wait pid s = (.ok ⟨⟩, t) → pid ∉ alive t
  killed : ∀ pid s t, W.kill pid s = (.ok ⟨⟩, t) → pid ∉ alive t

/-- The signals `stop_mock_cl` sends are delivered; only waiting can time out. -/
structure SignalsDelivered : Prop where
  terminate : ∀ pid s, (W.terminate pid s).1 = .ok ⟨⟩
  wait : ∀ pid s e, (W.wait pid s).1 = .error e → e = .external "TimeoutExpired"
  kill : ∀ pid s, (W.kill pid s).1 = .ok ⟨⟩

/-- At any time at most one driver is alive, and none is after a client whose
infrastructure was stopped. -/
structure OneDriver (alive : σ → Finset ℕ) (clients : List String) (s : σ) : Prop where
  one : ∀ done, done <+: clients →
    ∀ t ∈ (matrix W env numbers set job done s).reached, (alive t).card ≤ 1
  stopped : job.stopMonitoring = true → ∀ done, done <+: clients →
    alive (matrix W env numbers set job done s).now = ∅

/-- The configuration lets a driver be started. -/
def Startable : Prop :=
  (∃ enabled, overlayEnabled env set = .ok enabled) ∧
    ∃ cmd, buildMockClCommand env set "pivot" set.mockCl = .ok cmd

variable {W env numbers set job} {alive : σ → Finset ℕ}

/-- No driver is alive. -/
def Idle (alive : σ → Finset ℕ) (s : σ) : Prop := alive s = ∅

variable (W) in
/-- The handle holds the driver that is alive, if one is. -/
def Held (alive : σ → Finset ℕ) (s : σ) : Prop := ∀ pid ∈ alive s, W.proc s = some pid

/-- The state is as `P` says, and there never was more than one driver. -/
abbrev Phase (alive : σ → Finset ℕ) (P : σ → Prop) : Traced StationOp σ → Prop :=
  Traced.Satisfies P fun _ s => (alive s).card ≤ 1

theorem Idle.held {s : σ} (h : Idle alive s) : Held W alive s := by
  intro pid hpid
  rw [h] at hpid
  cases hpid

theorem Held.card_le_one {s : σ} (h : Held W alive s) : (alive s).card ≤ 1 :=
  Finset.card_le_one.mpr fun _ ha _ hb => Option.some.inj ((h _ ha).symm.trans (h _ hb))

theorem Idle.of_subset {s t : σ} (hsub : alive t ⊆ alive s) (h : Idle alive s) : Idle alive t :=
  Finset.subset_empty.mp (h ▸ hsub)

theorem Held.calm {s t : σ} (hcalm : Calm W alive s t) (h : Held W alive s) :
    Held W alive t := by
  intro pid hpid
  rw [hcalm.proc]
  exact h pid (hcalm.alive hpid)

variable (W) in
/-- A property of states that only the driver coming up can break, and that never
holds of more than one driver. -/
structure Stable (alive : σ → Finset ℕ) (P : σ → Prop) : Prop where
  calm : ∀ {s t : σ}, Calm W alive s t → P s → P t
  card : ∀ s, P s → (alive s).card ≤ 1

theorem stable_idle : Stable W alive (Idle alive) :=
  ⟨fun hcalm => Idle.of_subset hcalm.alive, fun _ h => (h.held (W := W)).card_le_one⟩

theorem stable_held : Stable W alive (Held W alive) := ⟨Held.calm, fun _ => Held.card_le_one⟩

namespace Stable

variable {P : σ → Prop}

/-- An operation that starts no driver keeps the phase. -/
theorem perform {α : Type} {label : StationOp} {operation : σ → α × σ} (h : Stable W alive P)
    (hcalm : ∀ s, Calm W alive s (operation s).2) (r : Traced StationOp σ)
    (hr : Phase alive P r) : Phase alive P (Traced.perform label operation r).2 :=
  Traced.Satisfies.perform hr (h.card _ hr.now) (h.calm (hcalm r.now) hr.now)

theorem subprocess (h : Stable W alive P) (htable : ProcessTable W alive) (call : Call)
    (r : Traced StationOp σ) (hr : Phase alive P r) :
    Phase alive P (W.traced.subprocess call r).2 :=
  h.perform (htable.subprocess call) r hr

theorem steady (h : Stable W alive P) (htable : ProcessTable W alive) :
    Steady W.traced (Phase alive P) where
  subprocess call _ := h.subprocess htable call
  makedirs path := h.perform (htable.makedirs path)
  waitForRpc := h.perform htable.waitForRpc
  measureSyncTime := h.perform htable.measureSyncTime
  writeSyncMetrics dir client payload := h.perform (htable.writeSyncMetrics dir client payload)

theorem sparesCommands (h : Stable W alive P) (htable : ProcessTable W alive) :
    SparesCommands W.traced.toMachine (Phase alive P) := fun call _ => h.subprocess htable call

/-- The body keeps a phase that its start leads to. -/
theorem body (h : Stable W alive P) (htable : ProcessTable W alive) {r : Traced StationOp σ}
    (hstart : Phase alive P
      (Script.stateOf (startInfrastructure W.traced.toMachine env set job.client r))) :
    Phase alive P (Script.stateOf (job.body W.traced env numbers set r)) := by
  have hsteady := h.steady htable
  rw [Benchmark.body]
  refine Script.Keeps.after hstart fun _ => ?_
  refine Script.Keeps.bind hsteady.keeps_awaitRpc fun up => ?_
  split_ifs
  · apply Script.Keeps.bind (hsteady.keeps_measure job)
    intro _
    apply Script.Keeps.bind
    · exact hsteady.keeps_runLocustLoadTest fun addresses => h.subprocess htable _
    · intro _
      exact Script.Keeps.bind (keeps_runCmd (h.subprocess htable _) _) fun _ =>
        Script.Keeps.pure _
  · exact fun r hr => hr

end Stable

/-- Opening a driver where none is alive, at most that driver is, and it is held. -/
theorem held_of_openMockCl (htable : ProcessTable W alive) (cmd : List String)
    {r : Traced StationOp σ} (hr : Phase alive (Idle alive) r) :
    Phase alive (Held W alive) (Script.stateOf (openMockCl W.traced.toMachine cmd r)) := by
  have hcard := stable_idle.card r.now hr.now (W := W)
  rcases hopened : W.popen cmd r.now with ⟨_ | pid, t⟩
  · have hstate : Script.stateOf (openMockCl W.traced.toMachine cmd r) =
        (Traced.perform .popen (W.popen cmd) r).2 := by
      rw [openMockCl, show W.traced.popen cmd r = Traced.perform .popen (W.popen cmd) r from rfl,
        Traced.perform, hopened]
      rfl
    rw [hstate]
    apply hr.perform hcard
    rw [hopened]
    exact (hr.now.of_subset (htable.failed cmd r.now t hopened).alive).held
  · have hstate : Script.stateOf (openMockCl W.traced.toMachine cmd r) =
        (Traced.perform .setProc (fun s => ((), W.setProc (some pid) s))
          (Traced.perform .popen (W.popen cmd) r).2).2 := by
      rw [openMockCl, show W.traced.popen cmd r = Traced.perform .popen (W.popen cmd) r from rfl,
        Traced.perform, hopened]
      rfl
    rw [hstate]
    have hnew : alive t ⊆ {pid} := by
      have hstarted := htable.started cmd r.now pid t hopened
      rw [show alive r.now = ∅ from hr.now] at hstarted
      exact hstarted
    have hopen : Phase alive (fun s => alive s ⊆ {pid})
        (Traced.perform .popen (W.popen cmd) r).2 := by
      apply hr.perform hcard
      rw [hopened]
      exact hnew
    apply hopen.perform
    · exact (Finset.card_le_card hopen.now).trans (Finset.card_singleton pid).le
    · obtain ⟨hsub, hproc⟩ :=
        htable.setProc (some pid) (Traced.perform .popen (W.popen cmd) r).2.now
      intro other hother
      rw [hproc, Finset.mem_singleton.mp (hopen.now (hsub hother))]

/-- Where the configuration is for the mock driver, the consensus part starts it. -/
theorem held_of_startConsensus (htable : ProcessTable W alive)
    (hmode : set.consensusMode = "mock") {client : String} {r : Traced StationOp σ}
    (hr : Phase alive (Idle alive) r) :
    Phase alive (Held W alive)
      (Script.stateOf (startConsensus W.traced.toMachine env set client r)) := by
  rw [startConsensus, if_neg (by rw [hmode]; decide), if_pos hmode]
  apply Script.Keeps.leads (Script.Keeps.ofExcept _) _ _ hr
  · exact fun _ hidle => hidle.imp fun h => h.held
  · exact fun cmd _ hidle => held_of_openMockCl htable cmd hidle

theorem held_of_startInfrastructure (htable : ProcessTable W alive)
    (hmode : set.consensusMode = "mock") (hmanage : set.manageInfra = true) {client : String}
    {r : Traced StationOp σ} (hr : Phase alive (Idle alive) r) :
    Phase alive (Held W alive)
      (Script.stateOf (startInfrastructure W.traced.toMachine env set client r)) := by
  apply keeps_startInfrastructure_of_consensus (stable_idle.sparesCommands htable).node _ hmanage
    _ hr
  · exact fun _ hidle => hidle.imp fun h => h.held
  · exact fun _ hidle => held_of_startConsensus htable hmode hidle

/-- Where the configuration lets no driver be started, none is. -/
theorem idle_of_not_startable (htable : ProcessTable W alive)
    (hmode : set.consensusMode = "mock") (hmanage : set.manageInfra = true)
    (hstartable : ¬ Startable env set) {client : String} {r : Traced StationOp σ}
    (hr : Phase alive (Idle alive) r) :
    Phase alive (Idle alive)
      (Script.stateOf (startInfrastructure W.traced.toMachine env set client r)) := by
  have hspares := stable_idle.sparesCommands (W := W) htable
  cases hoverlay : overlayEnabled env set with
  | error e =>
      rw [startInfrastructure, if_pos hmanage]
      apply Script.Keeps.bind_of_raises (keeps_startOverlay hspares.node)
      · rw [startOverlay, hoverlay]
        exact Script.Raises.bind (fun r => ⟨e, r, rfl⟩) _
      · exact hr
  | ok enabled =>
      apply keeps_startInfrastructure_of_consensus hspares.node (fun _ => id) hmanage _ hr
      intro r hr
      rw [startConsensus, if_neg (by rw [hmode]; decide), if_pos hmode]
      cases hcmd : buildMockClCommand env set "pivot" set.mockCl with
      | error e => exact hr
      | ok cmd => exact absurd ⟨⟨enabled, hoverlay⟩, cmd, hcmd⟩ hstartable

theorem stable_among (pid : ℕ) : Stable W alive fun s => alive s ⊆ {pid} :=
  ⟨fun hcalm h => hcalm.alive.trans h,
    fun _ h => (Finset.card_le_card h).trans (Finset.card_singleton pid).le⟩

/-- Once the one driver that may be alive has been signalled, none is left: either it
ends in time, or it is killed. -/
theorem idle_of_wait (htable : ProcessTable W alive) (hsignals : SignalsDelivered W) {pid : ℕ}
    {r : Traced StationOp σ} (hr : Phase alive (fun s => alive s ⊆ {pid}) r) :
    Phase alive (Idle alive) (Script.stateOf
      (Script.handle (procStep W.traced.wait pid) (stopFailed W.traced.toMachine pid) r)) := by
  have hstable : Stable W alive fun s => alive s ⊆ {pid} := stable_among pid
  have hgone : ∀ s, alive s ⊆ {pid} → pid ∉ alive s → Idle alive s := by
    intro s hsub hpid
    refine Finset.eq_empty_of_forall_notMem fun other hother => hpid ?_
    rwa [Finset.mem_singleton.mp (hsub hother)] at hother
  have hwaited : Phase alive (fun s => alive s ⊆ {pid}) (W.traced.wait pid r).2 :=
    hstable.perform (htable.wait pid) r hr
  rw [Script.handle]
  cases hended : (W.traced.wait pid r).1 with
  | ok _ =>
      rw [procStep_of_ok hended]
      exact hwaited.imp fun hsub => hgone _ hsub (htable.waited pid r.now _ (Prod.ext hended rfl))
  | error e =>
      rw [procStep_of_error hended]
      cases hsignals.wait pid r.now e hended
      have hkilled : (W.traced.kill pid (W.traced.wait pid r).2).1 = .ok ⟨⟩ :=
        hsignals.kill pid _
      show Phase alive (Idle alive)
        (Script.stateOf (procStep W.traced.kill pid (W.traced.wait pid r).2))
      rw [procStep_of_ok hkilled]
      refine (hstable.perform (htable.kill pid) _ hwaited).imp fun hsub => hgone _ hsub ?_
      exact htable.killed pid _ _ (Prod.ext hkilled rfl)

/-- Stopping the driver that is held, none is left: either it ends in time, or it
is killed. -/
theorem idle_of_stopMockCl (htable : ProcessTable W alive) (hsignals : SignalsDelivered W)
    {r : Traced StationOp σ} (hr : Phase alive (Held W alive) r) :
    Phase alive (Idle alive) (Script.stateOf (stopMockCl W.traced.toMachine r)) := by
  rw [stopMockCl]
  cases hproc : W.proc r.now with
  | none =>
      rw [show W.traced.proc r = none from hproc]
      refine hr.imp fun hheld => Finset.eq_empty_of_forall_notMem fun pid hpid => ?_
      cases hproc.symm.trans (hheld pid hpid)
  | some pid =>
      rw [show W.traced.proc r = some pid from hproc, Script.stateOf_finallyDo]
      have hamong : Phase alive (fun s => alive s ⊆ {pid}) r := by
        refine hr.imp fun hheld other hother => Finset.mem_singleton.mpr ?_
        exact Option.some.inj ((hheld other hother).symm.trans hproc)
      have hterminated : Phase alive (fun s => alive s ⊆ {pid})
          (W.traced.terminate pid r).2 :=
        (stable_among pid).perform (htable.terminate pid) r hamong
      have hended := idle_of_wait htable hsignals hterminated
      have hcleared : Script.Keeps (Phase alive (Idle alive))
          (modify (W.traced.setProc none) : Script Exn (Traced StationOp σ) PUnit) := by
        intro r hr
        show Phase alive (Idle alive)
          (Traced.perform .setProc (fun s => ((), W.setProc none s)) r).2
        apply hr.perform (stable_idle.card r.now hr.now (W := W))
        exact hr.now.of_subset (htable.setProc none r.now).1
      apply hcleared
      have hsent : procStep W.traced.terminate pid r = .ok ⟨⟩ (W.traced.terminate pid r).2 :=
        procStep_of_ok (hsignals.terminate pid r.now)
      rw [Script.handle, Script.bind_of_ok hsent]
      exact hended

theorem idle_of_stopInfrastructure (htable : ProcessTable W alive)
    (hsignals : SignalsDelivered W) (hmanage : set.manageInfra = true) {r : Traced StationOp σ}
    (hr : Phase alive (Held W alive) r) :
    Phase alive (Idle alive)
      (Script.stateOf (stopInfrastructure W.traced.toMachine env set r)) := by
  have hspares := stable_idle.sparesCommands (W := W) htable
  rw [stopInfrastructure, if_pos hmanage]
  apply Script.Keeps.after (idle_of_stopMockCl htable hsignals hr)
  intro _
  apply Script.Keeps.bind (keeps_composeDown hspares)
  intro _
  exact keeps_stopOverlay hspares

/-! ## One client -/

/-- A benchmark ends in `Q` if its start leads from no driver to `P`, and its last
part from `P` to `Q`. -/
theorem phase_of_run (htable : ProcessTable W alive) {P Q : σ → Prop} (hP : Stable W alive P)
    (hweaken : ∀ s, Idle alive s → Q s)
    (hstart : ∀ r, Phase alive (Idle alive) r →
      Phase alive P (Script.stateOf (startInfrastructure W.traced.toMachine env set job.client r)))
    (hlast : ∀ r, Phase alive P r →
      Phase alive Q (Script.stateOf ((if job.stopMonitoring then
        stopInfrastructure W.traced.toMachine env set else return ⟨⟩ :
          Script Exn (Traced StationOp σ) PUnit) r)))
    {r : Traced StationOp σ} (hr : Phase alive (Idle alive) r) :
    Phase alive Q (Script.stateOf (job.run W.traced env numbers set r)) := by
  have hsteady := stable_idle.steady (W := W) htable
  rw [Benchmark.run]
  apply Script.Keeps.leads (keeps_attempt (hsteady.makedirs _)) _ _ hr
  · exact fun _ hidle => hidle.imp (hweaken _)
  · intro _ r hr
    rw [Script.stateOf_finallyDo]
    exact hlast _ (hP.body htable (hstart r hr))

/-- A benchmark started without a driver leaves at most the one it holds. -/
theorem held_of_run (htable : ProcessTable W alive) (hmode : set.consensusMode = "mock")
    (hmanage : set.manageInfra = true) (hstop : job.stopMonitoring = false)
    {r : Traced StationOp σ} (hr : Phase alive (Idle alive) r) :
    Phase alive (Held W alive) (Script.stateOf (job.run W.traced env numbers set r)) := by
  apply phase_of_run htable stable_held _ _ _ hr
  · exact fun _ hidle => hidle.held
  · exact fun r hr => held_of_startInfrastructure htable hmode hmanage hr
  · intro r hr
    rw [hstop]
    exact hr

/-- A benchmark that tears its infrastructure down, or starts no driver, leaves
none. -/
theorem keeps_idle_run (htable : ProcessTable W alive) (hsignals : SignalsDelivered W)
    (hmode : set.consensusMode = "mock") (hmanage : set.manageInfra = true)
    (h : job.stopMonitoring = true ∨ ¬ Startable env set) :
    Script.Keeps (Phase alive (Idle alive)) (job.run W.traced env numbers set) := by
  intro r hr
  rcases h with hstop | hstartable
  · apply phase_of_run htable stable_held (fun _ => id) _ _ hr
    · exact fun r hr => held_of_startInfrastructure htable hmode hmanage hr
    · intro r hr
      rw [if_pos hstop]
      exact idle_of_stopInfrastructure htable hsignals hmanage hr
  · apply phase_of_run htable stable_idle (fun _ => id) _ _ hr
    · exact fun r hr => idle_of_not_startable htable hmode hmanage hstartable hr
    · intro r hr
      split_ifs
      · exact idle_of_stopInfrastructure htable hsignals hmanage (hr.imp fun h => h.held)
      · exact hr

theorem keeps_idle_matrix (htable : ProcessTable W alive) (hsignals : SignalsDelivered W)
    (hmode : set.consensusMode = "mock") (hmanage : set.manageInfra = true)
    (h : job.stopMonitoring = true ∨ ¬ Startable env set) (clients : List String) :
    Script.Keeps (Phase alive (Idle alive)) (runClients W.traced env numbers set job clients) := by
  apply Script.Keeps.forM
  intro client
  exact Script.Keeps.suppress (keeps_idle_run htable hsignals hmode hmanage h)

theorem held_of_matrix_single (htable : ProcessTable W alive)
    (hmode : set.consensusMode = "mock") (hmanage : set.manageInfra = true)
    (hstop : job.stopMonitoring = false) (client : String) {s : σ} (hs : Idle alive s) :
    Phase alive (Held W alive) (matrix W env numbers set job [client] s) := by
  have hstart : Phase alive (Idle alive) (Traced.start s) := Traced.satisfies_start hs
  rw [matrix, runClients, Script.forM_cons]
  refine Script.Keeps.after ?_ fun _ => Script.Keeps.pure _
  rw [Script.stateOf_suppress]
  have hstop' : { job with client := client }.stopMonitoring = false := hstop
  exact held_of_run htable hmode hmanage hstop' hstart

/-- There is at most one driver where every infrastructure is torn down, where
there is one client, and where no driver can be started. -/
theorem oneDriver_of (htable : ProcessTable W alive) (hsignals : SignalsDelivered W)
    (hmode : set.consensusMode = "mock") (hmanage : set.manageInfra = true)
    {clients : List String}
    (h : job.stopMonitoring = true ∨ clients.length ≤ 1 ∨ ¬ Startable env set) {s : σ}
    (hs : Idle alive s) : OneDriver W env numbers set job alive clients s := by
  have hstart : Phase alive (Idle alive) (Traced.start s) := Traced.satisfies_start hs
  by_cases hnone : job.stopMonitoring = true ∨ ¬ Startable env set
  · have hidle : ∀ done, Phase alive (Idle alive) (matrix W env numbers set job done s) :=
      fun done => keeps_idle_matrix htable hsignals hmode hmanage hnone done _ hstart
    refine ⟨fun done _ t ht => ?_, fun _ done _ => (hidle done).now⟩
    exact (hidle done).reached (stable_idle.card (W := W)) (fun _ _ => id) ht
  · rw [not_or, Bool.not_eq_true, not_not] at hnone
    have hfew : clients.length ≤ 1 := by
      rcases h with hstop | hfew | hstartable
      · exact absurd hstop (by simp [hnone.1])
      · exact hfew
      · exact absurd hnone.2 hstartable
    refine ⟨fun done hdone t ht => ?_, fun hstop => absurd hstop (by simp [hnone.1])⟩
    match done, hdone.length_le.trans hfew with
    | [], _ =>
        exact hstart.reached (stable_idle.card (W := W)) (fun _ _ => id) ht
    | [client], _ =>
        have hheld : Phase alive (Held W alive) (matrix W env numbers set job [client] s) :=
          held_of_matrix_single htable hmode hmanage hnone.1 client hs
        exact hheld.reached stable_held.card (fun _ _ => id) ht

/-- The drivers that are alive, the next process number, and the handle. -/
structure Crowd where
  alive : Finset ℕ
  next : ℕ
  proc : Option ℕ

/-- Every command succeeds, and no node comes up. -/
def crowd : Workstation Crowd where
  subprocess _ s := (some ⟨0, ""⟩, s)
  proc := Crowd.proc
  setProc proc s := { s with proc := proc }
  popen _ s := (some s.next, { s with alive := insert s.next s.alive, next := s.next + 1 })
  terminate _ s := (.ok ⟨⟩, s)
  wait pid s := (.ok ⟨⟩, { s with alive := s.alive.erase pid })
  kill pid s := (.ok ⟨⟩, { s with alive := s.alive.erase pid })
  makedirs _ s := (.ok ⟨⟩, s)
  waitForRpc s := (.ok false, s)
  measureSyncTime s := (.ok none, s)
  syncMetrics _ _ _ := .absent
  writeSyncMetrics _ _ _ s := (.ok ⟨⟩, s)
  seedState _ := .absent

/-- Another driver comes up, and is the one that is held. -/
def Crowd.grow (s : Crowd) : Crowd := ⟨insert s.next s.alive, s.next + 1, some s.next⟩

theorem crowd_processTable : ProcessTable crowd Crowd.alive where
  subprocess _ _ := ⟨subset_rfl, rfl⟩
  makedirs _ _ := ⟨subset_rfl, rfl⟩
  waitForRpc _ := ⟨subset_rfl, rfl⟩
  measureSyncTime _ := ⟨subset_rfl, rfl⟩
  writeSyncMetrics _ _ _ _ := ⟨subset_rfl, rfl⟩
  terminate _ _ := ⟨subset_rfl, rfl⟩
  wait pid s := ⟨Finset.erase_subset pid s.alive, rfl⟩
  kill pid s := ⟨Finset.erase_subset pid s.alive, rfl⟩
  setProc _ _ := ⟨subset_rfl, rfl⟩
  failed _ _ _ h := by cases h
  started _ _ _ _ h := by
    cases h
    exact subset_rfl
  waited pid s _ h := by
    cases h
    exact Finset.notMem_erase pid s.alive
  killed pid s _ h := by
    cases h
    exact Finset.notMem_erase pid s.alive

theorem crowd_signalsDelivered : SignalsDelivered crowd :=
  ⟨fun _ _ => rfl, nofun, fun _ _ => rfl⟩

/-- The crowd's commands return and change nothing. -/
theorem crowd_runStep (call : Call) (cmd : List String) (r : Traced StationOp Crowd) :
    Script.Returns (runStep crowd.traced.toMachine set call cmd) r fun _ t => t.now = r.now :=
  ⟨⟨⟩, _, rfl, rfl⟩

/-- An overlay that is enabled has been parsed. -/
theorem parsed_of_overlayEnabled {enabled : Bool} (h : overlayEnabled env set = .ok enabled) :
    ∃ cfg, parseOverlayConfig env set.overlay = .ok cfg ∧ cfg.isSome = enabled := by
  unfold overlayEnabled at h
  split at h
  · rename_i cfg hparse
    exact ⟨cfg, hparse, Except.ok.inj h⟩
  · cases h
  · cases h

theorem crowd_startOverlay (henabled : ∃ enabled, overlayEnabled env set = .ok enabled)
    (r : Traced StationOp Crowd) :
    Script.Returns (startOverlay crowd.traced.toMachine env set) r fun _ t => t.now = r.now := by
  obtain ⟨enabled, henabled⟩ := henabled
  obtain ⟨cfg, hparse, hsome⟩ := parsed_of_overlayEnabled henabled
  rw [Script.Returns, startOverlay, Script.ofExcept_bind henabled]
  cases cfg with
  | none =>
      rw [← hsome]
      exact ⟨[], r, rfl, rfl⟩
  | some cfg =>
      rw [← hsome, Option.isSome_some, if_pos rfl, Script.ofExcept_bind hparse]
      exact Script.Returns.bind (crowd_runStep _ _ r) fun _ _ ht => Script.Returns.pure ht

/-- Starting the infrastructure, another driver comes up. -/
theorem crowd_startInfrastructure (hmode : set.consensusMode = "mock")
    (hmanage : set.manageInfra = true) (hstartable : Startable env set) (client : String)
    (r : Traced StationOp Crowd) :
    Script.Returns (startInfrastructure crowd.traced.toMachine env set client) r
      fun _ t => t.now = r.now.grow := by
  obtain ⟨henabled, cmd, hcmd⟩ := hstartable
  rw [startInfrastructure, if_pos hmanage]
  apply Script.Returns.bind (crowd_startOverlay henabled r)
  intro clientEnv r₀ hr₀
  apply Script.Returns.bind (crowd_runStep _ _ r₀)
  intro _ r₁ hr₁
  apply Script.Returns.bind (crowd_runStep _ _ r₁)
  intro _ r₂ hr₂
  rw [startConsensus, if_neg (by rw [hmode]; decide), if_pos hmode, Script.Returns,
    Script.ofExcept_bind hcmd]
  refine ⟨⟨⟩, _, rfl, ?_⟩
  show r₂.now.grow = r.now.grow
  rw [hr₂, hr₁, hr₀]

/-- Without a tear-down the driver stays when its benchmark has failed. -/
theorem crowd_run (hmode : set.consensusMode = "mock") (hmanage : set.manageInfra = true)
    (hstartable : Startable env set) (hstop : job.stopMonitoring = false)
    (r : Traced StationOp Crowd) :
    (Script.stateOf (job.run crowd.traced env numbers set r)).now = r.now.grow := by
  rw [Benchmark.run, hstop]
  have hdirs : attempt (crowd.traced.makedirs job.milestoneDir) r =
      .ok ⟨⟩ (crowd.traced.makedirs job.milestoneDir r).2 := rfl
  rw [Script.bind_of_ok hdirs, Script.stateOf_finallyDo]
  show (Script.stateOf (job.body crowd.traced env numbers set _)).now = _
  obtain ⟨⟨⟩, t, hstarted, ht⟩ := crowd_startInfrastructure hmode hmanage hstartable job.client
    (crowd.traced.makedirs job.milestoneDir r).2
  rw [Benchmark.body, Script.bind_of_ok hstarted]
  exact ht

/-- Two clients without a tear-down between them leave two drivers. -/
theorem crowd_matrix (hmode : set.consensusMode = "mock") (hmanage : set.manageInfra = true)
    (hstartable : Startable env set) (hstop : job.stopMonitoring = false)
    (first second : String) (s : Crowd) :
    (matrix crowd env numbers set job [first, second] s).now = s.grow.grow := by
  have hrun : ∀ client r, (Script.stateOf
      ({ job with client := client }.run crowd.traced env numbers set r)).now = r.now.grow := by
    intro client r
    have hstop' : { job with client := client }.stopMonitoring = false := hstop
    exact crowd_run hmode hmanage hstartable hstop' r
  rw [matrix, runClients, Script.forM_cons, Script.bind_of_ok (Script.suppress_all _ _),
    Script.forM_cons, Script.bind_of_ok (Script.suppress_all _ _)]
  show (Script.stateOf ({ job with client := second }.run crowd.traced env numbers set
    (Script.stateOf ({ job with client := first }.run crowd.traced env numbers set
      (Traced.start s))))).now = _
  rw [hrun, hrun]
  rfl

/-- **There is at most one driver, at any time of every run of the matrix, exactly
if the infrastructure is torn down after every client, or there is but one client,
or no driver can be started.**  The tear-down then leaves none, as long as the
signals it sends are delivered. -/
theorem oneDriver_iff (env : PathEnv) (numbers : NumberText) (set : Settings) (job : Benchmark)
    (clients : List String) (hmode : set.consensusMode = "mock")
    (hmanage : set.manageInfra = true) :
    (∀ (σ : Type) (W : Workstation σ) (alive : σ → Finset ℕ), ProcessTable W alive →
      SignalsDelivered W → ∀ s, alive s = ∅ → OneDriver W env numbers set job alive clients s) ↔
      job.stopMonitoring = true ∨ clients.length ≤ 1 ∨ ¬ Startable env set := by
  apply Iff.intro
  · intro h
    by_contra hnone
    rw [not_or, not_or, Bool.not_eq_true, not_not] at hnone
    obtain ⟨hstop, hmany, hstartable⟩ := hnone
    match clients, hmany with
    | first :: second :: rest, _ =>
        have hone := (h Crowd crowd Crowd.alive crowd_processTable crowd_signalsDelivered
          ⟨∅, 0, none⟩ rfl).one [first, second] ⟨rest, rfl⟩ _ (List.mem_cons_self ..)
        rw [crowd_matrix hmode hmanage hstartable hstop] at hone
        exact absurd hone (by decide)
    | [], hmany => exact absurd (Nat.zero_le 1) hmany
    | [_], hmany => exact absurd le_rfl hmany
  · intro h σ W alive htable hsignals s hs
    exact oneDriver_of htable hsignals hmode hmanage h hs

/-- The pivot driver on an infrastructure that is managed. -/
def pivotSettings : Settings := { managedSettings with consensusMode := "mock" }

/-- The benchmark of a milestone, without a tear-down. -/
def leftRunning : Benchmark where
  client := "nethermind"
  milestone := "v1.0.0"
  skipSync := false
  configPath := "config.yml"
  stopMonitoring := false
  failOnRegression := false

theorem pivotSettings_startable : Startable plainText pivotSettings :=
  ⟨⟨false, rfl⟩, _, rfl⟩

/-- Two clients, one after the other, and both of their drivers are alive. -/
theorem leftRunning_not_oneDriver :
    ¬ ∀ (σ : Type) (W : Workstation σ) (alive : σ → Finset ℕ), ProcessTable W alive →
      SignalsDelivered W → ∀ s, alive s = ∅ →
        OneDriver W plainText noNumbers pivotSettings leftRunning alive
          ["nethermind", "geth"] s := by
  intro h
  have hone := (h Crowd crowd Crowd.alive crowd_processTable crowd_signalsDelivered
    ⟨∅, 0, none⟩ rfl).one ["nethermind", "geth"] List.prefix_rfl _ (List.mem_cons_self ..)
  rw [crowd_matrix rfl rfl pivotSettings_startable rfl] at hone
  exact absurd hone (by decide)

/-- With the tear-down the second driver is started after the first is gone. -/
theorem tornDown_oneDriver :
    (∀ (σ : Type) (W : Workstation σ) (alive : σ → Finset ℕ), ProcessTable W alive →
      SignalsDelivered W → ∀ s, alive s = ∅ → OneDriver W plainText noNumbers pivotSettings
        { leftRunning with stopMonitoring := true } alive ["nethermind", "geth"] s) ↔
      { leftRunning with stopMonitoring := true }.stopMonitoring = true ∨
        ["nethermind", "geth"].length ≤ 1 ∨ ¬ Startable plainText pivotSettings :=
  oneDriver_iff plainText noNumbers pivotSettings { leftRunning with stopMonitoring := true }
    ["nethermind", "geth"] rfl rfl

end StateBenchmarks.Orchestrator
