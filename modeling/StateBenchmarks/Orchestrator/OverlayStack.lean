/-
# Overlays do not stack

`up` restores before it mounts, so that a second `up` does not put an overlay on
top of the first.  Whatever the commands do, and wherever a call is cut short,
the mount command is given only when nothing is mounted: what `restore` cannot
release makes it raise.

The host is any whose mount table is truthful.  How many overlays it has stacked
at the merged directory is a function of its state; only the mount command may
add to it, and a mount that succeeds adds one.
-/

import StateBenchmarks.Control.Traced
import StateBenchmarks.Orchestrator.OverlayPristine

namespace StateBenchmarks.Orchestrator

open Python Control

/-- What is done to a host: a command, or the delay between two attempts. -/
inductive HostOp where
  | exec (command : Command)
  | sleep
  deriving DecidableEq

/-- The host with its history. -/
def Host.traced {σ : Type} (H : Host σ) : Host (Traced HostOp σ) where
  isDir p r := H.isDir p r.now
  realpath p r := H.realpath p r.now
  procMounts r := H.procMounts r.now
  garbled r := H.garbled r.now
  ismount p r := H.ismount p r.now
  exec command := Traced.perform (.exec command) (H.exec command)
  sleep r := (Traced.perform .sleep (fun s => ((), H.sleep s)) r).2

/-- The mount table answers for the overlays at the merged directory, and only
mounting adds one. -/
structure Truthful {σ : Type} (H : Host σ) (cfg : OverlayConfig) (overlays : σ → ℕ) : Prop where
  answers : ∀ s, isMounted H cfg s = decide (0 < overlays s)
  spares : ∀ command, command ≠ .mount → ∀ s, overlays (H.exec command s).2 ≤ overlays s
  sleeps : ∀ s, overlays (H.sleep s) ≤ overlays s
  adds : ∀ s, overlays (H.exec .mount s).2 ≤ overlays s + 1
  mounts : ∀ s t, H.exec .mount s = (some 0, t) → overlays t = overlays s + 1

/-- The two calls that change the overlay. -/
inductive Invocation where
  | up
  | down

namespace Invocation

/-- The script of a call. -/
def script {σ : Type} (H : Host σ) (cfg : OverlayConfig) : Invocation → Script Exn σ PUnit
  | up => Orchestrator.up H cfg
  | down => Orchestrator.down H cfg

/-- The overlays there are once the call has returned. -/
def overlaysAfter : Invocation → ℕ
  | up => 1
  | down => 0

/-- The call from a state, with what it does. -/
def run {σ : Type} (H : Host σ) (cfg : OverlayConfig) (i : Invocation) (s : σ) :
    EStateM.Result Exn (Traced HostOp σ) PUnit :=
  i.script H.traced cfg (Traced.start s)

end Invocation

/-- The states after some calls, each of which may be cut short at any moment. -/
inductive Session {σ : Type} (H : Host σ) (cfg : OverlayConfig) (s : σ) : σ → Prop
  | start : Session H cfg s s
  | call {t u : σ} (i : Invocation) (before : Session H cfg s t)
      (reached : u ∈ (Script.stateOf (i.run H cfg t)).reached) : Session H cfg s u

variable {σ : Type} {H : Host σ} {cfg : OverlayConfig} {overlays : σ → ℕ}

/-- At most `bound` overlays before every operation, and none before a mount. -/
def Fresh (overlays : σ → ℕ) (bound : ℕ) (op : HostOp) (s : σ) : Prop :=
  overlays s ≤ bound ∧ (op = .exec .mount → overlays s = 0)

/-- At most `n` overlays now, and never more than `bound`. -/
abbrev Within (overlays : σ → ℕ) (bound n : ℕ) : Traced HostOp σ → Prop :=
  Traced.Satisfies (fun s => overlays s ≤ n) (Fresh overlays bound)

variable {bound n : ℕ}

namespace Truthful

/-- A command other than the mount adds no overlay. -/
theorem within_exec (h : Truthful H cfg overlays) (hn : n ≤ bound) (command : Command)
    (hcommand : command ≠ .mount) (r : Traced HostOp σ) (hr : Within overlays bound n r) :
    Within overlays bound n (H.traced.exec command r).2 := by
  apply hr.perform
  · refine ⟨le_trans hr.now hn, fun heq => ?_⟩
    cases heq
    exact absurd rfl hcommand
  · exact le_trans (h.spares command hcommand r.now) hr.now

theorem within_sleep (h : Truthful H cfg overlays) (hn : n ≤ bound) (r : Traced HostOp σ)
    (hr : Within overlays bound n r) : Within overlays bound n (H.traced.sleep r) := by
  show Within overlays bound n (Traced.perform .sleep (fun s => ((), H.sleep s)) r).2
  apply hr.perform
  · exact ⟨le_trans hr.now hn, nofun⟩
  · exact le_trans (h.sleeps r.now) hr.now

theorem keeps_release (h : Truthful H cfg overlays) (hn : n ≤ bound) :
    Script.Keeps (Within overlays bound n) (release H.traced cfg) :=
  Orchestrator.keeps_release (h.within_exec hn .umount (by simp))
    (h.within_exec hn .umountLazy (by simp)) (h.within_sleep hn) cfg

theorem keeps_wipe (h : Truthful H cfg overlays) (hn : n ≤ bound) :
    Script.Keeps (Within overlays bound n) (Scratch.all.forM (remove H.traced cfg)) :=
  Orchestrator.keeps_wipe (fun d => h.within_exec hn (.rm d) (by simp)) cfg

theorem keeps_restore (h : Truthful H cfg overlays) (hn : n ≤ bound) :
    Script.Keeps (Within overlays bound n) (restore H.traced cfg) :=
  Script.Keeps.bind (h.keeps_release hn) fun _ => h.keeps_wipe hn

theorem keeps_prepareDirs (h : Truthful H cfg overlays) (hn : n ≤ bound) :
    Script.Keeps (Within overlays bound n) (prepareDirs H.traced cfg) := by
  apply Script.Keeps.forM
  intro d
  apply Script.Keeps.bind (keeps_command (h.within_exec hn (.mkdir d) (by simp)) cfg _)
  intro _
  exact keeps_command (h.within_exec hn (.chmod d) (by simp)) cfg _

end Truthful

/-- A restore that returns has taken off every overlay there was. -/
theorem within_of_restore (h : Truthful H cfg overlays) {r r' : Traced HostOp σ}
    (hr : Within overlays bound bound r) (hrestore : restore H.traced cfg r = .ok ⟨⟩ r') :
    Within overlays bound 0 r' := by
  obtain ⟨⟨⟩, r₀, hrelease, hwipe⟩ := Script.bind_eq_ok_iff.mp hrestore
  have hreleased := h.keeps_release le_rfl r hr
  have hfree := isMounted_of_release hrelease
  have hnone : overlays r₀.now = 0 := by
    rw [show isMounted H.traced cfg r₀ = isMounted H cfg r₀.now from rfl, h.answers] at hfree
    simpa using hfree
  rw [hrelease] at hreleased
  have hwiped := h.keeps_wipe (Nat.zero_le bound) r₀ (hreleased.imp fun _ => hnone.le)
  rw [hwipe] at hwiped
  exact hwiped

/-- The mount command is given without an overlay, and adds at most one. -/
theorem within_of_mount (h : Truthful H cfg overlays) (hbound : 1 ≤ bound)
    {r : Traced HostOp σ} (hr : Within overlays bound 0 r) :
    Within overlays bound bound (Script.stateOf (call H.traced cfg .mount true r)) := by
  have hnone : overlays r.now = 0 := Nat.le_zero.mp hr.now
  rw [stateOf_call]
  apply hr.perform
  · exact ⟨le_trans hr.now (Nat.zero_le bound), fun _ => hnone⟩
  · have hadds := h.adds r.now
    show overlays (H.exec .mount r.now).2 ≤ bound
    omega

theorem within_of_up (h : Truthful H cfg overlays) (hbound : 1 ≤ bound) {r : Traced HostOp σ}
    (hr : Within overlays bound bound r) :
    Within overlays bound bound (Script.stateOf (up H.traced cfg r)) := by
  rw [up]
  split_ifs
  · apply Script.stateOf_bind
    · intro e t hraised
      have hend := h.keeps_restore le_rfl r hr
      rw [hraised] at hend
      exact hend
    · intro _ r₀ hrestore
      have hrestored := within_of_restore h hr hrestore
      have hprepared := h.keeps_prepareDirs (Nat.zero_le bound) r₀ hrestored
      apply Script.stateOf_bind
      · intro e t hraised
        rw [hraised] at hprepared
        exact hprepared.imp fun hnone => le_trans hnone (Nat.zero_le bound)
      · intro _ r₁ hprepare
        rw [hprepare] at hprepared
        exact within_of_mount h hbound hprepared
  · exact hr

theorem overlays_of_up (h : Truthful H cfg overlays) {r r' : Traced HostOp σ}
    (hr : Within overlays bound bound r) (hup : up H.traced cfg r = .ok ⟨⟩ r') :
    overlays r'.now = 1 := by
  rw [up] at hup
  split_ifs at hup
  obtain ⟨⟨⟩, r₀, hrestore, hrest⟩ := Script.bind_eq_ok_iff.mp hup
  obtain ⟨⟨⟩, r₁, hprepare, hmount⟩ := Script.bind_eq_ok_iff.mp hrest
  have hprepared := h.keeps_prepareDirs (Nat.zero_le bound) r₀ (within_of_restore h hr hrestore)
  rw [hprepare] at hprepared
  have hnone : overlays r₁.now = 0 := Nat.le_zero.mp hprepared.now
  obtain ⟨status, hexec, hzero⟩ := call_eq_ok_iff.mp hmount
  rw [hzero rfl] at hexec
  have hmounted : H.exec .mount r₁.now = (some 0, r'.now) := by
    obtain ⟨hstatus, rfl⟩ := Prod.mk.inj hexec
    exact Prod.ext hstatus rfl
  rw [h.mounts r₁.now r'.now hmounted, hnone]

/-- What a call guarantees, wherever it ends. -/
structure CallSound (H : Host σ) (cfg : OverlayConfig) (overlays : σ → ℕ) (bound : ℕ)
    (i : Invocation) (s : σ) : Prop where
  bounded : ∀ t ∈ (Script.stateOf (i.run H cfg s)).reached, overlays t ≤ bound
  mounts_fresh : ∀ t, (.exec .mount, t) ∈ (Script.stateOf (i.run H cfg s)).events →
    overlays t = 0
  returned : ∀ r, i.run H cfg s = .ok ⟨⟩ r → overlays r.now = i.overlaysAfter

theorem callSound (h : Truthful H cfg overlays) (hbound : 1 ≤ bound) (i : Invocation) {s : σ}
    (hs : overlays s ≤ bound) : CallSound H cfg overlays bound i s := by
  have hstart : Within overlays bound bound (Traced.start s) := Traced.satisfies_start hs
  have hend : Within overlays bound bound (Script.stateOf (i.run H cfg s)) := by
    cases i with
    | up => exact within_of_up h hbound hstart
    | down => exact h.keeps_restore le_rfl _ hstart
  refine ⟨fun t ht => ?_, fun t ht => (hend.past _ ht).2 rfl, fun r hr => ?_⟩
  · exact hend.reached (fun _ => id) (fun _ _ hfresh => hfresh.1) ht
  · cases i with
    | up => exact overlays_of_up h hstart hr
    | down => exact Nat.le_zero.mp (within_of_restore h hstart hr).now

/-- **Over every session of calls the overlays at the merged directory stay
within one, or the number there were at first.**  The mount command is given only
without an overlay, a call that returns leaves one overlay or none, and an `up`
without the snapshot does nothing at all. -/
theorem session_callSound (H : Host σ) (cfg : OverlayConfig) (overlays : σ → ℕ)
    (h : Truthful H cfg overlays) {s t : σ} (hsession : Session H cfg s t) :
    overlays t ≤ max (overlays s) 1 ∧
      (∀ i, CallSound H cfg overlays (max (overlays s) 1) i t) ∧
      (H.isDir cfg.lowerdir t = false →
        Invocation.up.run H cfg t = .error (lowerdirError cfg) (Traced.start t)) := by
  have hbound : 1 ≤ max (overlays s) 1 := le_max_right _ _
  have hwithin : overlays t ≤ max (overlays s) 1 := by
    induction hsession with
    | start => exact le_max_left _ _
    | call i before reached ih => exact (callSound h hbound i ih).bounded _ reached
  refine ⟨hwithin, fun i => callSound h hbound i hwithin, fun hmissing => ?_⟩
  have habsent : H.traced.isDir cfg.lowerdir (Traced.start t) = false := hmissing
  rw [Invocation.run, Invocation.script, up, habsent]
  rfl

/-- A host that only counts its overlays, and on which every command succeeds. -/
def countingHost : Host ℕ where
  isDir _ _ := true
  realpath p _ := p
  procMounts _ := none
  ismount _ n := decide (0 < n)
  exec
    | .umount, n | .umountLazy, n => (some 0, n - 1)
    | .mount, n => (some 0, n + 1)
    | _, n => (some 0, n)
  sleep n := n

theorem countingHost_truthful (cfg : OverlayConfig) : Truthful countingHost cfg id where
  answers _ := rfl
  spares command hcommand n := by
    cases command with
    | umount | umountLazy => exact Nat.sub_le n 1
    | mount => exact absurd rfl hcommand
    | rm | mkdir | chmod => exact le_rfl
  sleeps _ := le_rfl
  adds _ := le_rfl
  mounts n t h := by
    cases h
    rfl

/-- Three overlays that somebody stacked are taken off by the next `up`. -/
theorem countingHost_callSound :
    id 3 ≤ max (id 3) 1 ∧
      (∀ i, CallSound countingHost snapshotConfig id (max (id 3) 1) i 3) ∧
      (countingHost.isDir snapshotConfig.lowerdir 3 = false →
        Invocation.up.run countingHost snapshotConfig 3 =
          .error (lowerdirError snapshotConfig) (Traced.start 3)) :=
  session_callSound countingHost snapshotConfig id (countingHost_truthful snapshotConfig)
    Session.start

end StateBenchmarks.Orchestrator
