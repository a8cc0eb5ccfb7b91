/-
# Wiping scratch while the overlay is held

A container that still has files open in the overlay keeps it alive.  A plain
umount refuses then; a lazy one takes the overlay off the mount table and leaves
it alive for its holders.  The scratch directories are the holder's data until
it lets go.

`_umount_with_retry` asks the mount table whether the overlay is gone, and after
a lazy umount it is gone from there in any case.  So `restore` goes on to wipe
under a holder that outlasts the ladder, and under one that an earlier lazy
umount left behind.
-/

import StateBenchmarks.Orchestrator.OverlayRelease
import StateBenchmarks.Orchestrator.Infrastructure

namespace StateBenchmarks.Orchestrator

open Python Control

/-- The overlay at the merged directory. -/
inductive Status where
  | unmounted
  | mounted
  /-- Off the mount table, but alive for the processes that hold it. -/
  | detached
  deriving DecidableEq

/-- An `rm -rf` that ran, and whether a process held the overlay then. -/
structure Removal where
  dir : Scratch
  held : Bool

/-- The overlay, the commands counted by a clock, and what was removed. -/
structure Live where
  clock : ℕ
  status : Status
  removals : List Removal
  proc : Option ℕ

namespace Live

variable (s : Live)

/-- `n` readings of the clock later. -/
def later (n : ℕ) : Live := { s with clock := s.clock + n }

@[simp] theorem later_clock (n : ℕ) : (s.later n).clock = s.clock + n := rfl
@[simp] theorem later_status (n : ℕ) : (s.later n).status = s.status := rfl
@[simp] theorem later_removals (n : ℕ) : (s.later n).removals = s.removals := rfl

theorem later_later (m n : ℕ) : (s.later m).later n = s.later (m + n) := by
  rw [later, later, later, Nat.add_assoc]

end Live

/-- Everything else: what a process holds when, and how commands end. -/
structure Surroundings where
  view : MountView
  hasLowerdir : Bool
  /-- Whether a process holds the overlay at a reading of the clock. -/
  held : ℕ → Bool
  /-- The exit status of an overlay command other than the umounts. -/
  exits : ℕ → ℤ
  calls : Call → Option Completed
  popen : Option ℕ
  terminate : Except Exn PUnit
  wait : Except Exn PUnit
  asRoot : Bool
  paths : PathEnv
  config : Json

namespace Surroundings

variable (w : Surroundings) (cfg : OverlayConfig) (set : Settings)

/-- A detached overlay is gone once nobody holds it. -/
def settled (s : Live) : Live :=
  if s.status = .detached ∧ w.held s.clock = false then { s with status := .unmounted } else s

/-- One reading of the clock passes. -/
def tick (s : Live) : Live := (w.settled s).later 1

/-- A process holds the overlay now. -/
def holds (s : Live) : Bool := decide (s.status ≠ .unmounted) && w.held s.clock

/-- The effect of a command. -/
def effect (s : Live) (command : Command) : Live :=
  let t := w.tick s
  match command with
  | .umount =>
      if t.status = .mounted ∧ w.held s.clock = false then { t with status := .unmounted }
      else t
  | .umountLazy =>
      if t.status = .mounted then
        { t with status := if w.held s.clock then .detached else .unmounted }
      else t
  | .rm d => { t with removals := s.removals ++ [⟨d, w.holds s⟩] }
  | .mkdir _ => t
  | .chmod _ => t
  | .mount => if w.exits s.clock = 0 then { t with status := .mounted } else t

/-- The exit status of a command: 32 is that of a failing umount. -/
def status (s : Live) : Command → ℤ
  | .umount => if s.status = .mounted ∧ w.held s.clock = false then 0 else 32
  | .umountLazy => if s.status = .mounted then 0 else 32
  | _ => w.exits s.clock

/-- The host around the overlay. -/
def host : Host Live where
  isDir _ _ := w.hasLowerdir
  realpath p _ := w.view.realpath p
  procMounts s := w.view.text cfg (if s.status = .mounted then 1 else 0)
  ismount p s := w.view.ismount (if s.status = .mounted then 1 else 0) p
  exec command s := (some (w.status s command), w.effect s command)
  sleep := w.tick

/-- The machine around it: the overlay's own command line runs on the host. -/
def machine : Machine Live where
  subprocess call s :=
    match call with
    | .overlay action =>
        match overlayMain w.host w.paths w.config w.asRoot action s with
        | .ok _ t => (some ⟨0, ""⟩, t)
        | .error _ t => (some ⟨1, ""⟩, t)
    | call => (w.calls call, w.tick s)
  proc := Live.proc
  setProc proc s := { s with proc }
  popen _ s := (w.popen, s)
  terminate _ s := (w.terminate, s)
  wait _ s := (w.wait, s)
  kill _ s := (.ok ⟨⟩, s)

end Surroundings

variable {w : Surroundings} {cfg : OverlayConfig} {set : Settings} {s t : Live}

theorem settled_of_ne (h : s.status ≠ .detached) : w.settled s = s := by
  rw [Surroundings.settled, if_neg fun hnot => h hnot.1]

theorem tick_of_ne (h : s.status ≠ .detached) : w.tick s = s.later 1 := by
  rw [Surroundings.tick, settled_of_ne h]

theorem tick_of_mounted (h : s.status = .mounted) : w.tick s = s.later 1 :=
  tick_of_ne (by rw [h]; decide)

/-- `is_mounted` reads the overlay off the table where it can be read there. -/
theorem isMounted_live (hothers : w.view.lists cfg 0 = false) (s : Live) :
    isMounted (w.host cfg) cfg s = (decide (s.status = .mounted) && w.view.lists cfg 1) := by
  show w.view.lists cfg (if s.status = .mounted then 1 else 0) = _
  by_cases h : s.status = .mounted
  · simp [h]
  · simp [h, hothers]

/-- A mounted overlay that is held stays mounted. -/
theorem umount_of_held (h : s.status = .mounted) (hheld : w.held s.clock = true) :
    w.effect s .umount = s.later 1 := by
  simp [Surroundings.effect, tick_of_mounted h, hheld]

/-- A mounted overlay that nobody holds is unmounted. -/
theorem umount_of_free (h : s.status = .mounted) (hfree : w.held s.clock = false) :
    w.effect s .umount = { s.later 1 with status := .unmounted } := by
  simp [Surroundings.effect, tick_of_mounted h, hfree, h]

/-- The lazy umount always takes a mounted overlay off the table. -/
theorem umountLazy_of_mounted (h : s.status = .mounted) :
    w.effect s .umountLazy =
      { s.later 1 with status := if w.held s.clock then .detached else .unmounted } := by
  simp [Surroundings.effect, tick_of_mounted h, h]

/-- Two readings pass from one refused attempt to the next. -/
theorem tried_of_held (h : s.status = .mounted) {k : ℕ}
    (hheld : ∀ j < k, w.held (s.clock + 2 * j) = true) :
    tried (w.host cfg) k s = s.later (2 * k) := by
  induction k generalizing s with
  | zero => rfl
  | succ k ih =>
      have hnext : w.tick (w.effect s .umount) = s.later 2 := by
        rw [umount_of_held h (hheld 0 (Nat.succ_pos k)), tick_of_mounted (s := s.later 1) h,
          Live.later_later]
      have hlater : ∀ j < k, w.held ((s.later 2).clock + 2 * j) = true := fun j hj => by
        have hj' := hheld (j + 1) (Nat.succ_lt_succ hj)
        rwa [Nat.mul_add, Nat.mul_one, Nat.add_comm (2 * j), ← Nat.add_assoc] at hj'
      show tried (w.host cfg) k (w.tick (w.effect s .umount)) = _
      rw [hnext, ih (s := s.later 2) h hlater, Live.later_later, Nat.mul_add, Nat.add_comm]

theorem attempted_of_held (h : s.status = .mounted) {k : ℕ}
    (hheld : ∀ j < k, w.held (s.clock + 2 * j) = true) :
    attempted (w.host cfg) k s = w.effect (s.later (2 * k)) .umount := by
  rw [attempted, tried_of_held h hheld]
  rfl

/-- While the attempts are refused the overlay is held. -/
theorem held_of_refused (hothers : w.view.lists cfg 0 = false) (h : s.status = .mounted)
    {k : ℕ} (hrefused : ∀ j < k, Refused (w.host cfg) cfg j s) :
    ∀ j < k, w.held (s.clock + 2 * j) = true := by
  induction k with
  | zero => exact fun j hj => absurd hj (Nat.not_lt_zero j)
  | succ k ih =>
      have hbefore := ih fun j hj => hrefused j (Nat.lt_succ_of_lt hj)
      intro j hj
      rcases Nat.lt_succ_iff_lt_or_eq.mp hj with hlt | rfl
      · exact hbefore j hlt
      · cases hheld : w.held (s.clock + 2 * j) with
        | true => rfl
        | false =>
            have hmounted := (hrefused j (Nat.lt_succ_self j)).2
            rw [isMounted_live hothers, attempted_of_held h hbefore,
              umount_of_free (s := s.later (2 * j)) h hheld] at hmounted
            cases hmounted

/-- How a release of a mounted overlay ends, if the mount table can be read: let
go in time it is unmounted, else the lazy umount at the end detaches it. -/
theorem release_live (hothers : w.view.lists cfg 0 = false)
    (hshown : w.view.lists cfg 1 = true) (h : s.status = .mounted) :
    ∃ t, release (w.host cfg) cfg s = .ok ⟨⟩ t ∧ t.removals = s.removals ∧
      ((∃ k < 5, w.held (s.clock + 2 * k) = false) ∧ t.status = .unmounted ∨
        (∀ k < 5, w.held (s.clock + 2 * k) = true) ∧ t.clock = s.clock + 11 ∧
          t.status = if w.held (s.clock + 10) then .detached else .unmounted) := by
  have hlazy : (∀ k < 5, w.held (s.clock + 2 * k) = true) →
      ((w.host cfg).exec .umountLazy (tried (w.host cfg) 5 s)).2 =
        { s.later 11 with
          status := if w.held (s.clock + 10) then .detached else .unmounted } := fun hheld => by
    rw [tried_of_held h hheld]
    show w.effect (s.later 10) .umountLazy = _
    rw [umountLazy_of_mounted (s := s.later 10) h, Live.later_later]
    rfl
  have hladder := release_ladder (w.host cfg) cfg s
  generalize release (w.host cfg) cfg s = r at hladder
  cases hladder with
  | idle hidle => simp [isMounted_live hothers, h, hshown] at hidle
  | @freed k hmounted hk refused found hfree =>
      have hheld := held_of_refused hothers h refused
      cases hlast : w.held (s.clock + 2 * k) with
      | true =>
          rw [attempted_of_held h hheld, umount_of_held (s := s.later (2 * k)) h hlast,
            isMounted_live hothers] at hfree
          simp [h, hshown] at hfree
      | false =>
          refine ⟨_, rfl, ?_, Or.inl ⟨⟨k, hk, hlast⟩, ?_⟩⟩ <;>
            rw [attempted_of_held h hheld, umount_of_free (s := s.later (2 * k)) h hlast]
          rfl
  | detached hmounted refused found hfree =>
      have hheld := held_of_refused hothers h refused
      refine ⟨_, rfl, ?_, Or.inr ⟨hheld, ?_, ?_⟩⟩ <;> rw [hlazy hheld] <;> rfl
  | stuck hmounted refused found hbusy =>
      rw [hlazy (held_of_refused hothers h refused), isMounted_live hothers] at hbusy
      cases hheld : w.held (s.clock + 10) <;> simp [hheld] at hbusy
  | missing hmounted hk refused hmissing => exact absurd nofun hmissing
  | lazyMissing hmounted refused hmissing => cases hmissing
  | unread hunread => exact absurd hunread (not_unreadable rfl)

/-- The three removals always run; each is recorded with whether the overlay was
held. -/
theorem wipe_live (s : Live) :
    Scratch.all.forM (remove (w.host cfg) cfg) s =
      .ok ⟨⟩ (Scratch.all.foldl (fun t d => w.effect t (.rm d)) s) := by
  have hstep : ∀ d s t, remove (w.host cfg) cfg d s = .ok ⟨⟩ t ↔
      True ∧ t = w.effect s (.rm d) := fun d s t => by
    rw [remove, call_eq_ok_iff]
    constructor
    · rintro ⟨status, hexec, -⟩
      exact ⟨trivial, (Prod.mk.inj hexec).2.symm⟩
    · rintro ⟨-, rfl⟩
      exact ⟨_, rfl, nofun⟩
  exact (Script.forM_eq_ok_iff hstep Scratch.all s _).mpr ⟨fun _ _ => trivial, rfl⟩

/-- When the three removals meet no holder. -/
def UnheldFrom (w : Surroundings) (clock : ℕ) : Status → Prop
  | .unmounted => True
  | .detached => w.held clock = false
  | .mounted => ∀ j < 3, w.held (clock + j) = false

theorem wipe_unheld_iff (hnone : s.removals = []) :
    (∀ r ∈ (Scratch.all.foldl (fun t d => w.effect t (.rm d)) s).removals, r.held = false) ↔
      UnheldFrom w s.clock s.status := by
  obtain ⟨clock, status, removals, proc⟩ := s
  obtain rfl : removals = [] := hnone
  simp only [Scratch.all, List.foldl_cons, List.foldl_nil, Surroundings.effect,
    Surroundings.holds, Surroundings.tick, Surroundings.settled]
  cases status with
  | unmounted => simp [UnheldFrom]
  | mounted =>
      have hthree : (∀ j < 3, w.held (clock + j) = false) ↔
          w.held clock = false ∧ w.held (clock + 1) = false ∧ w.held (clock + 2) = false := by
        simp only [Nat.forall_lt_succ_left, Nat.not_lt_zero, false_imp_iff, implies_true, and_true]
        rfl
      simp [UnheldFrom, hthree]
  | detached =>
      cases hheld : w.held clock <;> simp [UnheldFrom, hheld]

/-! ## Restoring -/

/-- The holder lets go in time.  A mounted overlay that the table shows is held
until one of the six umounts, or from the lazy one only to the first removal;
one that it does not show meets the removals at once, as a detached one does. -/
def LetsGo (w : Surroundings) (cfg : OverlayConfig) (clock : ℕ) : Status → Prop
  | .unmounted => True
  | .detached => w.held clock = false
  | .mounted =>
      w.view.lists cfg 1 = true ∧
          ((∃ k < 6, w.held (clock + 2 * k) = false) ∨ w.held (clock + 11) = false) ∨
        w.view.lists cfg 1 = false ∧ ∀ j < 3, w.held (clock + j) = false

/-- `restore` always returns, and its removals meet no holder exactly when the
holder lets go in time. -/
theorem restore_live (hothers : w.view.lists cfg 0 = false) (hnone : s.removals = []) :
    ∃ t, restore (w.host cfg) cfg s = .ok ⟨⟩ t ∧
      ((∀ r ∈ t.removals, r.held = false) ↔ LetsGo w cfg s.clock s.status) := by
  have hrestore : ∀ t, release (w.host cfg) cfg s = .ok ⟨⟩ t →
      restore (w.host cfg) cfg s =
        .ok ⟨⟩ (Scratch.all.foldl (fun t d => w.effect t (.rm d)) t) := fun t hrelease => by
    rw [restore, Script.bind_of_ok hrelease]
    exact wipe_live t
  by_cases hseen : s.status = .mounted ∧ w.view.lists cfg 1 = true
  · obtain ⟨hmounted, hshown⟩ := hseen
    obtain ⟨t, hrelease, hremovals, hend⟩ := release_live hothers hshown hmounted
    refine ⟨_, hrestore t hrelease, ?_⟩
    have hletsGo : LetsGo w cfg s.clock .mounted ↔
        (∃ k < 6, w.held (s.clock + 2 * k) = false) ∨ w.held (s.clock + 11) = false := by
      simp [LetsGo, hshown]
    rw [wipe_unheld_iff (by rw [hremovals, hnone]), hmounted, hletsGo]
    rcases hend with ⟨⟨k, hk, hfree⟩, hstatus⟩ | ⟨hheld, hclock, hstatus⟩
    · rw [hstatus]
      exact iff_of_true trivial (Or.inl ⟨k, Nat.lt_succ_of_lt hk, hfree⟩)
    · rw [hstatus, hclock]
      have hsix : (∃ k < 6, w.held (s.clock + 2 * k) = false) ↔
          w.held (s.clock + 10) = false := by
        constructor
        · rintro ⟨k, hk, hfree⟩
          rcases Nat.lt_succ_iff_lt_or_eq.mp hk with hlt | rfl
          · rw [hheld k hlt] at hfree
            cases hfree
          · exact hfree
        · exact fun hfree => ⟨5, by decide, hfree⟩
      rw [hsix]
      cases hlast : w.held (s.clock + 10) <;> simp [UnheldFrom]
  · have hidle : isMounted (w.host cfg) cfg s = false := by
      rw [isMounted_live hothers, Bool.and_eq_false_iff, decide_eq_false_iff_not,
        ← Bool.not_eq_true]
      exact not_and_or.mp hseen
    refine ⟨_, hrestore s (release_of_not_mounted hidle (not_unreadable rfl)), ?_⟩
    rw [wipe_unheld_iff hnone]
    cases hstatus : s.status with
    | unmounted => rfl
    | detached => rfl
    | mounted =>
        have hhidden : w.view.lists cfg 1 = false :=
          Bool.eq_false_iff.mpr fun h => hseen ⟨hstatus, h⟩
        simp [LetsGo, hhidden, UnheldFrom]

/-- A holder that never lets go does not let go in time. -/
theorem not_letsGo_of_held {clock : ℕ} {status : Status} (hlive : status ≠ .unmounted)
    (hheld : ∀ n, w.held (clock + n) = true) : ¬ LetsGo w cfg clock status := by
  have hnever : ∀ n, ¬ w.held (clock + n) = false := fun n h => by
    rw [hheld n] at h
    cases h
  cases status with
  | unmounted => exact absurd rfl hlive
  | detached => exact hnever 0
  | mounted =>
      rintro (⟨-, ⟨k, -, hfree⟩ | hfree⟩ | ⟨-, hfree⟩)
      · exact hnever _ hfree
      · exact hnever _ hfree
      · exact hnever 0 (hfree 0 (by decide))

/-- What was removed so far. -/
def Removed (removals : List Removal) (s : Live) : Prop := s.removals = removals

variable {removals : List Removal}

theorem removals_tick (s : Live) : (w.tick s).removals = s.removals := by
  rw [Surroundings.tick, Live.later_removals, Surroundings.settled]
  split_ifs <;> rfl

theorem keeps_call {command : Command} {check : Bool} (h : ∀ d, command ≠ .rm d) :
    Script.Keeps (Removed removals) (call (w.host cfg) cfg command check) := by
  refine Script.Keeps.bind (fun s hs => ?_) fun _ => Script.Keeps.pure _
  have heffect : (w.effect s command).removals = s.removals := by
    cases command with
    | rm d => exact absurd rfl (h d)
    | mkdir d => exact removals_tick s
    | chmod d => exact removals_tick s
    | umount =>
        simp only [Surroundings.effect]
        split_ifs <;> exact removals_tick s
    | umountLazy =>
        simp only [Surroundings.effect]
        split_ifs <;> exact removals_tick s
    | mount =>
        simp only [Surroundings.effect]
        split_ifs <;> exact removals_tick s
  show (Script.stateOf (run (w.host cfg) cfg command check s)).removals = removals
  rw [← show s.removals = removals from hs, ← heffect]
  simp only [run, Surroundings.host]
  split_ifs <;> rfl

theorem keeps_prepareDirs :
    Script.Keeps (Removed removals) (prepareDirs (w.host cfg) cfg) := by
  refine Script.Keeps.forM (f := prepare (w.host cfg) cfg) (fun d => ?_) Scratch.all
  have hmkdir : Script.Keeps (Removed removals) (call (w.host cfg) cfg (.mkdir d) true) :=
    keeps_call fun d => by simp
  have hchmod : Script.Keeps (Removed removals) (call (w.host cfg) cfg (.chmod d) true) :=
    keeps_call fun d => by simp
  exact Script.Keeps.bind hmkdir fun _ => hchmod

/-- `up` removes what its `restore` removes. -/
theorem removals_up {t : Live} (hlower : w.hasLowerdir = true)
    (hrestore : restore (w.host cfg) cfg s = .ok ⟨⟩ t) :
    (Script.stateOf (up (w.host cfg) cfg s)).removals = t.removals := by
  rw [up, if_pos (show (w.host cfg).isDir cfg.lowerdir s = true from hlower),
    Script.bind_of_ok hrestore]
  have hmount : Script.Keeps (Removed t.removals) (call (w.host cfg) cfg .mount true) :=
    keeps_call fun d => by simp
  exact Script.Keeps.bind keeps_prepareDirs (fun _ => hmount) t rfl

/-- The operations that restore the overlay. -/
inductive Operation where
  | up
  | down
  | startInfrastructure (client : String)
  | stopInfrastructure

/-- Performing an operation. -/
def perform (w : Surroundings) (set : Settings) (cfg : OverlayConfig) :
    Operation → Script Exn Live PUnit
  | .up => up (w.host cfg) cfg
  | .down => down (w.host cfg) cfg
  | .startInfrastructure client => startInfrastructure w.machine w.paths set client
  | .stopInfrastructure => stopInfrastructure w.machine w.paths set

/-- The operation gets as far as the overlay: there is a snapshot to mount, or
`docker` is there to be called. -/
def Reaches (w : Surroundings) : Operation → Prop
  | .up => w.hasLowerdir = true
  | .down => True
  | .startInfrastructure _ => w.hasLowerdir = true
  | .stopInfrastructure => w.calls .clientsDown ≠ none ∧ w.calls .monitoringDown ≠ none

/-- The holder lets go in time for the operation; `stop_infrastructure` runs two
commands before it restores. -/
def LetsGoDuring (w : Surroundings) (cfg : OverlayConfig) (clock : ℕ) (status : Status) :
    Operation → Prop
  | .stopInfrastructure =>
      match status with
      | .detached => ∃ n < 3, w.held (clock + n) = false
      | status => LetsGo w cfg (clock + 2) status
  | _ => LetsGo w cfg clock status

/-- A user's configuration names the same directories. -/
theorem letsGo_forUser (asRoot : Bool) (clock : ℕ) (status : Status) :
    LetsGo w (cfg.forUser asRoot) clock status = LetsGo w cfg clock status := by
  cases asRoot <;> rfl

theorem overlayMain_up {data : Json} (hload : loadOverlaySection w.config = .ok data)
    (hparse : parseOverlayConfig w.paths data = .ok (some cfg)) (s : Live) :
    overlayMain w.host w.paths w.config w.asRoot .up s =
      (up (w.host (cfg.forUser w.asRoot)) (cfg.forUser w.asRoot) >>= fun _ => pure none) s := by
  rw [overlayMain, Script.ofExcept_bind hload, Script.ofExcept_bind hparse]

theorem overlayMain_down {data : Json} (hload : loadOverlaySection w.config = .ok data)
    (hparse : parseOverlayConfig w.paths data = .ok (some cfg)) (s : Live) :
    overlayMain w.host w.paths w.config w.asRoot .down s =
      (down (w.host (cfg.forUser w.asRoot)) (cfg.forUser w.asRoot) >>= fun _ => pure none) s := by
  rw [overlayMain, Script.ofExcept_bind hload, Script.ofExcept_bind hparse]

/-- Through the command line `up` removes what its `restore` removes. -/
theorem removals_overlayMain_up {data : Json} (hload : loadOverlaySection w.config = .ok data)
    (hparse : parseOverlayConfig w.paths data = .ok (some cfg)) (hlower : w.hasLowerdir = true)
    (hrestore :
      restore (w.host (cfg.forUser w.asRoot)) (cfg.forUser w.asRoot) s = .ok ⟨⟩ t) :
    (Script.stateOf (overlayMain w.host w.paths w.config w.asRoot .up s)).removals =
      t.removals := by
  rw [overlayMain_up hload hparse]
  exact Script.Keeps.after (P := Removed t.removals) (removals_up hlower hrestore)
    fun _ => Script.Keeps.pure _

/-- Through the command line `down` ends where its `restore` does. -/
theorem stateOf_overlayMain_down {data : Json} (hload : loadOverlaySection w.config = .ok data)
    (hparse : parseOverlayConfig w.paths data = .ok (some cfg))
    (hrestore :
      restore (w.host (cfg.forUser w.asRoot)) (cfg.forUser w.asRoot) s = .ok ⟨⟩ t) :
    Script.stateOf (overlayMain w.host w.paths w.config w.asRoot .down s) = t := by
  rw [overlayMain_down hload hparse]
  refine Script.Keeps.after (P := fun u => u = t) ?_ fun _ => Script.Keeps.pure _
  rw [down, hrestore]
  rfl

theorem overlayEnabled_eq (hparse : parseOverlayConfig w.paths set.overlay = .ok (some cfg)) :
    overlayEnabled w.paths set = .ok true := by
  rw [overlayEnabled, hparse]
  rfl

/-- The overlay's command line ends in the state its script ends in. -/
theorem subprocess_overlay (action : Action) (s : Live) :
    (w.machine.subprocess (.overlay action) s).2 =
      Script.stateOf (overlayMain w.host w.paths w.config w.asRoot action s) := by
  simp only [Surroundings.machine]
  cases overlayMain w.host w.paths w.config w.asRoot action s <;> rfl

/-- No command but the overlay's removes anything. -/
theorem removed_subprocess {call : Call} (h : ∀ action, call ≠ .overlay action) (s : Live)
    (hs : Removed removals s) : Removed removals (w.machine.subprocess call s).2 := by
  rw [Removed, ← show s.removals = removals from hs, ← removals_tick (w := w) s]
  cases call <;> first | rfl | exact absurd rfl (h _)

/-- `start_infrastructure` removes what its overlay action removes. -/
theorem removals_start (hmanage : set.manageInfra = true)
    (hparse : parseOverlayConfig w.paths set.overlay = .ok (some cfg)) (client : String)
    (s : Live) :
    (Script.stateOf (startInfrastructure w.machine w.paths set client s)).removals =
      (Script.stateOf (overlayMain w.host w.paths w.config w.asRoot .up s)).removals := by
  have hoverlay : (Script.stateOf (startOverlay w.machine w.paths set s)).removals =
      (Script.stateOf (overlayMain w.host w.paths w.config w.asRoot .up s)).removals := by
    rw [startOverlay, Script.ofExcept_bind (overlayEnabled_eq hparse), if_pos rfl,
      Script.ofExcept_bind hparse, ← subprocess_overlay]
    refine Script.Keeps.after (P := Removed _) ?_ fun _ => Script.Keeps.pure _
    rw [Removed, runOverlayAction, stateOf_runStep]
  rw [startInfrastructure, if_pos hmanage]
  apply Script.Keeps.after (P := Removed _) hoverlay
  intro clientEnv
  refine Script.Keeps.bind (keeps_runStep (removed_subprocess fun _ => by simp) _) fun _ => ?_
  refine Script.Keeps.bind (keeps_runStep (removed_subprocess fun _ => by simp) _) fun _ => ?_
  refine keeps_startConsensus (removed_subprocess fun _ => by simp) (fun _ _ hs => hs) ?_
  exact fun _ _ hs => hs

/-- Without a snapshot to mount, `start_infrastructure` raises before anything
else happens. -/
theorem start_missing (hmanage : set.manageInfra = true)
    (hload : loadOverlaySection w.config = .ok set.overlay)
    (hparse : parseOverlayConfig w.paths set.overlay = .ok (some cfg))
    (hmissing : ¬ w.hasLowerdir = true) (client : String) (s : Live) :
    ∃ e, startInfrastructure w.machine w.paths set client s = .error e s := by
  have hup : overlayMain w.host w.paths w.config w.asRoot .up s =
      .error (lowerdirError (cfg.forUser w.asRoot)) s := by
    rw [overlayMain_up hload hparse]
    exact Script.bind_of_error (if_neg hmissing)
  have hsubprocess : w.machine.subprocess (.overlay .up) s = (some ⟨1, ""⟩, s) := by
    simp only [Surroundings.machine, hup]
  have hstep : ∃ e, runOverlayAction w.machine set .up s = .error e s := by
    refine ⟨_, Script.bind_of_error (t := s) (e := .calledProcessError (set.finalCmd
      ["env", "PYTHONPATH=src", "uv", "run", "python", "-m", "orchestrator.overlay",
        Action.up.name, "--config", set.configPath])) ?_⟩
    rw [runCmd, hsubprocess]
    rfl
  obtain ⟨e, hstep⟩ := hstep
  refine ⟨e, ?_⟩
  rw [startInfrastructure, if_pos hmanage]
  apply Script.bind_of_error
  rw [startOverlay, Script.ofExcept_bind (overlayEnabled_eq hparse), if_pos rfl,
    Script.ofExcept_bind hparse]
  exact Script.bind_of_error hstep

/-! ## Stopping -/

/-- Stopping the driver does not touch the overlay. -/
theorem stopMockCl_live (s : Live) :
    ∃ t, stopMockCl w.machine s = .ok ⟨⟩ t ∧
      t.clock = s.clock ∧ t.status = s.status ∧ t.removals = s.removals := by
  rw [stopMockCl]
  cases hproc : w.machine.proc s with
  | none => exact ⟨s, rfl, rfl, rfl, rfl⟩
  | some pid =>
      refine ⟨{ s with proc := none }, ?_, rfl, rfl, rfl⟩
      have hfailed : ∀ e, stopFailed w.machine pid e s = .ok ⟨⟩ s := fun e => by
        unfold stopFailed
        split <;> rfl
      have hstops : ∀ x : Script Exn Live PUnit, (x s = .ok ⟨⟩ s ∨ ∃ e, x s = .error e s) →
          Script.handle x (stopFailed w.machine pid) s = .ok ⟨⟩ s := by
        rintro x (hx | ⟨e, hx⟩)
        · rw [Script.handle, hx]
        · rw [Script.handle, hx]
          exact hfailed e
      dsimp only
      rw [Script.finallyDo, hstops _ ?_]
      · rfl
      · cases hterminate : w.terminate with
        | ok =>
            rw [Script.bind_of_ok (show procStep w.machine.terminate pid s = .ok ⟨⟩ s by
              simp [procStep, Surroundings.machine, hterminate])]
            cases hwait : w.wait with
            | ok => exact Or.inl (by simp [procStep, Surroundings.machine, hwait])
            | error e => exact Or.inr ⟨e, by simp [procStep, Surroundings.machine, hwait]⟩
        | error e =>
            exact Or.inr ⟨e, Script.bind_of_error (by
              simp [procStep, Surroundings.machine, hterminate])⟩

/-- A compose command that is found passes, whatever its exit status. -/
theorem suppress_found (call : Call) (hcall : ∀ action, call ≠ .overlay action)
    (h : w.calls call ≠ none) (cmd : List String) (s : Live) :
    Script.suppress isCalledProcessError (runStep w.machine set call cmd) s =
      .ok ⟨⟩ (w.tick s) := by
  obtain ⟨completed, hcompleted⟩ := Option.ne_none_iff_exists'.mp h
  have hsubprocess : w.machine.subprocess call s = (some completed, w.tick s) := by
    rw [← hcompleted]
    cases call <;> first | rfl | exact absurd rfl (hcall _)
  rw [Script.suppress, runStep]
  by_cases hzero : completed.returncode = 0
  · rw [Script.bind_of_ok (show runCmd w.machine call (set.finalCmd cmd) s =
      .ok completed (w.tick s) by rw [runCmd, hsubprocess]; exact if_pos hzero)]
    rfl
  · rw [Script.bind_of_error (show runCmd w.machine call (set.finalCmd cmd) s =
      .error (.calledProcessError (set.finalCmd cmd)) (w.tick s) by
        rw [runCmd, hsubprocess]; exact if_neg hzero)]
    rfl

/-- A missing executable is not passed over. -/
theorem suppress_missing (set : Settings) (call : Call) (hcall : ∀ action, call ≠ .overlay action)
    (h : w.calls call = none) (cmd : List String) (s : Live) :
    ∃ e, Script.suppress isCalledProcessError (runStep w.machine set call cmd) s =
      .error e (w.tick s) := by
  have hsubprocess : w.machine.subprocess call s = (none, w.tick s) := by
    rw [← h]
    cases call <;> first | rfl | exact absurd rfl (hcall _)
  refine ⟨.notFound (set.finalCmd cmd), ?_⟩
  rw [Script.suppress, runStep, Script.bind_of_error (show runCmd w.machine call
    (set.finalCmd cmd) s = .error (.notFound (set.finalCmd cmd)) (w.tick s) by
      rw [runCmd, hsubprocess])]
  rfl

/-- `stop_infrastructure` restores two readings later, or does not get there. -/
theorem stop_live (hmanage : set.manageInfra = true)
    (hparse : parseOverlayConfig w.paths set.overlay = .ok (some cfg)) (s : Live) :
    ∃ t, t.clock = s.clock ∧ t.status = s.status ∧ t.removals = s.removals ∧
      (Reaches w .stopInfrastructure →
        Script.stateOf (stopInfrastructure w.machine w.paths set s) =
          Script.stateOf
            (overlayMain w.host w.paths w.config w.asRoot .down (w.tick (w.tick t)))) ∧
      (¬ Reaches w .stopInfrastructure → ∃ e t',
        stopInfrastructure w.machine w.paths set s = .error e t' ∧
          t'.removals = s.removals) := by
  obtain ⟨t, hmock, hclock, hstatus, hremovals⟩ := stopMockCl_live (w := w) s
  refine ⟨t, hclock, hstatus, hremovals, ?_, ?_⟩
  · rintro ⟨hclients, hmonitoring⟩
    have hcompose : composeDown w.machine set t = .ok ⟨⟩ (w.tick (w.tick t)) := by
      rw [composeDown,
        Script.bind_of_ok (suppress_found .clientsDown (fun _ => by simp) hclients _ t)]
      exact suppress_found .monitoringDown (fun _ => by simp) hmonitoring _ _
    rw [stopInfrastructure, if_pos hmanage, Script.bind_of_ok hmock,
      Script.bind_of_ok hcompose, stopOverlay, Script.ofExcept_bind (overlayEnabled_eq hparse),
      if_pos rfl, Script.stateOf_suppress, runOverlayAction, stateOf_runStep, subprocess_overlay]
  · intro hnot
    have hcompose : ∃ e t', composeDown w.machine set t = .error e t' ∧
        t'.removals = t.removals := by
      rw [composeDown]
      by_cases hclients : w.calls .clientsDown = none
      · obtain ⟨e, hdown⟩ := suppress_missing set .clientsDown (fun _ => by simp) hclients
          (set.composeCmd set.clientsCompose ++
            ["down", "-v", "-t", toString set.stopTimeoutSec]) t
        exact ⟨e, _, Script.bind_of_error hdown, removals_tick t⟩
      · have hmonitoring : w.calls .monitoringDown = none :=
          by_contra fun h => hnot ⟨hclients, h⟩
        obtain ⟨e, hdown⟩ := suppress_missing set .monitoringDown (fun _ => by simp) hmonitoring
          (set.composeCmd set.monitoringCompose ++ ["down", "-v"]) (w.tick t)
        rw [Script.bind_of_ok (suppress_found .clientsDown (fun _ => by simp) hclients _ t)]
        exact ⟨e, _, hdown, by rw [removals_tick, removals_tick]⟩
    obtain ⟨e, t', hdown, hkept⟩ := hcompose
    refine ⟨e, t', ?_, by rw [hkept, hremovals]⟩
    rw [stopInfrastructure, if_pos hmanage, Script.bind_of_ok hmock,
      Script.bind_of_error hdown]

/-- Two commands later a detached overlay is gone if its holder let go of it by
then. -/
theorem letsGo_later (s : Live) :
    LetsGo w cfg (w.tick (w.tick s)).clock (w.tick (w.tick s)).status ↔
      LetsGoDuring w cfg s.clock s.status .stopInfrastructure := by
  obtain ⟨clock, status, removals, proc⟩ := s
  cases status with
  | unmounted => exact iff_of_true trivial trivial
  | mounted =>
      let s : Live := ⟨clock, .mounted, removals, proc⟩
      show LetsGo w cfg (w.tick (w.tick s)).clock (w.tick (w.tick s)).status ↔ _
      rw [tick_of_mounted (s := s) rfl, tick_of_mounted (s := s.later 1) rfl, Live.later_later]
      rfl
  | detached =>
      have hthree : (∃ n < 3, w.held (clock + n) = false) ↔
          w.held clock = false ∨ w.held (clock + 1) = false ∨ w.held (clock + 2) = false := by
        simp only [Nat.exists_lt_succ_left, Nat.not_lt_zero, false_and, exists_false, or_false]
        rfl
      show LetsGo w cfg _ _ ↔ ∃ n < 3, w.held (clock + n) = false
      rw [hthree]
      cases hfirst : w.held clock with
      | false => simp [Surroundings.tick, Surroundings.settled, hfirst, LetsGo]
      | true =>
          cases hsecond : w.held (clock + 1) <;>
            simp [Surroundings.tick, Surroundings.settled, Live.later, hfirst, hsecond, LetsGo]

/-- An operation that reaches the overlay meets no holder exactly when the
holder lets go in time; one that does not reach it raises and removes nothing. -/
theorem perform_live (hmanage : set.manageInfra = true)
    (hload : loadOverlaySection w.config = .ok set.overlay)
    (hparse : parseOverlayConfig w.paths set.overlay = .ok (some cfg))
    (hothers : w.view.lists cfg 0 = false) (op : Operation) (hnone : s.removals = []) :
    (Reaches w op →
      ((∀ r ∈ (Script.stateOf (perform w set cfg op s)).removals, r.held = false) ↔
        LetsGoDuring w cfg s.clock s.status op)) ∧
    (¬ Reaches w op → ∃ e t, perform w set cfg op s = .error e t ∧ t.removals = []) := by
  have hothers' : w.view.lists (cfg.forUser w.asRoot) 0 = false := by
    cases w.asRoot <;> exact hothers
  cases op with
  | up =>
      refine ⟨fun hlower => ?_, fun hmissing => ⟨lowerdirError cfg, s, if_neg hmissing, hnone⟩⟩
      obtain ⟨t, hrestore, hiff⟩ := restore_live hothers hnone
      rw [perform, removals_up hlower hrestore]
      exact hiff
  | down =>
      refine ⟨fun _ => ?_, fun hnot => absurd trivial hnot⟩
      obtain ⟨t, hrestore, hiff⟩ := restore_live hothers hnone
      rw [perform, down, hrestore]
      exact hiff
  | startInfrastructure client =>
      constructor
      · intro hlower
        obtain ⟨t, hrestore, hiff⟩ := restore_live hothers' hnone
        rw [perform, removals_start hmanage hparse,
          removals_overlayMain_up hload hparse hlower hrestore]
        rw [letsGo_forUser] at hiff
        exact hiff
      · intro hmissing
        obtain ⟨e, hraised⟩ := start_missing hmanage hload hparse hmissing client s
        exact ⟨e, s, hraised, hnone⟩
  | stopInfrastructure =>
      obtain ⟨t, hclock, hstatus, hremovals, hreached, hnot⟩ :=
        stop_live (w := w) hmanage hparse s
      constructor
      · intro hreaches
        have hnone' : (w.tick (w.tick t)).removals = [] := by
          rw [removals_tick, removals_tick, hremovals, hnone]
        obtain ⟨t', hrestore, hiff⟩ := restore_live hothers' hnone'
        rw [perform, hreached hreaches, stateOf_overlayMain_down hload hparse hrestore, hiff,
          letsGo_forUser, letsGo_later, hclock, hstatus]
      · intro hmissing
        obtain ⟨e, t', hraised, hkept⟩ := hnot hmissing
        exact ⟨e, t', hraised, by rw [hkept, hnone]⟩

/-- No removal met a holder, and an overlay that is never let go of was refused:
the operation raised and removed nothing. -/
structure WipesSafely (w : Surroundings) (s : Live) (r : EStateM.Result Exn Live PUnit) :
    Prop where
  unheld : ∀ removal ∈ (Script.stateOf r).removals, removal.held = false
  refuses : s.status ≠ .unmounted → (∀ n, w.held (s.clock + n) = true) →
    (∃ e t, r = .error e t) ∧ (Script.stateOf r).removals = []

/-- Before an operation nothing was removed. -/
def Live.fresh (clock : ℕ) (status : Status) (proc : Option ℕ) : Live :=
  ⟨clock, status, [], proc⟩

theorem not_letsGoDuring_of_held {clock : ℕ} {status : Status} (hlive : status ≠ .unmounted)
    (hheld : ∀ n, w.held (clock + n) = true) (op : Operation) :
    ¬ LetsGoDuring w cfg clock status op := by
  cases op with
  | up => exact not_letsGo_of_held hlive hheld
  | down => exact not_letsGo_of_held hlive hheld
  | startInfrastructure client => exact not_letsGo_of_held hlive hheld
  | stopInfrastructure =>
      cases status with
      | unmounted => exact absurd rfl hlive
      | mounted =>
          apply not_letsGo_of_held hlive
          intro n
          rw [Nat.add_assoc]
          exact hheld (2 + n)
      | detached =>
          rintro ⟨n, -, hfree⟩
          rw [hheld n] at hfree
          cases hfree

/-- **Scratch is wiped under no holder, and an overlay that cannot be released is
refused, exactly when the holder lets go in time for every operation that
reaches the overlay.** -/
theorem perform_wipesSafely_iff (w : Surroundings) (set : Settings) (cfg : OverlayConfig)
    (hmanage : set.manageInfra = true)
    (hload : loadOverlaySection w.config = .ok set.overlay)
    (hparse : parseOverlayConfig w.paths set.overlay = .ok (some cfg))
    (hothers : w.view.lists cfg 0 = false) (op : Operation) (clock : ℕ) (status : Status)
    (proc : Option ℕ) :
    WipesSafely w (.fresh clock status proc)
        (perform w set cfg op (.fresh clock status proc)) ↔
      (Reaches w op → LetsGoDuring w cfg clock status op) := by
  obtain ⟨hreached, hmissed⟩ :=
    perform_live (s := .fresh clock status proc) hmanage hload hparse hothers op rfl
  constructor
  · exact fun h hreaches => (hreached hreaches).mp h.unheld
  · intro h
    by_cases hreaches : Reaches w op
    · refine ⟨(hreached hreaches).mpr (h hreaches), fun hlive hheld => ?_⟩
      exact absurd (h hreaches) (not_letsGoDuring_of_held hlive hheld op)
    · obtain ⟨e, t, hraised, hnone⟩ := hmissed hreaches
      rw [hraised]
      refine ⟨fun removal hremoval => ?_, fun _ _ => ⟨⟨e, t, rfl⟩, hnone⟩⟩
      rw [show (Script.stateOf (.error e t : EStateM.Result Exn Live PUnit)).removals = [] from
        hnone] at hremoval
      cases hremoval

/-- A configuration file with an overlay, and its parsed form. -/
def overlaySection : Json :=
  .obj [("enabled", .bool true), ("lowerdir", .str "/mnt/snapshot"),
    ("scratch_dir", .str "/mnt/overlay"), ("db_path_env", .str "DB_PATH")]

def overlayParsed : OverlayConfig where
  lowerdir := "/mnt/snapshot"
  scratchDir := "/mnt/overlay"
  dbPathEnv := "DB_PATH"
  name := "benchmark-overlay"
  mountOptions := defaultMountOptions
  useSudo := true

def overlaySettings : Settings where
  rpcUrl := "http://localhost:8545"
  sshPrefix := none
  manageInfra := true
  monitoringCompose := "docker/docker-compose.monitoring.yml"
  clientsCompose := "docker/docker-compose.clients.yml"
  composeCommand := ["docker", "compose"]
  envFileExists := false
  consensusMode := "none"
  mockCl := .obj []
  stopTimeoutSec := 600
  overlay := overlaySection
  configPath := "config.yml"
  dataDirs := []
  config := .obj []
  rpcStartupTimeout := 300

/-- A host on which every command succeeds, with a client container that holds
the overlay as `held` says. -/
def heldBy (held : ℕ → Bool) : Surroundings where
  view := ⟨true, [], fun p => p⟩
  hasLowerdir := true
  held := held
  exits _ := 0
  calls _ := some ⟨0, ""⟩
  popen := some 1
  terminate := .ok ⟨⟩
  wait := .ok ⟨⟩
  asRoot := true
  paths := ⟨fun v => match v with | .str s => s | _ => "", fun p => p⟩
  config := .obj [("overlay", overlaySection)]

theorem overlaySection_loads (held : ℕ → Bool) :
    loadOverlaySection (heldBy held).config = .ok overlaySettings.overlay := rfl

theorem overlaySection_parses (held : ℕ → Bool) :
    parseOverlayConfig (heldBy held).paths overlaySettings.overlay =
      .ok (some overlayParsed) := rfl

theorem heldBy_lists_none (held : ℕ → Bool) :
    (heldBy held).view.lists overlayParsed 0 = false := rfl

/-- The next client's start wipes the scratch of a container that is left
running. -/
theorem leftRunning_not_wipesSafely :
    ¬ WipesSafely (heldBy fun _ => true) (.fresh 0 .mounted none)
      (perform (heldBy fun _ => true) overlaySettings overlayParsed
        (.startInfrastructure "nethermind") (.fresh 0 .mounted none)) := by
  intro h
  have hlive := perform_live (w := heldBy fun _ => true) (s := .fresh 0 .mounted none) rfl
    (overlaySection_loads _) (overlaySection_parses _) (heldBy_lists_none _)
    (.startInfrastructure "nethermind") rfl
  have hreaches : Reaches (heldBy fun _ => true) (.startInfrastructure "nethermind") := rfl
  exact not_letsGoDuring_of_held (by decide) (fun _ => rfl) _
    ((hlive.1 hreaches).mp h.unheld)

/-- A container that stops with the clients lets go before the overlay is taken
down. -/
theorem stopped_wipesSafely :
    WipesSafely (heldBy fun n => decide (n < 2)) (.fresh 0 .mounted none)
      (perform (heldBy fun n => decide (n < 2)) overlaySettings overlayParsed
        .stopInfrastructure (.fresh 0 .mounted none)) := by
  apply (perform_wipesSafely_iff (heldBy fun n => decide (n < 2)) overlaySettings
    overlayParsed rfl (overlaySection_loads _) (overlaySection_parses _) (heldBy_lists_none _)
    .stopInfrastructure 0 .mounted none).mpr
  intro _
  have hnever : ∀ n, (heldBy fun n => decide (n < 2)).held (2 + n) = false := fun n =>
    decide_eq_false (by omega)
  cases hshown : (heldBy fun n => decide (n < 2)).view.lists overlayParsed 1 with
  | true => exact Or.inl ⟨hshown, Or.inl ⟨0, by decide, hnever 0⟩⟩
  | false => exact Or.inr ⟨hshown, fun j _ => hnever j⟩

end StateBenchmarks.Orchestrator
