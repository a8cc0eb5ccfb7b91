/-
# A fresh overlay shows the snapshot

`up` wipes the scratch directories before it mounts, so that a run starts from
the snapshot whatever the run before left behind.  The host here is a disk: the
overlays stacked on the merged directory, and what the scratch directories hold.
Every command may fail, and an `rm` that fails may leave anything.

`up` checks every command but the removals.  A removal that leaves something in
the upper or the work directory goes unnoticed, and the overlay is mounted over
the leftovers.  That, and a mount that the mount table does not show readably,
are the only ways to miss the snapshot.
-/

import StateBenchmarks.Orchestrator.OverlayRelease

namespace StateBenchmarks.Orchestrator

open Python Control

/-- What a layer records at a path: a file, or that the path was deleted. -/
inductive Entry where
  | file (content : String)
  | whiteout

/-- The recorded paths of a layer. -/
abbrev Layer := Dict Entry

/-- What a process sees through an overlay of `upper` on `lower`. -/
def mergedView (lower upper : Layer) (path : String) : Option Entry :=
  match Dict.get? upper path with
  | some .whiteout => none
  | some entry => some entry
  | none => Dict.get? lower path

/-- What the mount command found when it ran. -/
structure MountShot where
  overlays : ℕ
  upper : Layer
  work : Layer

/-- The scratch area of a host, and how often a plain umount was tried. -/
structure Disk where
  /-- The overlays stacked on the merged directory. -/
  overlays : ℕ
  dirs : Scratch → Option Layer
  umounts : ℕ
  atMount : Option MountShot

/-- Everything else about the host: what it shows, and how each command ends,
`none` for a missing executable. -/
structure Outcomes where
  hasLowerdir : Bool
  view : MountView
  umount : ℕ → Option ℤ
  umountLazy : Option ℤ
  rm : Scratch → Option ℤ
  /-- What a failing `rm` leaves of a directory. -/
  keeps : Scratch → String → Bool
  mkdir : Scratch → Option ℤ
  chmod : Scratch → Option ℤ
  mount : Option ℤ

namespace Disk

/-- A directory that is absent holds nothing. -/
def content (d : Disk) (x : Scratch) : Layer := (d.dirs x).getD []

def setDir (d : Disk) (x : Scratch) (layer : Option Layer) : Disk :=
  { d with dirs := Function.update d.dirs x layer }

end Disk

namespace Outcomes

variable (o : Outcomes) (cfg : OverlayConfig)

/-- What `rm -rf` leaves of a layer. -/
def leaves (x : Scratch) (layer : Layer) : Layer :=
  if o.rm x = some 0 then [] else layer.filter fun entry => o.keeps x entry.1

/-- The effect of a command on the disk. -/
def effect (d : Disk) : Command → Disk
  | .umount =>
      { d with
        umounts := d.umounts + 1
        overlays := if o.umount d.umounts = some 0 then d.overlays - 1 else d.overlays }
  | .umountLazy =>
      { d with overlays := if o.umountLazy = some 0 then d.overlays - 1 else d.overlays }
  | .rm x =>
      match o.rm x with
      | none => d
      | some status =>
          d.setDir x (if status = 0 then none else (d.dirs x).map (o.leaves x))
  | .mkdir x => if o.mkdir x = some 0 then d.setDir x (some (d.content x)) else d
  | .chmod _ => d
  | .mount =>
      match o.mount with
      | none => d
      | some status =>
          { d with
            overlays := if status = 0 then d.overlays + 1 else d.overlays
            atMount := some ⟨d.overlays, d.content .upper, d.content .work⟩ }

/-- The exit status of a command. -/
def status (d : Disk) : Command → Option ℤ
  | .umount => o.umount d.umounts
  | .umountLazy => o.umountLazy
  | .rm x => o.rm x
  | .mkdir x => o.mkdir x
  | .chmod x => o.chmod x
  | .mount => o.mount

/-- The host around a disk. -/
def host : Host Disk where
  isDir _ _ := o.hasLowerdir
  realpath p _ := o.view.realpath p
  procMounts d := o.view.text cfg d.overlays
  ismount p d := o.view.ismount d.overlays p
  exec command d := (o.status d command, o.effect d command)
  sleep d := d

end Outcomes

variable {o : Outcomes} {cfg : OverlayConfig} {d d' : Disk}

/-- A release that returns has taken every overlay off exactly when `is_mounted`
saw one of those there were. -/
theorem overlays_of_release (h : release (o.host cfg) cfg d = .ok ⟨⟩ d') :
    d'.overlays = 0 ↔ (0 < d.overlays → isMounted (o.host cfg) cfg d = true) := by
  obtain ⟨elsewhere, shown, hlists⟩ := o.view.lists_eq cfg
  have hreads : ∀ d, isMounted (o.host cfg) cfg d =
      (elsewhere || (decide (0 < d.overlays) && shown)) :=
    fun d => hlists d.overlays
  have hgone := isMounted_of_release h
  cases hmounted : isMounted (o.host cfg) cfg d with
  | false =>
      rw [release_of_not_mounted hmounted (not_unreadable rfl)] at h
      cases h
      simp
  | true =>
      refine iff_of_true ?_ fun _ => rfl
      rw [hreads] at hgone hmounted
      by_contra hleft
      have hpos : 0 < d'.overlays := Nat.pos_of_ne_zero hleft
      cases elsewhere <;> cases shown <;> simp_all

/-- A release does not look into the scratch directories. -/
theorem dirs_of_release (h : release (o.host cfg) cfg d = .ok ⟨⟩ d') : d'.dirs = d.dirs := by
  have hkeeps : Script.Keeps (fun t : Disk => t.dirs = d.dirs) (release (o.host cfg) cfg) :=
    keeps_release (fun _ hs => hs) (fun _ hs => hs) (fun _ hs => hs) cfg
  have hend := hkeeps d rfl
  rw [h] at hend
  exact hend

@[simp]
theorem content_setDir (d : Disk) (x y : Scratch) (layer : Option Layer) :
    (d.setDir x layer).content y = if y = x then layer.getD [] else d.content y := by
  simp only [Disk.content, Disk.setDir, Function.update_apply]
  split_ifs <;> rfl

@[simp]
theorem overlays_setDir (d : Disk) (x : Scratch) (layer : Option Layer) :
    (d.setDir x layer).overlays = d.overlays := rfl

/-- An `rm` that runs leaves of its directory what the host keeps. -/
theorem remove_eq_ok_iff {x : Scratch} :
    remove (o.host cfg) cfg x d = .ok ⟨⟩ d' ↔ o.rm x ≠ none ∧ d' = o.effect d (.rm x) := by
  rw [remove, call_eq_ok_iff, Option.ne_none_iff_exists']
  constructor
  · rintro ⟨status, hexec, -⟩
    obtain ⟨hstatus, rfl⟩ := Prod.mk.inj hexec
    exact ⟨⟨status, hstatus⟩, rfl⟩
  · rintro ⟨⟨status, hstatus⟩, rfl⟩
    exact ⟨status, Prod.mk_inj.mpr ⟨hstatus, rfl⟩, nofun⟩

theorem content_rm {x : Scratch} (h : o.rm x ≠ none) (y : Scratch) :
    (o.effect d (.rm x)).content y =
      if y = x then o.leaves x (d.content x) else d.content y := by
  obtain ⟨status, hstatus⟩ := Option.ne_none_iff_exists'.mp h
  rw [Outcomes.effect, hstatus]
  dsimp only
  rw [content_setDir]
  by_cases hyx : y = x
  · rw [if_pos hyx, if_pos hyx]
    by_cases hzero : status = 0
    · rw [if_pos hzero, Outcomes.leaves, if_pos (by rw [hstatus, hzero])]
      rfl
    · rw [if_neg hzero, Disk.content, Outcomes.leaves,
        if_neg (by rw [hstatus]; simpa using hzero)]
      cases d.dirs x with
      | none => rfl
      | some layer =>
          rw [Option.map_some, Option.getD_some, Option.getD_some, Outcomes.leaves,
            if_neg (by rw [hstatus]; simpa using hzero)]
  · rw [if_neg hyx, if_neg hyx]

theorem overlays_rm (d : Disk) (x : Scratch) : (o.effect d (.rm x)).overlays = d.overlays := by
  rw [Outcomes.effect]
  cases o.rm x <;> rfl

/-- The three removals, and what they leave. -/
theorem wipe_eq_ok_iff :
    Scratch.all.forM (remove (o.host cfg) cfg) d = .ok ⟨⟩ d' ↔
      (∀ x, o.rm x ≠ none) ∧
        d' = Scratch.all.foldl (fun t x => o.effect t (.rm x)) d := by
  refine (Script.forM_eq_ok_iff (f := remove (o.host cfg) cfg)
    (fun x s t => remove_eq_ok_iff) Scratch.all d d').trans
    (and_congr_left fun _ => ⟨fun h x => h x ?_, fun h x _ => h x⟩)
  cases x <;> decide

theorem content_wiped (h : ∀ x, o.rm x ≠ none) (x : Scratch) :
    (Scratch.all.foldl (fun t x => o.effect t (.rm x)) d).content x =
      o.leaves x (d.content x) := by
  simp only [Scratch.all, List.foldl_cons, List.foldl_nil, content_rm (h _)]
  cases x <;> simp

/-- Creating a directory keeps what it holds. -/
theorem prepare_eq_ok_iff {x : Scratch} :
    prepare (o.host cfg) cfg x d = .ok ⟨⟩ d' ↔
      (o.mkdir x = some 0 ∧ o.chmod x = some 0) ∧
        d' = d.setDir x (some (d.content x)) := by
  rw [prepare, Script.bind_eq_ok_iff]
  constructor
  · rintro ⟨⟨⟩, s, hmkdir, hchmod⟩
    obtain ⟨status, hexec, hzero⟩ := call_eq_ok_iff.mp hmkdir
    obtain ⟨status', hexec', hzero'⟩ := call_eq_ok_iff.mp hchmod
    obtain ⟨hm, rfl⟩ := Prod.mk.inj hexec
    obtain ⟨hc, rfl⟩ := Prod.mk.inj hexec'
    have hm' : o.mkdir x = some 0 := by rw [← hzero rfl]; exact hm
    have hc' : o.chmod x = some 0 := by rw [← hzero' rfl]; exact hc
    refine ⟨⟨hm', hc'⟩, ?_⟩
    simp [Outcomes.effect, hm']
  · rintro ⟨⟨hm, hc⟩, rfl⟩
    refine ⟨⟨⟩, o.effect d (.mkdir x), call_eq_ok_iff.mpr ⟨0, ?_, fun _ => rfl⟩,
      call_eq_ok_iff.mpr ⟨0, ?_, fun _ => rfl⟩⟩
    · exact Prod.mk_inj.mpr ⟨hm, rfl⟩
    · refine Prod.mk_inj.mpr ⟨hc, ?_⟩
      simp [Outcomes.effect, hm]

theorem prepareDirs_eq_ok_iff :
    prepareDirs (o.host cfg) cfg d = .ok ⟨⟩ d' ↔
      (∀ x, o.mkdir x = some 0 ∧ o.chmod x = some 0) ∧
        d' = Scratch.all.foldl (fun t x => t.setDir x (some (t.content x))) d := by
  refine (Script.forM_eq_ok_iff (f := prepare (o.host cfg) cfg)
    (fun x s t => prepare_eq_ok_iff) Scratch.all d d').trans
    (and_congr_left fun _ => ⟨fun h x => h x ?_, fun h x _ => h x⟩)
  cases x <;> decide

theorem content_prepared (d : Disk) (x : Scratch) :
    (Scratch.all.foldl (fun t x => t.setDir x (some (t.content x))) d).content x =
      d.content x := by
  simp only [Scratch.all, List.foldl_cons, List.foldl_nil, content_setDir, Option.getD_some]
  cases x <;> simp

/-- The mount command found no overlay and empty directories, so that what it
mounted shows the snapshot. -/
structure MountShot.Pristine (shot : MountShot) (snapshot : Layer) : Prop where
  unmounted : shot.overlays = 0
  upper_empty : shot.upper = []
  work_empty : shot.work = []
  view : ∀ path, mergedView snapshot shot.upper path = Dict.get? snapshot path

/-- The script raised, or returned after a pristine mount. -/
def MountsPristine (snapshot : Layer) : EStateM.Result Exn Disk PUnit → Prop
  | .ok _ d => ∃ shot, d.atMount = some shot ∧ shot.Pristine snapshot
  | .error _ _ => True

/-- Everything `up` checks goes through. -/
structure Completes (o : Outcomes) (cfg : OverlayConfig) (d : Disk) : Prop where
  lowerdir : o.hasLowerdir = true
  released : Releases (o.host cfg) cfg d
  removing : ∀ x, o.rm x ≠ none
  created : ∀ x, o.mkdir x = some 0 ∧ o.chmod x = some 0
  mounted : o.mount = some 0

/-- What `up` does not check: that `is_mounted` saw the overlay there was, and
that the removals left nothing behind in the upper and the work directory. -/
structure Wiped (o : Outcomes) (cfg : OverlayConfig) (d : Disk) : Prop where
  seen : 0 < d.overlays → isMounted (o.host cfg) cfg d = true
  upper : o.leaves .upper (d.content .upper) = []
  work : o.leaves .work (d.content .work) = []

/-- A mount over empty directories shows the snapshot. -/
theorem mergedView_nil (snapshot : Layer) (path : String) :
    mergedView snapshot [] path = Dict.get? snapshot path := rfl

theorem pristine_iff {shot : MountShot} {snapshot : Layer} :
    shot.Pristine snapshot ↔ shot.overlays = 0 ∧ shot.upper = [] ∧ shot.work = [] := by
  constructor
  · exact fun h => ⟨h.unmounted, h.upper_empty, h.work_empty⟩
  · rintro ⟨hoverlays, hupper, hwork⟩
    exact ⟨hoverlays, hupper, hwork, fun path => by rw [hupper, mergedView_nil]⟩

/-- The mount command runs over what the removals left of each directory. -/
theorem atMount_of_mount (hmount : o.mount = some 0) (d : Disk) :
    (o.effect d .mount).atMount = some ⟨d.overlays, d.content .upper, d.content .work⟩ := by
  simp [Outcomes.effect, hmount]

/-- `up` returns exactly when everything it checks goes through. -/
theorem up_eq_ok_iff :
    up (o.host cfg) cfg d = .ok ⟨⟩ d' ↔
      o.hasLowerdir = true ∧ ∃ d₀, release (o.host cfg) cfg d = .ok ⟨⟩ d₀ ∧
        (∀ x, o.rm x ≠ none) ∧ (∀ x, o.mkdir x = some 0 ∧ o.chmod x = some 0) ∧
        o.mount = some 0 ∧
        d' = o.effect (Scratch.all.foldl (fun t x => t.setDir x (some (t.content x)))
          (Scratch.all.foldl (fun t x => o.effect t (.rm x)) d₀)) .mount := by
  cases hlower : o.hasLowerdir with
  | false => simp [up, Outcomes.host, hlower]
  | true =>
      rw [up, if_pos (show (o.host cfg).isDir cfg.lowerdir d = true from hlower),
        Script.bind_eq_ok_iff]
      constructor
      · rintro ⟨⟨⟩, d₁, hrestore, hrest⟩
        obtain ⟨⟨⟩, d₀, hrelease, hwipe⟩ := Script.bind_eq_ok_iff.mp hrestore
        obtain ⟨hrm, rfl⟩ := wipe_eq_ok_iff.mp hwipe
        obtain ⟨⟨⟩, d₂, hprepare, hmount⟩ := Script.bind_eq_ok_iff.mp hrest
        obtain ⟨hcreated, rfl⟩ := prepareDirs_eq_ok_iff.mp hprepare
        obtain ⟨status, hexec, hzero⟩ := call_eq_ok_iff.mp hmount
        obtain ⟨hstatus, rfl⟩ := Prod.mk.inj hexec
        have hmounted : o.mount = some 0 := by rw [← hzero rfl]; exact hstatus
        exact ⟨rfl, d₀, hrelease, hrm, hcreated, hmounted, rfl⟩
      · rintro ⟨-, d₀, hrelease, hrm, hcreated, hmounted, rfl⟩
        refine ⟨⟨⟩, _, Script.bind_eq_ok_iff.mpr ⟨⟨⟩, d₀, hrelease,
          wipe_eq_ok_iff.mpr ⟨hrm, rfl⟩⟩, Script.bind_eq_ok_iff.mpr ⟨⟨⟩, _,
          prepareDirs_eq_ok_iff.mpr ⟨hcreated, rfl⟩, ?_⟩⟩
        exact call_eq_ok_iff.mpr ⟨0, Prod.mk_inj.mpr ⟨hmounted, rfl⟩, fun _ => rfl⟩

theorem completes_iff : Completes o cfg d ↔ ∃ d', up (o.host cfg) cfg d = .ok ⟨⟩ d' := by
  constructor
  · intro h
    obtain ⟨d₀, hrelease⟩ := (release_isOk_iff fun _ => not_unreadable rfl).mpr h.released
    exact ⟨_, up_eq_ok_iff.mpr
      ⟨h.lowerdir, d₀, hrelease, h.removing, h.created, h.mounted, rfl⟩⟩
  · rintro ⟨d', hup⟩
    obtain ⟨hlower, d₀, hrelease, hrm, hcreated, hmount, -⟩ := up_eq_ok_iff.mp hup
    have hreleased := (release_isOk_iff fun _ => not_unreadable rfl).mp ⟨d₀, hrelease⟩
    exact ⟨hlower, hreleased, hrm, hcreated, hmount⟩

/-- Where `up` returns, its mount was pristine exactly when the wiping had
worked. -/
theorem mountsPristine_of_up (snapshot : Layer) (h : up (o.host cfg) cfg d = .ok ⟨⟩ d') :
    MountsPristine snapshot (.ok ⟨⟩ d') ↔ Wiped o cfg d := by
  obtain ⟨-, d₀, hrelease, hrm, -, hmount, rfl⟩ := up_eq_ok_iff.mp h
  have hoverlays := overlays_of_release hrelease
  have hcontent : ∀ x, d₀.content x = d.content x := fun x => by
    rw [Disk.content, Disk.content, dirs_of_release hrelease]
  rw [MountsPristine, atMount_of_mount hmount]
  simp only [content_prepared, content_wiped hrm, hcontent, Option.some.injEq, exists_eq_left',
    pristine_iff]
  have hstack : (Scratch.all.foldl (fun t x => t.setDir x (some (t.content x)))
      (Scratch.all.foldl (fun t x => o.effect t (.rm x)) d₀)).overlays = d₀.overlays := by
    simp only [Scratch.all, List.foldl_cons, List.foldl_nil, overlays_setDir, overlays_rm]
  rw [hstack, hoverlays]
  exact ⟨fun ⟨hseen, hupper, hwork⟩ => ⟨hseen, hupper, hwork⟩,
    fun h => ⟨h.seen, h.upper, h.work⟩⟩

/-- **`up` mounts over a pristine scratch area or raises, exactly when what it
does not check holds wherever everything it checks goes through.** -/
theorem up_mountsPristine_iff (o : Outcomes) (cfg : OverlayConfig) (d : Disk)
    (snapshot : Layer) :
    MountsPristine snapshot (up (o.host cfg) cfg d) ↔ (Completes o cfg d → Wiped o cfg d) := by
  rw [completes_iff]
  cases hup : up (o.host cfg) cfg d with
  | ok _ d' =>
      rw [mountsPristine_of_up snapshot hup]
      exact ⟨fun h _ => h, fun h => h ⟨d', rfl⟩⟩
  | error e d' =>
      apply iff_of_true trivial
      rintro ⟨d'', hok⟩
      cases hok

/-- An `rm` of the upper directory that fails, on a host where everything else
goes through. -/
def failingRm : Outcomes where
  hasLowerdir := true
  view := ⟨true, [], fun p => p⟩
  umount _ := some 0
  umountLazy := some 0
  rm x := if x = .upper then some 1 else some 0
  keeps _ _ := true
  mkdir _ := some 0
  chmod _ := some 0
  mount := some 0

/-- What a crashed run left behind: no overlay, but a block in the upper layer. -/
def crashed : Disk where
  overlays := 0
  dirs x := if x = .upper then some [("state.db", .file "block 2")] else none
  umounts := 0
  atMount := none

/-- A configuration as the templates have it. -/
def snapshotConfig : OverlayConfig where
  lowerdir := "/mnt/bigdata/snapshot"
  scratchDir := "/mnt/bigdata/overlay"
  dbPathEnv := "NETHERMIND_DB_PATH"
  name := "benchmark-overlay"
  mountOptions := defaultMountOptions
  useSudo := true

/-- The next run starts from the block the crashed one wrote. -/
theorem leftovers_not_mountsPristine :
    ¬ MountsPristine [("state.db", .file "block 1")]
      (up (failingRm.host snapshotConfig) snapshotConfig crashed) := by
  have hcompletes : Completes failingRm snapshotConfig crashed := by
    refine ⟨rfl, Or.inl (by decide), fun x => ?_, fun x => ⟨rfl, rfl⟩, rfl⟩
    cases x <;> decide
  obtain ⟨d', hup⟩ := completes_iff.mp hcompletes
  rw [hup, mountsPristine_of_up _ hup]
  intro hwiped
  have hupper := hwiped.upper
  simp [Outcomes.leaves, failingRm, crashed, Disk.content] at hupper

end StateBenchmarks.Orchestrator
