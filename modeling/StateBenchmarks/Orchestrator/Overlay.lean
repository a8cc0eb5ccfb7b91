/-
# The overlay over the snapshot

`src/orchestrator/overlay.py` isolates a run from the snapshot it starts from by
mounting an overlay file system over it.  Its actions are scripts: they look at
the host, run a command, and go on or raise by the exit status.

The host is an interface.  What a command does to a disk, how long a process
holds a mount and what `/proc/mounts` shows are properties of a particular
host, and each result names the host it is about.
-/

import StateBenchmarks.Control.Script
import StateBenchmarks.Python.Json
import StateBenchmarks.Python.Paths

namespace StateBenchmarks.Orchestrator

open Python Control

/-- `DEFAULT_MOUNT_OPTIONS`. -/
def defaultMountOptions : List String := ["redirect_dir=on", "metacopy=on", "volatile"]

/-- `OverlayConfig`. -/
structure OverlayConfig where
  lowerdir : String
  scratchDir : String
  dbPathEnv : String
  name : String
  mountOptions : List String
  useSudo : Bool

/-- The three directories of the scratch area. -/
inductive Scratch where
  | merged
  | upper
  | work
  deriving DecidableEq

namespace Scratch

/-- The order in which they are removed and created. -/
def all : List Scratch := [.merged, .upper, .work]

def basename : Scratch → String
  | .merged => "merged"
  | .upper => "upper"
  | .work => "work"

end Scratch

namespace OverlayConfig

/-- `merged_dir`, `upper_dir` and `work_dir`. -/
def path (cfg : OverlayConfig) (d : Scratch) : String := joinPath cfg.scratchDir d.basename

/-- `_sudo_prefix`. -/
def sudoPrefix (cfg : OverlayConfig) : List String := if cfg.useSudo then ["sudo"] else []

end OverlayConfig

/-- What parsing a configuration takes from outside: `str` on a YAML value, and
`os.path.abspath` after `os.path.expanduser`. -/
structure PathEnv where
  str : Json → String
  resolve : String → String

/-- `[str(o) for o in v]`. -/
def strItems (env : PathEnv) : Json → Except Exn (List String)
  | .arr items => .ok (items.map env.str)
  | .str s => .ok (s.toList.map fun c => String.singleton c)
  | .obj fields => .ok (fields.map Prod.fst)
  | _ => .error .typeError

/-- `parse_overlay_config`. -/
def parseOverlayConfig (env : PathEnv) (cfg : Json) : Except Exn (Option OverlayConfig) := do
  if cfg.truthy = false then return none
  let enabled ← cfg.get "enabled"
  if enabled.truthy = false then return none
  let lowerdir ← cfg.get "lowerdir"
  if lowerdir.truthy = false then
    throw (.valueError [.text "overlay.enabled is true but overlay.lowerdir is not set"])
  let dbPathEnv ← cfg.get "db_path_env"
  if dbPathEnv.truthy = false then
    throw (.valueError [.text "overlay.enabled is true but overlay.db_path_env is not set"])
  let lowerdir := env.resolve (env.str lowerdir)
  let name ← cfg.get "name"
  let name := if name.truthy then env.str name else "benchmark-overlay"
  let scratch ← cfg.get "scratch_dir"
  let scratchDir :=
    if scratch.truthy then env.resolve (env.str scratch)
    else joinPath (dirname lowerdir) (".overlay-" ++ name)
  let options ← cfg.get "mount_options"
  let mountOptions ←
    if options.truthy then strItems env options else pure defaultMountOptions
  let withSudo ← cfg.getD "sudo" (.bool true)
  return some
    { lowerdir, scratchDir, dbPathEnv := env.str dbPathEnv, name, mountOptions,
      useSudo := withSudo.truthy }

/-- The commands the module runs. -/
inductive Command where
  | umount
  | umountLazy
  | rm (d : Scratch)
  | mkdir (d : Scratch)
  | chmod (d : Scratch)
  | mount
  deriving DecidableEq

namespace Command

/-- The options of the overlay mount. -/
def mountOpts (cfg : OverlayConfig) : String :=
  String.intercalate ","
    (["lowerdir=" ++ cfg.lowerdir, "upperdir=" ++ cfg.path .upper,
      "workdir=" ++ cfg.path .work] ++ cfg.mountOptions)

/-- The words handed to `subprocess.run`; `build_mount_command` and
`build_umount_command` are two of these lines. -/
def argv (cfg : OverlayConfig) : Command → List String
  | .umount => cfg.sudoPrefix ++ ["umount", cfg.path .merged]
  | .umountLazy => cfg.sudoPrefix ++ ["umount", "-l", cfg.path .merged]
  | .rm d => cfg.sudoPrefix ++ ["rm", "-rf", cfg.path d]
  | .mkdir d => cfg.sudoPrefix ++ ["mkdir", "-p", cfg.path d]
  | .chmod d => cfg.sudoPrefix ++ ["chmod", "0777", cfg.path d]
  | .mount =>
      cfg.sudoPrefix ++
        ["mount", "-t", "overlay", cfg.name, "-o", mountOpts cfg, cfg.path .merged]

end Command

/-- A line of the kernel's mount table. -/
structure Mount where
  device : String
  point : String
  fstype : String
  options : String

/-- The kernel writes white space and backslashes of a field in octal. -/
def octalEscape (c : Char) : List Char :=
  if c = ' ' then ['\\', '0', '4', '0']
  else if c = '\t' then ['\\', '0', '1', '1']
  else if c = '\n' then ['\\', '0', '1', '2']
  else if c = '\\' then ['\\', '1', '3', '4']
  else [c]

def escapeField (s : String) : List Char := s.toList.flatMap octalEscape

/-- The line of `/proc/mounts` for a mount. -/
def Mount.line (m : Mount) : List Char :=
  escapeField m.device ++ ' ' :: (escapeField m.point ++ ' ' :: (escapeField m.fstype ++
    ' ' :: (escapeField m.options ++ [' ', '0', ' ', '0', '\n'])))

/-- The text of `/proc/mounts`. -/
def procMounts (table : List Mount) : String := String.ofList (table.flatMap Mount.line)

/-- The lines of the table are those of its mounts. -/
theorem any_textLines_procMounts (P : String → Bool) (table : List Mount) :
    (textLines (procMounts table)).any P =
      table.any fun m => (textLines (String.ofList m.line)).any P := by
  simp only [textLines, procMounts, String.toList_ofList, List.any_map]
  induction table with
  | nil => rfl
  | cons m rest ih =>
      obtain ⟨front, hfront⟩ : ∃ front, m.line = front ++ ['\n'] :=
        ⟨escapeField m.device ++ ' ' :: (escapeField m.point ++ ' ' :: (escapeField m.fstype ++
          ' ' :: (escapeField m.options ++ [' ', '0', ' ', '0']))), by simp [Mount.line]⟩
      have hsplit := linesFrom_newline [] front (rest.flatMap Mount.line) false nofun
      rw [List.flatMap_cons, hfront, List.append_assoc, List.singleton_append, hsplit,
        List.any_append, ih, List.any_cons, hfront]

/-- What a line says about the mount point `target`, in `is_mounted`. -/
def linePoints (realpath : String → String) (target line : String) : Bool :=
  match splitWords line with
  | _ :: point :: fstype :: _ => realpath point == target && fstype == "overlay"
  | _ => false

/-- What `is_mounted` makes of the text of `/proc/mounts`, or of `ismount` on a
host without it. -/
def readsMounted (realpath : String → String) (text : Option String) (ismount : String → Bool)
    (cfg : OverlayConfig) : Bool :=
  match text with
  | some text => (textLines text).any (linePoints realpath (realpath (cfg.path .merged)))
  | none => ismount (cfg.path .merged)

/-- A host as it shows its mounts, apart from the overlays at the merged
directory. -/
structure MountView where
  procfs : Bool
  others : List Mount
  realpath : String → String

namespace MountView

variable (v : MountView) (cfg : OverlayConfig)

/-- The overlay as the mount table lists it. -/
def overlayMount : Mount :=
  ⟨cfg.name, v.realpath (cfg.path .merged), "overlay", "rw," ++ Command.mountOpts cfg⟩

/-- `/proc/mounts` with `n` overlays stacked at the merged directory. -/
def text (n : ℕ) : Option String :=
  if v.procfs then some (procMounts (v.others ++ List.replicate n (v.overlayMount cfg)))
  else none

/-- `os.path.ismount` with `n` overlays stacked there. -/
def ismount (n : ℕ) (p : String) : Bool := decide (0 < n) || v.others.any (·.point == p)

/-- `is_mounted` with `n` overlays stacked there. -/
def lists (n : ℕ) : Bool := readsMounted v.realpath (v.text cfg n) (v.ismount n) cfg

/-- Either an overlay is listed whatever is stacked, or what is stacked decides,
if it can be read. -/
theorem lists_eq : ∃ elsewhere shown : Bool, ∀ n,
    v.lists cfg n = (elsewhere || (decide (0 < n) && shown)) := by
  cases hprocfs : v.procfs with
  | false =>
      refine ⟨v.others.any (·.point == cfg.path .merged), true, fun n => ?_⟩
      rw [Bool.and_true, Bool.or_comm, lists, text, hprocfs]
      rfl
  | true =>
      let reads := linePoints v.realpath (v.realpath (cfg.path .merged))
      let listed := fun m : Mount => (textLines (String.ofList m.line)).any reads
      refine ⟨v.others.any listed, listed (v.overlayMount cfg), fun n => ?_⟩
      rw [lists, text, hprocfs, if_pos rfl]
      show (textLines (procMounts _)).any reads = _
      rw [any_textLines_procMounts, List.any_append, List.any_replicate]
      cases n <;> simp [listed]

end MountView

/-- The host a script runs on: what it answers when looked at, and what a
command does to it.  A command whose executable is missing has no exit
status. -/
structure Host (σ : Type) where
  isDir : String → σ → Bool
  realpath : String → σ → String
  /-- The text of `/proc/mounts`, on a host that has it, as far as its bytes are
  UTF-8. -/
  procMounts : σ → Option String
  /-- Whether there is more of it that is not. -/
  garbled : σ → Bool := fun _ => false
  ismount : String → σ → Bool
  exec : Command → σ → Option ℤ × σ
  sleep : σ → σ

variable {σ : Type} (H : Host σ) (cfg : OverlayConfig)

/-- `is_mounted`, by what can be read. -/
def isMounted (s : σ) : Bool :=
  readsMounted (fun p => H.realpath p s) (H.procMounts s) (fun p => H.ismount p s) cfg

/-- `is_mounted` comes to a byte that is not UTF-8 before it has found the overlay. -/
def Unreadable (s : σ) : Prop :=
  (H.procMounts s).isSome = true ∧ H.garbled s = true ∧ isMounted H cfg s = false

instance (s : σ) : Decidable (Unreadable H cfg s) :=
  inferInstanceAs (Decidable (_ ∧ _ ∧ _))

/-- `_run`. -/
def run (command : Command) (check : Bool) : Script Exn σ ℤ := fun s =>
  match H.exec command s with
  | (none, s') => .error (.notFound (command.argv cfg)) s'
  | (some status, s') =>
      if check = true ∧ status ≠ 0 then .error (.calledProcessError (command.argv cfg)) s'
      else .ok status s'

/-- `_run` as a statement. -/
def call (command : Command) (check : Bool) : Script Exn σ PUnit := do
  let _ ← run H cfg command check

/-- `is_mounted` where a script asks it. -/
def askMounted : Script Exn σ Bool := fun s =>
  if Unreadable H cfg s then .error (.external "UnicodeDecodeError") s
  else .ok (isMounted H cfg s) s

/-- The loop of `_umount_with_retry`, with the attempts left: whether one of
them released the mount. -/
def umountAttempts : ℕ → Script Exn σ Bool
  | 0 => pure false
  | left + 1 => do
      call H cfg .umount false
      if ← askMounted H cfg then
        modify H.sleep
        umountAttempts left
      else
        return true

/-- What `_umount_with_retry` raises about a mount it could not release. -/
def busyError : Exn :=
  .runtimeError
    [.text "could not unmount overlay at ", .str (.str (cfg.path .merged)),
      .text ": target is busy — stop the container using it first"]

/-- `_umount_with_retry`, with its default of five attempts. -/
def umountWithRetry : Script Exn σ PUnit := do
  if ← umountAttempts H cfg 5 then
    return ⟨⟩
  else
    call H cfg .umountLazy false
    if ← askMounted H cfg then
      throw (busyError cfg)
    else
      return ⟨⟩

/-- Removing one scratch directory; the exit status is not looked at. -/
def remove (d : Scratch) : Script Exn σ PUnit := call H cfg (.rm d) false

/-- The unmounting part of `restore`. -/
def release : Script Exn σ PUnit := do
  if ← askMounted H cfg then
    umountWithRetry H cfg
  else
    return ⟨⟩

/-- `restore`. -/
def restore : Script Exn σ PUnit := do
  release H cfg
  Scratch.all.forM (remove H cfg)

/-- Creating one scratch directory. -/
def prepare (d : Scratch) : Script Exn σ PUnit := do
  call H cfg (.mkdir d) true
  call H cfg (.chmod d) true

/-- `prepare_dirs`. -/
def prepareDirs : Script Exn σ PUnit := Scratch.all.forM (prepare H cfg)

/-- What `up` raises without a snapshot. -/
def lowerdirError : Exn :=
  .fileNotFoundError
    [.text "overlay lowerdir (snapshot) does not exist: ", .str (.str cfg.lowerdir)]

/-- `up`. -/
def up : Script Exn σ PUnit := fun s =>
  if H.isDir cfg.lowerdir s then
    (do
      restore H cfg
      prepareDirs H cfg
      call H cfg .mount true) s
  else .error (lowerdirError cfg) s

/-- `down`. -/
def down : Script Exn σ PUnit := restore H cfg

/-- The actions of the command line. -/
inductive Action where
  | up
  | down
  | env
  | status
  deriving DecidableEq

def Action.name : Action → String
  | .up => "up"
  | .down => "down"
  | .env => "env"
  | .status => "status"

/-- `_load_overlay_section`, from the parsed YAML file. -/
def loadOverlaySection (config : Json) : Except Exn Json := config.orEmptyGet "overlay"

/-- Root needs no `sudo`. -/
def OverlayConfig.forUser (cfg : OverlayConfig) (asRoot : Bool) : OverlayConfig :=
  if asRoot then { cfg with useSudo := false } else cfg

/-- `main`: the line it prints, if any.  A host may depend on the configuration
whose directories it stands for. -/
def overlayMain (host : OverlayConfig → Host σ) (env : PathEnv) (config : Json)
    (asRoot : Bool) (action : Action) : Script Exn σ (Option String) := do
  let overlay ← Script.ofExcept (loadOverlaySection config)
  match ← Script.ofExcept (parseOverlayConfig env overlay) with
  | none => return none
  | some cfg =>
      let cfg := cfg.forUser asRoot
      match action with
      | .up =>
          up (host cfg) cfg
          return none
      | .down =>
          down (host cfg) cfg
          return none
      | .status => return none
      | .env => return some ("export " ++ cfg.dbPathEnv ++ "=" ++ cfg.path .merged)

end StateBenchmarks.Orchestrator
