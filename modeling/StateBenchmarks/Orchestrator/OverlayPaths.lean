/-
# What the overlay deletes

`restore` passes three directories to `rm -rf`.  They are the children of the
scratch directory, which the configuration gives, or which is put beside the
snapshot under the overlay's name.  Nothing relates it to the snapshot: a scratch
directory inside the snapshot, or one whose child the snapshot is, is accepted as
any other.
-/

import StateBenchmarks.Orchestrator.Overlay

namespace StateBenchmarks.Orchestrator

open Python Control

/-- What resolving a path takes from the host: home directories, and the working
directory. -/
structure PathHost where
  str : Json → String
  expanduser : String → String
  cwd : String
  cwd_rooted : Rooted cwd

namespace PathHost

variable (host : PathHost)

/-- `str`, and `os.path.abspath(os.path.expanduser(p))`. -/
def env : PathEnv := ⟨host.str, fun p => abspath host.cwd (host.expanduser p)⟩

/-- Where a path of the configuration leads. -/
def place (v : Json) : Place := location (abspath host.cwd (host.expanduser (host.str v)))

/-- Where the scratch directory is: where the configuration puts it, or beside the
snapshot. -/
def scratchPlace (lowerdir scratch name : Json) : Place :=
  if scratch.truthy then host.place scratch
  else follow (host.place lowerdir).dropLast
    (".overlay-" ++ if name.truthy then host.str name else "benchmark-overlay").toList

end PathHost

/-- Neither directory is the other one, or inside it. -/
def Apart (a b : Place) : Prop := ¬ a <+: b ∧ ¬ b <+: a

/-- None of the directories passed to `rm -rf` is the snapshot, above it or inside
it. -/
def SnapshotSpared (cfg : OverlayConfig) : Prop :=
  ∀ d : Scratch, Apart (location (cfg.path d)) (location cfg.lowerdir)

/-- The scratch directory is not the snapshot or inside it, and the snapshot is not
one of its three children or inside one. -/
structure ScratchClear (snapshot scratch : Place) : Prop where
  outside : ¬ snapshot <+: scratch
  notChild : ∀ d : Scratch, ¬ scratch ++ [d.basename.toList] <+: snapshot

/-- The directories that are deleted are children of the scratch directory. -/
theorem location_path (cfg : OverlayConfig) (d : Scratch) :
    location (cfg.path d) = location cfg.scratchDir ++ [d.basename.toList] := by
  have hrelative : ¬ Rooted d.basename := by cases d <;> decide
  have hentry : IsEntry d.basename.toList := by
    cases d <;> exact ⟨by decide, by decide, by decide, by decide⟩
  rw [OverlayConfig.path, location_joinPath _ hrelative, follow_of_noSlash hentry.noSlash,
    enter_of_isEntry hentry]

theorem snapshotSpared_iff_scratchClear (cfg : OverlayConfig) :
    SnapshotSpared cfg ↔ ScratchClear (location cfg.lowerdir) (location cfg.scratchDir) := by
  apply Iff.intro
  · intro h
    refine ⟨fun hinside => ?_, fun d => ?_⟩
    · apply (h .merged).2
      rw [location_path]
      exact hinside.trans (List.prefix_append _ _)
    · rw [← location_path]
      exact (h d).1
  · intro h d
    rw [Apart, location_path]
    refine ⟨h.notChild d, fun hinside => ?_⟩
    rcases List.prefix_concat_iff.mp hinside with heq | hprefix
    · exact h.notChild d (heq ▸ List.prefix_rfl)
    · exact h.outside hprefix

theorem not_rooted_overlayName (name : String) : ¬ Rooted (".overlay-" ++ name) := by
  intro h
  rw [Rooted, String.toList_append] at h
  cases h

/-- An accepted section's snapshot and scratch directory, as its fields give them. -/
theorem dirs_of_parseOverlayConfig {env : PathEnv} {overlay lowerdir scratch name : Json}
    {cfg : OverlayConfig} (hparse : parseOverlayConfig env overlay = .ok (some cfg))
    (hlowerdir : overlay.get "lowerdir" = .ok lowerdir)
    (hscratch : overlay.get "scratch_dir" = .ok scratch)
    (hname : overlay.get "name" = .ok name) :
    cfg.lowerdir = env.resolve (env.str lowerdir) ∧
      cfg.scratchDir =
        if scratch.truthy then env.resolve (env.str scratch)
        else joinPath (dirname (env.resolve (env.str lowerdir)))
          (".overlay-" ++ if name.truthy then env.str name else "benchmark-overlay") := by
  rw [parseOverlayConfig, hlowerdir, hscratch, hname] at hparse
  split_ifs at hparse
  · cases hparse
  obtain ⟨enabled, -, hparse⟩ := except_bind_eq_ok hparse
  split_ifs at hparse
  · cases hparse
  obtain ⟨_, ⟨⟩, hparse⟩ := except_bind_eq_ok hparse
  split_ifs at hparse
  · obtain ⟨_, hraised, -⟩ := except_bind_eq_ok hparse
    cases hraised
  obtain ⟨dbPathEnv, -, hparse⟩ := except_bind_eq_ok hparse
  split_ifs at hparse
  · obtain ⟨_, hraised, -⟩ := except_bind_eq_ok hparse
    cases hraised
  obtain ⟨_, ⟨⟩, hparse⟩ := except_bind_eq_ok hparse
  obtain ⟨_, ⟨⟩, hparse⟩ := except_bind_eq_ok hparse
  obtain ⟨options, -, hparse⟩ := except_bind_eq_ok hparse
  by_cases hoptions : options.truthy = true
  · rw [if_pos hoptions] at hparse
    obtain ⟨mountOptions, -, hparse⟩ := except_bind_eq_ok hparse
    obtain ⟨withSudo, -, hparse⟩ := except_bind_eq_ok hparse
    cases hparse
    exact ⟨rfl, rfl⟩
  · rw [if_neg hoptions] at hparse
    obtain ⟨mountOptions, -, hparse⟩ := except_bind_eq_ok hparse
    obtain ⟨withSudo, -, hparse⟩ := except_bind_eq_ok hparse
    cases hparse
    exact ⟨rfl, rfl⟩

/-- **The directories `restore` deletes spare the snapshot exactly if the scratch
directory is not the snapshot or inside it, and the snapshot is not the scratch
directory's `merged`, `upper` or `work` or inside one of them.** -/
theorem snapshotSpared_iff (host : PathHost) {overlay lowerdir scratch name : Json}
    {cfg : OverlayConfig} (hparse : parseOverlayConfig host.env overlay = .ok (some cfg))
    (hlowerdir : overlay.get "lowerdir" = .ok lowerdir)
    (hscratch : overlay.get "scratch_dir" = .ok scratch)
    (hname : overlay.get "name" = .ok name) :
    SnapshotSpared cfg ↔
      ScratchClear (host.place lowerdir) (host.scratchPlace lowerdir scratch name) := by
  obtain ⟨hlower, hdir⟩ := dirs_of_parseOverlayConfig hparse hlowerdir hscratch hname
  have hplace : location cfg.lowerdir = host.place lowerdir := by
    rw [hlower]
    rfl
  have hbeside : location (dirname (host.env.resolve (host.env.str lowerdir))) =
      (host.place lowerdir).dropLast := location_dirname_abspath host.cwd_rooted _
  have hscratchPlace : location cfg.scratchDir = host.scratchPlace lowerdir scratch name := by
    rw [hdir, PathHost.scratchPlace]
    by_cases hgiven : scratch.truthy = true
    · rw [if_pos hgiven, if_pos hgiven]
      rfl
    · rw [if_neg hgiven, if_neg hgiven, location_joinPath _ (not_rooted_overlayName _), hbeside]
      rfl
  rw [snapshotSpared_iff_scratchClear, hplace, hscratchPlace]

/-- Beside the snapshot, under a name without a slash, the scratch directory is
clear of it unless the snapshot is the root or bears the scratch directory's name. -/
theorem scratchClear_beside_iff (snapshot : Place) {name : List Char} (h : '/' ∉ name) :
    ScratchClear snapshot (follow snapshot.dropLast (".overlay-".toList ++ name)) ↔
      snapshot ≠ [] ∧ snapshot.getLast? ≠ some (".overlay-".toList ++ name) := by
  have hentry : IsEntry (".overlay-".toList ++ name) := by
    refine ⟨?_, nofun, nofun, nofun⟩
    rw [List.mem_append, not_or]
    exact ⟨by decide, h⟩
  rw [follow_of_noSlash hentry.noSlash, enter_of_isEntry hentry]
  rcases List.eq_nil_or_concat snapshot with rfl | ⟨dir, base, rfl⟩
  · apply iff_of_false
    · exact fun hclear => hclear.outside (List.nil_prefix)
    · exact fun hne => hne.1 rfl
  · rw [List.concat_eq_append, List.dropLast_concat, List.getLast?_concat]
    apply Iff.intro
    · intro hclear
      refine ⟨by simp, fun heq => hclear.outside ?_⟩
      rw [Option.some.inj heq]
    · rintro ⟨-, hne⟩
      refine ⟨fun hprefix => hne ?_, fun d hprefix => ?_⟩
      · have heq := List.prefix_append_right_inj dir |>.mp hprefix
        simpa using heq
      · have hlength := hprefix.length_le
        simp at hlength

/-- A host without home directories. -/
def plainHost : PathHost where
  str v := match v with | .str s => s | _ => ""
  expanduser p := p
  cwd := "/srv/bench"
  cwd_rooted := by decide

/-- A section for the snapshot at `lowerdir`, and its scratch directory. -/
def snapshotSection (lowerdir scratch : String) : Json :=
  .obj [("enabled", .bool true), ("lowerdir", .str lowerdir), ("scratch_dir", .str scratch),
    ("db_path_env", .str "NETHERMIND_DATA_DIR")]

/-- A snapshot that is the child `merged` of the scratch directory is deleted. -/
theorem mergedSnapshot_not_spared :
    ∃ cfg, parseOverlayConfig plainHost.env (snapshotSection "/mnt/data/merged" "/mnt/data/") =
        .ok (some cfg) ∧ ¬ SnapshotSpared cfg := by
  refine ⟨_, rfl, fun h => (h .merged).1 ?_⟩
  decide

/-- A scratch directory in the working directory does not meet the snapshot. -/
theorem workingScratch_spared :
    ∃ cfg, parseOverlayConfig plainHost.env (snapshotSection "/mnt/data/snapshot" "scratch") =
        .ok (some cfg) ∧ SnapshotSpared cfg := by
  obtain ⟨cfg, hparse⟩ : ∃ cfg, parseOverlayConfig plainHost.env
      (snapshotSection "/mnt/data/snapshot" "scratch") = .ok (some cfg) := ⟨_, rfl⟩
  have hclear : ScratchClear (plainHost.place (.str "/mnt/data/snapshot"))
      (plainHost.scratchPlace (.str "/mnt/data/snapshot") (.str "scratch") .null) := by
    refine ⟨by decide, fun d => ?_⟩
    cases d <;> decide
  exact ⟨cfg, hparse, (snapshotSpared_iff plainHost hparse rfl rfl rfl).mpr hclear⟩

end StateBenchmarks.Orchestrator
