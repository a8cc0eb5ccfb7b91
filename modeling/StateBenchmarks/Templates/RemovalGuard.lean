/-
# What the removal before a download is kept from

`run_one_snapshot` removes the directory the configuration points into before it
downloads another snapshot.  The guard compares texts: what is removed starts with
`$SNAP_BASE/` and is neither `$SNAP_BASE` nor the target as they are written.

A text that passes may lead anywhere.  `$SNAP_BASE/` with nothing behind it is the
whole directory of the snapshots, and `$SNAP_BASE/../x` is not inside it.
-/

import StateBenchmarks.Python.Routes
import StateBenchmarks.Templates.KeptSnapshots

namespace StateBenchmarks.Templates

open Python

/-- `SNAP_BASE`, from what the environment gives. -/
def snapBaseOf (given : String) : String := if given = "" then "/mnt/bigdata" else given

/-- `prev_root`: the configured `lowerdir` without the DB directory. -/
def prevRootOf (dbSubdir lowerdir : String) : String :=
  let suffix := '/' :: dbSubdir.toList
  if dbSubdir ≠ "" ∧ suffix <:+ lowerdir.toList then
    String.ofList (lowerdir.toList.take (lowerdir.toList.length - suffix.length))
  else lowerdir

/-- What is passed to `rm -rf` before a download, if anything. -/
def removedPrevious (base dbSubdir target lowerdir : String) : Option String :=
  let prev := prevRootOf dbSubdir lowerdir
  if prev ≠ "" ∧ (base ++ "/").toList <+: prev.toList ∧ prev ≠ base ∧ prev ≠ target then
    some prev
  else none

/-- Acquiring a snapshot removes what the guard lets through. -/
theorem removedPrevious_of_mem_acquire {k : Knobs} {lowerdir : Option String} {e : Entry}
    {o : Outcome} {path : String} (h : Event.removePrevious path ∈ k.acquire lowerdir e o) :
    removedPrevious k.snapBase k.dbSubdir (k.target e) (lowerdir.getD "") = some path := by
  rw [Knobs.acquire, Knobs.removePrevious] at h
  split_ifs at h with hreuses hguard
  · simp at h
  · have hpath : path = k.prevRoot (lowerdir.getD "") := by simpa using h
    rw [hpath]
    exact if_pos hguard
  · simp at h

/-- Serving an entry removes nothing else before its download. -/
theorem removedPrevious_of_mem_events {k : Knobs} {lowerdir : Option String} {e : Entry}
    {o : Outcome} {path : String}
    (h : Event.removePrevious path ∈ (k.runOneSnapshot lowerdir e o).events) :
    removedPrevious k.snapBase k.dbSubdir (k.target e) (lowerdir.getD "") = some path := by
  cases hblock : isNumeric (Knobs.block e) with
  | false =>
      rw [Knobs.runOneSnapshot, if_pos hblock] at h
      cases h
  | true =>
      obtain ⟨rest, hevents, hafter⟩ := k.runOneSnapshot_events o lowerdir hblock
      rw [hevents, List.mem_cons, List.mem_append] at h
      rcases h with h | h | h
      · cases h
      · exact removedPrevious_of_mem_acquire h
      · rcases hafter _ h with ⟨dur, run, hrun⟩ | hfinish
        · rw [Knobs.runEvents] at hrun
          split_ifs at hrun <;> simp at hrun
        · rw [Knobs.finish] at hfinish
          split_ifs at hfinish <;> simp at hfinish

/-- The path leads strictly below `base`, and neither to the target nor to a directory
above it.  Relative paths are followed from `cwd`. -/
structure StaysInside (cwd base target path : String) : Prop where
  below : placeFrom cwd base <+: placeFrom cwd path
  notBase : placeFrom cwd path ≠ placeFrom cwd base
  sparesTarget : ¬ placeFrom cwd path <+: placeFrom cwd target

/-- What a relative path has to spell to lead below `base` and not towards the target:
the names that stand in it begin with the directories of `base` it climbs out of, and then
there are more, which are not on the way from `base` to the target. -/
def NamesBelow (base target : Place) (comps : List (List Char)) : Prop :=
  ∃ more, more ≠ [] ∧
    standing comps = base.drop (base.length - climbs comps) ++ more ∧
    ¬ base ++ more <+: target

/-- Where no front part has more ways up than names, there have to be more names in all. -/
theorem namesBelow_iff_of_level {base target : Place} {comps : List (List Char)}
    (h : ∀ front ∈ comps.inits, 0 ≤ descent front) :
    NamesBelow base target comps ↔
      0 < descent comps ∧ ¬ base ++ standing comps <+: target := by
  have hlevel : climbs comps = 0 := by
    rw [← Nat.le_zero, climbs_le_iff]
    simpa using h
  have hlength := length_standing comps
  rw [NamesBelow, hlevel, Nat.sub_zero, List.drop_length]
  simp only [List.nil_append]
  apply Iff.intro
  · rintro ⟨more, hmore, hnames, htarget⟩
    have hpos := List.length_pos_of_ne_nil hmore
    rw [hnames] at hlength ⊢
    exact ⟨by omega, htarget⟩
  · rintro ⟨hpos, htarget⟩
    have hmore : standing comps ≠ [] := by
      apply List.ne_nil_of_length_pos
      omega
    exact ⟨_, hmore, rfl, htarget⟩

/-- Behind the base the configured `lowerdir` spells `rest`, apart from the DB directory
at its end. -/
def SpellsBehind (base dbSubdir lowerdir rest : String) : Prop :=
  (dbSubdir ≠ "" ∧ lowerdir = base ++ "/" ++ rest ++ "/" ++ dbSubdir) ∨
    (lowerdir = base ++ "/" ++ rest ∧
      ∀ front, dbSubdir ≠ "" → lowerdir ≠ front ++ "/" ++ dbSubdir)

theorem snapBaseOf_ne_empty (given : String) : snapBaseOf given ≠ "" := by
  rw [snapBaseOf]
  split_ifs with hgiven
  · decide
  · exact hgiven

/-- What is behind the base is followed from there. -/
theorem placeFrom_behind (cwd : String) {base : String} (h : base ≠ "") (rest : String) :
    placeFrom cwd (base ++ "/" ++ rest) = follow (placeFrom cwd base) rest.toList := by
  have hchars : (base ++ "/" ++ rest).toList = base.toList ++ '/' :: rest.toList := by
    simp [String.toList_append]
  have hnil : base.toList ≠ [] := fun hnil => h (String.toList_eq_nil_iff.mp hnil)
  have hrooted : Rooted (base ++ "/" ++ rest) ↔ Rooted base := by
    rw [Rooted, Rooted, hchars, List.head?_append_of_ne_nil _ hnil]
  by_cases habs : Rooted base
  · rw [placeFrom_of_rooted (hrooted.mpr habs), placeFrom_of_rooted habs, location, hchars,
      follow_slash]
    rfl
  · rw [placeFrom, placeFrom, location_joinPath _ (hrooted.not.mpr habs),
      location_joinPath _ habs, hchars, follow_slash]

theorem staysInside_behind_iff (cwd : String) {base : String} (h : base ≠ "")
    (target rest : String) :
    StaysInside cwd base target (base ++ "/" ++ rest) ↔
      NamesBelow (placeFrom cwd base) (placeFrom cwd target) (rest.toList.splitOn '/') := by
  have hplace : placeFrom cwd (base ++ "/" ++ rest) =
      (route rest.toList).leadsTo (placeFrom cwd base) := by
    rw [placeFrom_behind cwd h, follow_eq_leadsTo]
  have hbelow : ∀ more, (route rest.toList).leadsTo (placeFrom cwd base) =
        placeFrom cwd base ++ more ↔
      standing (rest.toList.splitOn '/') = (placeFrom cwd base).drop
        ((placeFrom cwd base).length - climbs (rest.toList.splitOn '/')) ++ more := by
    intro more
    rw [Route.leadsTo_eq_append_iff, route_eq]
  apply Iff.intro
  · rintro ⟨⟨more, hmore⟩, hnotBase, htarget⟩
    refine ⟨more, fun hnil => ?_, ?_, ?_⟩
    · rw [hnil, List.append_nil] at hmore
      exact hnotBase hmore.symm
    · rw [← hbelow, ← hplace, hmore]
    · rwa [hmore]
  · rintro ⟨more, hmore, hnames, htarget⟩
    rw [← hbelow, ← hplace] at hnames
    refine ⟨⟨more, hnames.symm⟩, fun hbase => ?_, ?_⟩
    · rw [hnames] at hbase
      exact hmore (List.append_right_eq_self.mp hbase)
    · rwa [hnames]

/-- The directory the configuration points into is `lowerdir`, or what it has in front
of the DB directory. -/
theorem prevRootOf_eq_iff {dbSubdir lowerdir prev : String} :
    prevRootOf dbSubdir lowerdir = prev ↔
      (dbSubdir ≠ "" ∧ lowerdir = prev ++ "/" ++ dbSubdir) ∨
        (lowerdir = prev ∧ ∀ front, dbSubdir ≠ "" → lowerdir ≠ front ++ "/" ++ dbSubdir) := by
  have hsuffix : ∀ front : String,
      lowerdir = front ++ "/" ++ dbSubdir ↔
        lowerdir.toList = front.toList ++ '/' :: dbSubdir.toList := by
    intro front
    rw [← String.toList_inj]
    simp [String.toList_append]
  rw [prevRootOf]
  split_ifs with hends
  · obtain ⟨hsub, front, hfront⟩ := hends
    have htaken : lowerdir.toList.take
        (lowerdir.toList.length - ('/' :: dbSubdir.toList).length) = front := by
      rw [← hfront, List.length_append, Nat.add_sub_cancel, List.take_left]
    rw [htaken]
    have hspelled : lowerdir = String.ofList front ++ "/" ++ dbSubdir := by
      rw [hsuffix, String.toList_ofList, hfront]
    apply Iff.intro
    · rintro rfl
      exact Or.inl ⟨hsub, hspelled⟩
    · rintro (⟨-, hprev⟩ | ⟨-, hother⟩)
      · rw [hsuffix, ← hfront] at hprev
        rw [List.append_cancel_right hprev, String.ofList_toList]
      · exact absurd hspelled (hother _ hsub)
  · apply Iff.intro
    · rintro rfl
      refine Or.inr ⟨rfl, fun front hsub hspelled => hends ⟨hsub, front.toList, ?_⟩⟩
      rw [← (hsuffix front).mp hspelled]
    · rintro (⟨hsub, hprev⟩ | ⟨hprev, -⟩)
      · exact absurd ⟨hsub, prev.toList, ((hsuffix prev).mp hprev).symm⟩ hends
      · exact hprev

/-- The guard lets through what is behind the base and is not spelled like the target: a
text with something in front of it is neither empty nor the base. -/
theorem removedPrevious_eq_some_iff {base dbSubdir target lowerdir path : String} :
    removedPrevious base dbSubdir target lowerdir = some path ↔
      ∃ rest, path = base ++ "/" ++ rest ∧ SpellsBehind base dbSubdir lowerdir rest ∧
        base ++ "/" ++ rest ≠ target := by
  rw [removedPrevious]
  apply Iff.intro
  · intro h
    split_ifs at h with hguard
    obtain ⟨-, ⟨rest, hrest⟩, -, htarget⟩ := hguard
    have hprev : prevRootOf dbSubdir lowerdir = base ++ "/" ++ String.ofList rest := by
      rw [← String.toList_inj, ← hrest]
      simp [String.toList_append]
    have hpath := Option.some.inj h
    refine ⟨String.ofList rest, ?_, prevRootOf_eq_iff.mp hprev, ?_⟩
    · rw [← hpath, hprev]
    · rwa [← hprev]
  · rintro ⟨rest, rfl, hspells, htarget⟩
    have hlength : (base ++ "/" ++ rest).toList.length =
        base.toList.length + (rest.toList.length + 1) := by
      simp [String.toList_append]
    rw [prevRootOf_eq_iff.mpr hspells]
    apply if_pos
    refine ⟨fun hnil => ?_, ⟨rest.toList, ?_⟩, fun hbase => ?_, htarget⟩
    · rw [hnil, String.toList_empty, List.length_nil] at hlength
      omega
    · simp [String.toList_append]
    · rw [hbase] at hlength
      omega

/-- **The removal before a download stays inside `SNAP_BASE` and off the target exactly if
what the configured `lowerdir` spells behind `$SNAP_BASE/`, without the DB directory at its
end, is the target's text or names a directory below, which is not on the way to the
target.** -/
theorem removedPrevious_staysInside_iff (cwd given dbSubdir target lowerdir : String) :
    (∀ path, removedPrevious (snapBaseOf given) dbSubdir target lowerdir = some path →
        StaysInside cwd (snapBaseOf given) target path) ↔
      ∀ rest : String, SpellsBehind (snapBaseOf given) dbSubdir lowerdir rest →
        snapBaseOf given ++ "/" ++ rest ≠ target →
        NamesBelow (placeFrom cwd (snapBaseOf given)) (placeFrom cwd target)
          (rest.toList.splitOn '/') := by
  have hbase := snapBaseOf_ne_empty given
  apply Iff.intro
  · intro h rest hspells htarget
    apply (staysInside_behind_iff cwd hbase target rest).mp
    exact h _ (removedPrevious_eq_some_iff.mpr ⟨rest, rfl, hspells, htarget⟩)
  · intro h path hremoved
    obtain ⟨rest, rfl, hspells, htarget⟩ := removedPrevious_eq_some_iff.mp hremoved
    exact (staysInside_behind_iff cwd hbase target rest).mpr (h rest hspells htarget)

/-- A slash behind the directory of the snapshots, and all of it is removed. -/
theorem trailingSlash_removes_base :
    (removedPrevious (snapBaseOf "") "mainnet" "/mnt/bigdata/neth-x35-24600000-benchmark"
        "/mnt/bigdata/" = some "/mnt/bigdata/" ∧
      placeFrom "/" "/mnt/bigdata/" = placeFrom "/" (snapBaseOf "")) ∧
      ¬ ∀ cwd given dbSubdir target lowerdir path : String,
        removedPrevious (snapBaseOf given) dbSubdir target lowerdir = some path →
          StaysInside cwd (snapBaseOf given) target path := by
  have hremoved : removedPrevious (snapBaseOf "") "mainnet"
      "/mnt/bigdata/neth-x35-24600000-benchmark" "/mnt/bigdata/" = some "/mnt/bigdata/" := by
    decide
  have hplace : placeFrom "/" "/mnt/bigdata/" = placeFrom "/" (snapBaseOf "") := by decide
  exact ⟨⟨hremoved, hplace⟩, fun hall => (hall _ _ _ _ _ _ hremoved).notBase hplace⟩

end StateBenchmarks.Templates
