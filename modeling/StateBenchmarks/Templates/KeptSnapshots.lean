/-
# What a sweep keeps

With `KEEP_SNAPSHOTS=1` no extract is removed once its benchmarks are done.  But an
entry that has to be downloaded first removes the directory the configuration
points into, and that is the extract of the last entry that was served.  So a sweep
keeps its extracts exactly if no download follows an entry with another one.
-/

import Mathlib.Data.List.Induction
import StateBenchmarks.Control.Trace
import StateBenchmarks.Templates.SnapshotMatrix

namespace StateBenchmarks.Templates

open Python Control

/-- A download that succeeded. -/
def Event.Extracts : Event → Prop
  | .fetch _ _ ended => ended = .exited "0"
  | _ => False

/-- The directory whose content is removed. -/
def Event.wiped : Event → Option String
  | .removePrevious path => some path
  | .removeTarget path => some path
  | .fetch _ dir _ => some dir
  | _ => none

/-- The wipe is a step of a fetch. -/
def Event.ofFetch : Event → Bool
  | .removePrevious _ => true
  | .fetch _ _ _ => true
  | _ => false

/-- Wiping one of the directories removes from the other. -/
def Meets (path dir : String) : Prop :=
  location path <+: location dir ∨ location dir <+: location path

/-- What is wiped was not extracted before, unless it is for the same target to be
fetched again. -/
def KeepsEarlier (past : List Moment) (m : Moment) : Prop :=
  ∀ path, m.event.wiped = some path → ∀ earlier ∈ past, earlier.event.Extracts →
    Meets path earlier.target → m.event.ofFetch = true ∧ m.target = earlier.target

/-- A sweep in which no extract is removed but to be fetched again. -/
def KeepsExtracts (w : Sweep) : Prop := Justified KeepsEarlier w.trace

namespace Knobs

variable (k : Knobs)

/-- The entry is named after a block, and has to be downloaded. -/
def Downloads (step : Entry × Outcome) : Prop :=
  isNumeric (block step.1) = true ∧ k.reuses step.2 = false

/-- The last entry served. -/
def lastServed (steps : List (Entry × Outcome)) : Option (Entry × Outcome) :=
  (steps.filter k.serves).getLast?

/-- A target some entry was downloaded to. -/
def Extracted (steps : List (Entry × Outcome)) (target : String) : Prop :=
  ∃ step ∈ steps, k.Downloads step ∧ step.2.fetch = .exited "0" ∧ k.target step.1 = target

/-- Where the entry has to be downloaded, the last one served before it was not
downloaded to another target, or its directory is out of the guard's reach. -/
def SparesLast (past : List (Entry × Outcome)) (step : Entry × Outcome) : Prop :=
  k.Downloads step → ∀ last, k.lastServed past = some last →
    k.Removable step.1 (k.prevRoot (k.dbDir last.1 last.2)) →
      k.Extracted past (k.target last.1) → k.target last.1 = k.target step.1

variable {k} {e : Entry} {o : Outcome}

/-- A snapshot's directory has a name of its own. -/
theorem isEntry_dirName (h : isNumeric (block e) = true) : IsEntry (k.dirName e).toList := by
  have hblock : '/' ∉ (block e).toList := by
    intro hmem
    rw [isNumeric, Bool.and_eq_true, List.all_eq_true] at h
    exact absurd (h.2 '/' hmem) (by decide)
  have hname : (k.dirName e).toList = k.snapAlias.toList ++ '-' :: (k.snapLabel.toList ++
      '-' :: ((block e).toList ++ k.snapSuffix.toList)) := by
    simp [dirName, label, String.toList_append]
  have hdash : '-' ∈ (k.dirName e).toList := by simp [hname]
  refine ⟨?_, ?_, ?_, ?_⟩
  · rw [hname]
    simp [k.alias_noSlash, k.label_noSlash, k.suffix_noSlash, hblock]
  · exact List.ne_nil_of_mem hdash
  · intro heq
    rw [heq] at hdash
    exact absurd hdash (by decide)
  · intro heq
    rw [heq] at hdash
    exact absurd hdash (by decide)

theorem location_target (h : isNumeric (block e) = true) :
    location (k.target e) = location k.snapBase ++ [(k.dirName e).toList] := by
  have hentry := isEntry_dirName (k := k) h
  have hslash : "/".toList = ['/'] := rfl
  rw [target, location, String.toList_append, String.toList_append, hslash, List.append_assoc,
    List.singleton_append, follow_slash, follow_of_noSlash hentry.noSlash, enter_of_isEntry hentry]
  rfl

/-- Where a text without slashes stands behind the last slash, the split is unique. -/
theorem eq_of_append_slash {front front' back back' : List Char} (hfront : '/' ∉ front')
    (hback : '/' ∉ back') (h : front ++ '/' :: back = front' ++ '/' :: back') :
    front = front' := by
  rcases List.append_eq_append_iff.mp h with ⟨more, hmore, hrest⟩ | ⟨more, hmore, hrest⟩
  · cases more with
    | nil => rw [hmore, List.append_nil]
    | cons c more =>
        obtain ⟨rfl, -⟩ := List.cons.inj hrest
        exact absurd (hmore ▸ List.mem_append_right _ (List.mem_cons_self ..)) hfront
  · cases more with
    | nil => rw [hmore, List.append_nil]
    | cons c more =>
        obtain ⟨rfl, htail⟩ := List.cons.inj hrest
        exact absurd (htail ▸ List.mem_append_right _ (List.mem_cons_self ..)) hback

/-- What the next download removes, if the guard lets it: the extract, or the
`mainnet` inside it. -/
theorem prevRoot_dbDir {next : Entry} (h : isNumeric (block e) = true)
    (hguard : k.Removable next (k.prevRoot (k.dbDir e o))) :
    k.prevRoot (k.dbDir e o) = k.target e ∨
      k.prevRoot (k.dbDir e o) = k.target e ++ "/mainnet" := by
  have hname := (isEntry_dirName (k := k) h).noSlash
  have htarget : (k.target e).toList = k.snapBase.toList ++ '/' :: (k.dirName e).toList := by
    simp [target, String.toList_append]
  rw [prevRoot] at hguard ⊢
  split_ifs at hguard ⊢ with hstrip
  · obtain ⟨-, front, hfront⟩ := hstrip
    have htake : (k.dbDir e o).toList.take
        ((k.dbDir e o).toList.length - ('/' :: k.dbSubdir.toList).length) = front := by
      rw [← hfront, List.length_append, Nat.add_sub_cancel, List.take_left]
    rw [htake] at hguard ⊢
    obtain ⟨-, ⟨y, hy⟩, -⟩ := hguard
    have hbelow : front = k.snapBase.toList ++ '/' :: y := by
      rw [String.toList_ofList] at hy
      rw [← hy]
      simp [String.toList_append]
    have hextract : front = (k.target e).toList := by
      rw [dbDir] at hfront
      split_ifs at hfront
      · simp only [String.toList_append] at hfront
        rw [List.append_assoc] at hfront
        exact List.append_cancel_right hfront
      · have hsplit : y ++ '/' :: k.dbSubdir.toList =
            (k.dirName e).toList ++ '/' :: "mainnet".toList := by
          rw [String.toList_append, htarget, hbelow] at hfront
          simpa using hfront
        rw [hbelow, htarget, eq_of_append_slash hname (by decide) hsplit]
      · have hsplit : y ++ '/' :: k.dbSubdir.toList = (k.dirName e).toList := by
          rw [htarget, hbelow] at hfront
          simpa using hfront
        exact absurd (hsplit ▸ List.mem_append_right _ (List.mem_cons_self ..)) hname
    rw [hextract, String.ofList_toList]
    exact Or.inl rfl
  · rw [dbDir] at hstrip ⊢
    split_ifs at hstrip ⊢ with hsubdir hmainnet
    · refine absurd ⟨hsubdir.1, (k.target e).toList, ?_⟩ hstrip
      simp [String.toList_append]
    · exact Or.inr rfl
    · exact Or.inl rfl

theorem target_eq_iff {e' : Entry} :
    k.target e = k.target e' ↔ (k.dirName e).toList = (k.dirName e').toList := by
  rw [← String.toList_inj]
  simp only [target, String.toList_append]
  exact List.append_right_inj _

theorem location_mainnet (h : isNumeric (block e) = true) :
    location (k.target e ++ "/mainnet") =
      location k.snapBase ++ [(k.dirName e).toList, "mainnet".toList] := by
  have hslash : "/mainnet".toList = '/' :: "mainnet".toList := rfl
  have hentry : IsEntry "mainnet".toList := ⟨by decide, by decide, by decide, by decide⟩
  rw [location, String.toList_append, hslash, follow_slash, follow_of_noSlash hentry.noSlash,
    enter_of_isEntry hentry]
  show location (k.target e) ++ _ = _
  rw [location_target h, List.append_assoc]
  rfl

/-- What is removed meets no snapshot but the one it is from. -/
theorem meets_prevRoot_iff {next e' : Entry} (h : isNumeric (block e) = true)
    (h' : isNumeric (block e') = true)
    (hguard : k.Removable next (k.prevRoot (k.dbDir e o))) :
    Meets (k.prevRoot (k.dbDir e o)) (k.target e') ↔ k.target e = k.target e' := by
  rw [Meets, target_eq_iff, location_target h']
  rcases prevRoot_dbDir h hguard with hroot | hroot
  · rw [hroot, location_target h]
    simp [List.prefix_append_right_inj, eq_comm]
  · rw [hroot, location_mainnet h]
    simp [List.prefix_append_right_inj, eq_comm]

/-- The wipe of a fetch meets no snapshot but the one it is for. -/
theorem meets_fetchTarget {e' : Entry} (h : isNumeric (block e) = true)
    (h' : isNumeric (block e') = true) (hmeets : Meets (k.fetchTarget e) (k.target e')) :
    k.target e = k.target e' := by
  have hslash : "/".toList = ['/'] := rfl
  have hinside : location (k.target e) <+: location (k.fetchTarget e) := by
    rw [fetchTarget]
    split_ifs with hsubdir
    · exact List.prefix_rfl
    · rw [location, location, String.toList_append, String.toList_append, hslash,
        List.append_assoc, List.singleton_append, follow_slash]
      exact prefix_follow k.fetchSubdir_inside _
  obtain ⟨more, hmore⟩ := hinside
  rw [location_target h] at hmore
  rw [Meets, ← hmore, location_target h', List.append_assoc, List.prefix_append_right_inj,
    List.prefix_append_right_inj, List.singleton_append] at hmeets
  rw [target_eq_iff]
  rcases hmeets with hmeets | hmeets
  · exact (List.cons_prefix_cons.mp hmeets).1
  · exact (List.cons_prefix_cons.mp hmeets).1.symm

/-! ## What an entry does -/

variable {lowerdir : Option String} {steps : List (Entry × Outcome)} {step : Entry × Outcome}

theorem wiped_runEvents (dur : String) (run : RunOutcome) :
    ∀ event ∈ k.runEvents e dur run, event.wiped = none := by
  rw [runEvents]
  split_ifs <;> simp [Event.wiped]

theorem wiped_finish (hkeep : k.keepSnapshots = "1") :
    ∀ event ∈ k.finish e, event.wiped = none := by
  have hkept : k.keepSnapshots ≠ "0" := by
    rw [hkeep]
    decide
  rw [finish, if_neg hkept]
  split_ifs <;> simp [Event.wiped]

/-- What the durations of an entry do. -/
theorem mem_runs {event : Event}
    (h : event ∈ (k.durations.mapIdx fun i dur => k.runEvents e dur (o.runs i)).flatten) :
    ∃ dur run, event ∈ k.runEvents e dur run := by
  obtain ⟨events, hevents, hevent⟩ := List.mem_flatten.mp h
  obtain ⟨i, hi, rfl⟩ := List.mem_mapIdx.mp hevents
  exact ⟨_, _, hevent⟩

variable (k lowerdir o) in
/-- Serving an entry stops the client and acquires the snapshot, then at most runs the
durations and finishes. -/
theorem runOneSnapshot_events (hblock : isNumeric (block e) = true) :
    ∃ rest : List Event,
      (k.runOneSnapshot lowerdir e o).events = .infraDown :: (k.acquire lowerdir e o ++ rest) ∧
        ∀ event ∈ rest, (∃ dur run, event ∈ k.runEvents e dur run) ∨ event ∈ k.finish e := by
  rw [runOneSnapshot, if_neg (by simp [hblock])]
  dsimp only
  split
  · exact ⟨[], by simp, List.forall_mem_nil _⟩
  · split
    · exact ⟨[], by simp, List.forall_mem_nil _⟩
    · refine ⟨(k.durations.mapIdx fun i dur => k.runEvents e dur (o.runs i)).flatten ++ k.finish e,
        by simp, fun event hevent => ?_⟩
      rcases List.mem_append.mp hevent with hevent | hevent
      · exact Or.inl (mem_runs hevent)
      · exact Or.inr hevent

/-- An entry that has to be downloaded removes the previous snapshot and fetches its
own; nothing else is wiped while snapshots are kept. -/
theorem runOneSnapshot_cases (hkeep : k.keepSnapshots = "1") (lowerdir : Option String)
    (step : Entry × Outcome) :
    (k.Downloads step ∧ ∃ rest : List Event,
      (k.runOneSnapshot lowerdir step.1 step.2).events =
          .infraDown :: k.removePrevious lowerdir step.1 ++
            .fetch step.1.url (k.fetchTarget step.1) step.2.fetch :: rest ∧
        ∀ event ∈ rest, event.wiped = none) ∨
    (¬ k.Downloads step ∧
      ∀ event ∈ (k.runOneSnapshot lowerdir step.1 step.2).events, event.wiped = none) := by
  obtain ⟨e, o⟩ := step
  cases hblock : isNumeric (block e) with
  | false =>
      right
      rw [runOneSnapshot, if_pos hblock]
      exact ⟨fun hdownloads => absurd hdownloads.1 (by simp [hblock]), nofun⟩
  | true =>
      obtain ⟨rest, hevents, hafter⟩ := k.runOneSnapshot_events o lowerdir hblock
      have hrest : ∀ event ∈ rest, event.wiped = none := by
        intro event hevent
        rcases hafter event hevent with ⟨dur, run, hrun⟩ | hfinish
        · exact wiped_runEvents dur run event hrun
        · exact wiped_finish hkeep event hfinish
      cases hreuses : k.reuses o with
      | false =>
          rw [acquire, hreuses] at hevents
          exact Or.inl ⟨⟨hblock, hreuses⟩, rest, by simpa using hevents, hrest⟩
      | true =>
          right
          rw [acquire, hreuses] at hevents
          refine ⟨fun hdownloads => absurd hdownloads.2 (by simp [hreuses]), ?_⟩
          rw [hevents]
          intro event hevent
          rcases List.mem_cons.mp hevent with rfl | hevent
          · rfl
          · exact hrest event hevent

/-- The configuration points into the snapshot of an entry that was served. -/
theorem runOneSnapshot_lowerdir :
    (k.runOneSnapshot lowerdir e o).lowerdir =
      if k.serves (e, o) then lowerdir.map fun _ => k.dbDir e o else lowerdir := by
  rw [runOneSnapshot, serves]
  cases hblock : isNumeric (block e) with
  | false => rfl
  | true =>
      cases hfailure : k.acquireFailure o with
      | some status => rfl
      | none =>
          cases payloadsFailure o <;> rfl

theorem not_extracts_of_wiped {event : Event} (h : event.wiped = none) : ¬ event.Extracts := by
  cases event with
  | fetch url dir ended => cases h
  | _ => exact nofun

theorem not_extracts_of_mem_removePrevious {event : Event}
    (h : event ∈ k.removePrevious lowerdir e) : ¬ event.Extracts := by
  rw [removePrevious] at h
  split_ifs at h
  · rw [List.mem_singleton.mp h]
    exact nofun
  · cases h

/-- An entry extracts its snapshot exactly if its download succeeds. -/
theorem extracts_runOneSnapshot_iff (hkeep : k.keepSnapshots = "1") :
    (∃ event ∈ (k.runOneSnapshot lowerdir step.1 step.2).events, event.Extracts) ↔
      k.Downloads step ∧ step.2.fetch = .exited "0" := by
  rcases runOneSnapshot_cases hkeep lowerdir step with ⟨hdownloads, rest, hevents, hrest⟩ |
    ⟨hnot, hwiped⟩
  · rw [hevents]
    apply Iff.intro
    · rintro ⟨event, hevent, hextracts⟩
      rcases List.mem_append.mp hevent with hevent | hevent
      · rcases List.mem_cons.mp hevent with rfl | hevent
        · cases hextracts
        · exact absurd hextracts (not_extracts_of_mem_removePrevious hevent)
      · rcases List.mem_cons.mp hevent with rfl | hevent
        · exact ⟨hdownloads, hextracts⟩
        · exact absurd hextracts (not_extracts_of_wiped (hrest event hevent))
    · intro h
      exact ⟨_, List.mem_append_right _ (List.mem_cons_self ..), h.2⟩
  · apply Iff.intro
    · rintro ⟨event, hevent, hextracts⟩
      exact absurd hextracts (not_extracts_of_wiped (hwiped event hevent))
    · intro h
      exact absurd h.1 hnot

/-- Every extract is an entry's. -/
def OfEntries (k : Knobs) (past : List Moment) : Prop :=
  ∀ m ∈ past, m.event.Extracts → ∃ e, isNumeric (block e) = true ∧ m.target = k.target e

theorem OfEntries.append {past : List Moment} {events : List Event} {target : String}
    (hpast : OfEntries k past) (h : ∀ event ∈ events, ¬ event.Extracts) :
    OfEntries k (past ++ events.map (Moment.mk target)) := by
  intro m hm hextracts
  rcases List.mem_append.mp hm with hm | hm
  · exact hpast m hm hextracts
  · obtain ⟨event, hevent, rfl⟩ := List.mem_map.mp hm
    exact absurd hextracts (h event hevent)

/-- The removal before a download spares the earlier extracts of other targets. -/
def RemovalSpares (k : Knobs) (w : Sweep) (step : Entry × Outcome) : Prop :=
  k.Downloads step → k.Removable step.1 (k.prevRoot (w.lowerdir.getD "")) →
    ∀ m ∈ w.trace, m.event.Extracts → Meets (k.prevRoot (w.lowerdir.getD "")) m.target →
      k.target step.1 = m.target

/-- What wipes nothing needs no justification. -/
theorem justified_append_inert_iff {trace : List Moment} {target : String} {events : List Event}
    (h : ∀ event ∈ events, event.wiped = none) :
    Justified KeepsEarlier (trace ++ events.map (Moment.mk target)) ↔
      Justified KeepsEarlier trace := by
  apply justified_append_free_iff
  intro m hm past path hwiped
  obtain ⟨event, hevent, rfl⟩ := List.mem_map.mp hm
  cases hwiped.symm.trans (h event hevent)

/-- The wipe of a fetch is for the extract of the same target. -/
theorem keepsEarlier_fetch {past : List Moment} (hpast : OfEntries k past)
    (h : isNumeric (block e) = true) (ended : FetchEnd) :
    KeepsEarlier past ⟨k.target e, .fetch e.url (k.fetchTarget e) ended⟩ := by
  intro path hwiped earlier hearlier hextracts hmeets
  obtain rfl : k.fetchTarget e = path := Option.some.inj hwiped
  obtain ⟨e', h', htarget⟩ := hpast earlier hearlier hextracts
  rw [htarget] at hmeets ⊢
  exact ⟨rfl, meets_fetchTarget h h' hmeets⟩

/-- A removal before a fetch keeps the earlier extracts if it spares those of other
targets. -/
theorem justified_removePrevious_iff {trace : List Moment} :
    Justified KeepsEarlier
        (trace ++ (k.removePrevious lowerdir e).map (Moment.mk (k.target e))) ↔
      Justified KeepsEarlier trace ∧
        (k.Removable e (k.prevRoot (lowerdir.getD "")) →
          ∀ m ∈ trace, m.event.Extracts → Meets (k.prevRoot (lowerdir.getD "")) m.target →
            k.target e = m.target) := by
  rw [removePrevious]
  split_ifs with hguard
  · rw [List.map_singleton, justified_snoc_iff]
    apply and_congr_right
    intro _
    apply Iff.intro
    · intro h _ m hm hextracts hmeets
      exact (h _ rfl m hm hextracts hmeets).2
    · intro h path hwiped m hm hextracts hmeets
      obtain rfl := Option.some.inj hwiped
      exact ⟨rfl, h hguard m hm hextracts hmeets⟩
  · simp [hguard]

/-- One more entry keeps the extracts exactly if its removal spares them. -/
theorem keepsExtracts_serve_iff (hkeep : k.keepSnapshots = "1") {w : Sweep}
    (hpast : OfEntries k w.trace) :
    KeepsExtracts (k.serve w step) ↔ KeepsExtracts w ∧ RemovalSpares k w step := by
  rw [KeepsExtracts, KeepsExtracts, serve]
  dsimp only
  rcases runOneSnapshot_cases hkeep w.lowerdir step with ⟨hdownloads, rest, hevents, hrest⟩ |
    ⟨hnot, hwiped⟩
  · have hdown : ∀ event ∈ [Event.infraDown], event.wiped = none := by simp [Event.wiped]
    have hinfra : OfEntries k (w.trace ++ [Event.infraDown].map (Moment.mk (k.target step.1))) :=
      hpast.append fun event hevent => not_extracts_of_wiped (hdown event hevent)
    have hbefore : OfEntries k (w.trace ++ [Event.infraDown].map (Moment.mk (k.target step.1)) ++
        (k.removePrevious w.lowerdir step.1).map (Moment.mk (k.target step.1))) :=
      hinfra.append fun event hevent => not_extracts_of_mem_removePrevious hevent
    have hsplit : w.trace ++ (k.runOneSnapshot w.lowerdir step.1 step.2).events.map
          (Moment.mk (k.target step.1)) =
        w.trace ++ [Event.infraDown].map (Moment.mk (k.target step.1)) ++
          (k.removePrevious w.lowerdir step.1).map (Moment.mk (k.target step.1)) ++
          [⟨k.target step.1, .fetch step.1.url (k.fetchTarget step.1) step.2.fetch⟩] ++
          rest.map (Moment.mk (k.target step.1)) := by
      simp [hevents]
    have hfetch := keepsEarlier_fetch hbefore hdownloads.1 step.2.fetch
    rw [hsplit, justified_append_inert_iff hrest, justified_snoc_iff, and_iff_left hfetch,
      justified_removePrevious_iff, justified_append_inert_iff hdown]
    apply and_congr_right
    intro _
    apply Iff.intro
    · intro h _ hguard m hm
      exact h hguard m (List.mem_append_left _ hm)
    · intro h hguard m hm hextracts
      rcases List.mem_append.mp hm with hm | hm
      · exact h hdownloads hguard m hm hextracts
      · rw [List.mem_singleton.mp hm] at hextracts
        cases hextracts
  · rw [justified_append_inert_iff hwiped]
    exact (and_iff_left fun hdownloads => absurd hdownloads hnot).symm

/-! ## The sweep -/

theorem lastServed_concat :
    k.lastServed (steps ++ [step]) = if k.serves step then some step else k.lastServed steps := by
  rw [lastServed, List.filter_append]
  split_ifs with h
  · simp [h]
  · simp [h, lastServed]

theorem extracted_concat_iff {target : String} :
    k.Extracted (steps ++ [step]) target ↔
      k.Extracted steps target ∨
        k.Downloads step ∧ step.2.fetch = .exited "0" ∧ k.target step.1 = target := by
  simp [Extracted, or_and_right, exists_or]

/-- Where something was extracted, something was served. -/
theorem exists_lastServed {target : String} (h : k.Extracted steps target) :
    ∃ last, k.lastServed steps = some last := by
  obtain ⟨step, hstep, ⟨hblock, hreuses⟩, hfetch, -⟩ := h
  have hserves : k.serves step = true := by
    simp [serves, acquireFailure, hblock, hreuses, hfetch]
  have hmem : step ∈ steps.filter k.serves := List.mem_filter.mpr ⟨hstep, hserves⟩
  rw [lastServed]
  exact ⟨_, List.getLast?_eq_getLast_of_ne_nil (List.ne_nil_of_mem hmem)⟩

theorem isNumeric_lastServed {last : Entry × Outcome} (h : k.lastServed steps = some last) :
    isNumeric (block last.1) = true := by
  have hserves := (List.mem_filter.mp (List.mem_of_getLast? h)).2
  rw [serves, Bool.and_eq_true] at hserves
  exact hserves.1

theorem prevRoot_empty : k.prevRoot "" = "" := by
  rw [prevRoot, if_neg]
  rintro ⟨-, hsuffix⟩
  exact List.cons_ne_nil _ _ (List.suffix_nil.mp hsuffix)

/-- Without a configured `lowerdir` nothing is removed before a download. -/
theorem removalSpares_none {w : Sweep} (h : w.lowerdir = none) : RemovalSpares k w step := by
  intro _ hguard
  rw [h, Option.getD_none] at hguard
  exact absurd prevRoot_empty hguard.1

/-- A sweep that has served some entries: the configuration points into the snapshot of the
last one served, the extracts are theirs, and none is lost unless one of them took it. -/
structure Tracks (k : Knobs) (given : Option String) (past : List (Entry × Outcome))
    (w : Sweep) : Prop where
  lowerdir : w.lowerdir = given.map fun dir =>
    match k.lastServed past with
    | none => dir
    | some last => k.dbDir last.1 last.2
  extracts : ∀ target,
    (∃ m ∈ w.trace, m.event.Extracts ∧ m.target = target) ↔ k.Extracted past target
  keeps : KeepsExtracts w ↔ given = none ∨ Justified k.SparesLast past

namespace Tracks

variable {given : Option String} {past : List (Entry × Outcome)} {w : Sweep}

theorem ofEntries (h : Tracks k given past w) : OfEntries k w.trace := by
  intro m hm hextracts
  obtain ⟨step, -, hdownloads, -, htarget⟩ := (h.extracts _).mp ⟨m, hm, hextracts, rfl⟩
  exact ⟨step.1, hdownloads.1, htarget.symm⟩

/-- What the next removal spares, by what the sweep has served. -/
theorem removalSpares_iff {dir : String} (h : Tracks k (some dir) past w) :
    RemovalSpares k w step ↔ k.SparesLast past step := by
  rw [RemovalSpares, SparesLast, h.lowerdir]
  apply imp_congr_right
  intro _
  cases hlast : k.lastServed past with
  | none =>
      apply iff_of_true
      · intro _ m hm hextracts
        obtain ⟨last, hserved⟩ := exists_lastServed ((h.extracts _).mp ⟨m, hm, hextracts, rfl⟩)
        cases hlast.symm.trans hserved
      · exact nofun
  | some last =>
      have hblock := isNumeric_lastServed hlast
      dsimp only [Option.map_some, Option.getD_some]
      apply Iff.intro
      · intro hspares last' hlast' hguard hextracted
        obtain rfl := Option.some.inj hlast'
        obtain ⟨m, hm, hextracts, htarget⟩ := (h.extracts _).mpr hextracted
        have hmeets := (meets_prevRoot_iff hblock hblock hguard).mpr rfl
        rw [← htarget] at hmeets ⊢
        exact (hspares hguard m hm hextracts hmeets).symm
      · intro hspares hguard m hm hextracts hmeets
        obtain ⟨e', h', htarget⟩ := h.ofEntries m hm hextracts
        rw [htarget] at hmeets
        have hsame := (meets_prevRoot_iff hblock h' hguard).mp hmeets
        have hextracted : k.Extracted past (k.target last.1) :=
          (h.extracts _).mp ⟨m, hm, hextracts, htarget.trans hsame.symm⟩
        rw [htarget, ← hsame]
        exact (hspares last rfl hguard hextracted).symm

/-- What has been extracted after one more entry. -/
theorem extracts_serve (hkeep : k.keepSnapshots = "1") (h : Tracks k given past w)
    (target : String) :
    (∃ m ∈ (k.serve w step).trace, m.event.Extracts ∧ m.target = target) ↔
      k.Extracted (past ++ [step]) target := by
  have hstep : (∃ event ∈ (k.runOneSnapshot w.lowerdir step.1 step.2).events, event.Extracts) ↔
      k.Downloads step ∧ step.2.fetch = .exited "0" := extracts_runOneSnapshot_iff hkeep
  rw [extracted_concat_iff, ← h.extracts, serve]
  dsimp only
  apply Iff.intro
  · rintro ⟨m, hm, hextracts, rfl⟩
    rcases List.mem_append.mp hm with hm | hm
    · exact Or.inl ⟨m, hm, hextracts, rfl⟩
    · obtain ⟨event, hevent, rfl⟩ := List.mem_map.mp hm
      obtain ⟨hdownloads, hfetch⟩ := hstep.mp ⟨event, hevent, hextracts⟩
      exact Or.inr ⟨hdownloads, hfetch, rfl⟩
  · rintro (⟨m, hm, hrest⟩ | ⟨hdownloads, hfetch, rfl⟩)
    · exact ⟨m, List.mem_append_left _ hm, hrest⟩
    · obtain ⟨event, hevent, hextracts⟩ := hstep.mpr ⟨hdownloads, hfetch⟩
      exact ⟨_, List.mem_append_right _ (List.mem_map_of_mem hevent), hextracts, rfl⟩

/-- One more entry. -/
theorem serve (hkeep : k.keepSnapshots = "1") (h : Tracks k given past w) :
    Tracks k given (past ++ [step]) (k.serve w step) where
  lowerdir := by
    rw [lastServed_concat, Knobs.serve]
    dsimp only
    rw [runOneSnapshot_lowerdir, h.lowerdir]
    split_ifs
    · rw [Option.map_map]
      rfl
    · rfl
  extracts := h.extracts_serve hkeep
  keeps := by
    rw [keepsExtracts_serve_iff hkeep h.ofEntries, h.keeps, justified_snoc_iff]
    cases given with
    | none =>
        have hnone : w.lowerdir = none := by
          rw [h.lowerdir, Option.map_none]
        simp [removalSpares_none hnone]
    | some dir => simp [h.removalSpares_iff]

/-- Neither the payloads nor the runs of the last entry matter. -/
theorem of_alike {o o' : Outcome}
    (halike : o' = { o with payloadsAtHead := o'.payloadsAtHead, runs := o'.runs })
    (h : Tracks k given (past ++ [(e, o')]) w) : Tracks k given (past ++ [(e, o)]) w where
  lowerdir := by
    have hserves : k.serves (e, o') = k.serves (e, o) := by
      rw [halike]
      rfl
    have hdir : k.dbDir e o' = k.dbDir e o := by
      rw [halike]
      rfl
    rw [h.lowerdir, lastServed_concat, lastServed_concat, hserves]
    split_ifs
    · simp only [hdir]
    · rfl
  extracts target := by
    have hdownloads : k.Downloads (e, o') ↔ k.Downloads (e, o) := by
      rw [halike]
      rfl
    have hfetch : o'.fetch = o.fetch := by rw [halike]
    rw [h.extracts, extracted_concat_iff, extracted_concat_iff, hdownloads, hfetch]
  keeps := by
    have hspares : k.SparesLast past (e, o') ↔ k.SparesLast past (e, o) := by
      rw [halike]
      rfl
    rw [h.keeps, justified_snoc_iff, justified_snoc_iff, hspares]

end Tracks

/-- The entries the main loop gets to: one whose block it cannot add one to is the last. -/
def reached (k : Knobs) : List Serving → List (Entry × Outcome)
  | [] => []
  | step :: rest => (step.entry, step.outcome) :: if k.stops step then [] else reached k rest

theorem foldl_serveNext_of_ended {prior : Benchmarks} {r : Report} {steps : List Serving}
    (h : r.ended = true) : steps.foldl (k.serveNext prior) r = r := by
  induction steps with
  | nil => rfl
  | cons step rest ih =>
      have hstay : k.serveNext prior r step = r := if_pos h
      rw [List.foldl_cons, hstay, ih]

/-- The main loop tracks the entries it gets to. -/
theorem tracks_foldl (hkeep : k.keepSnapshots = "1") (prior : Benchmarks)
    {given : Option String} {past : List (Entry × Outcome)} {r : Report} (steps : List Serving)
    (h : Tracks k given past r.sweep) (hgoes : r.ended = false) :
    Tracks k given (past ++ k.reached steps) (steps.foldl (k.serveNext prior) r).sweep := by
  induction steps generalizing past r with
  | nil =>
      rw [reached, List.append_nil]
      exact h
  | cons step rest ih =>
      rw [List.foldl_cons, reached]
      cases hstops : k.stops step with
      | true =>
          have hserve : Tracks k given
              (past ++ [(step.entry, { step.outcome with payloadsAtHead := false })])
              (k.serve r.sweep (step.entry, { step.outcome with payloadsAtHead := false })) :=
            h.serve hkeep
          have hlast := hserve.of_alike (o := step.outcome) rfl
          rw [if_pos rfl, serveNext, if_neg (ne_true_of_eq_false hgoes), if_pos hstops,
            foldl_serveNext_of_ended rfl]
          dsimp only
          generalize k.serve r.sweep (step.entry, { step.outcome with payloadsAtHead := false }) =
            served at hlast ⊢
          exact ⟨hlast.lowerdir, hlast.extracts, hlast.keeps⟩
      | false =>
          have hserve : Tracks k given
              (past ++ [(step.entry, k.outcomeAfter prior r.runs step)])
              (k.serve r.sweep (step.entry, k.outcomeAfter prior r.runs step)) := h.serve hkeep
          have hnext := hserve.of_alike (o := step.outcome) rfl
          rw [if_neg Bool.false_ne_true, List.append_cons, serveNext,
            if_neg (ne_true_of_eq_false hgoes), if_neg (ne_true_of_eq_false hstops)]
          exact ih (r := ⟨_, _, false⟩) hnext rfl

/-- A whole sweep tracks the entries it gets to. -/
theorem tracks_report (hkeep : k.keepSnapshots = "1") (prior : Benchmarks)
    (lowerdir : Option String) (steps : List Serving) :
    Tracks k lowerdir (k.reached steps) (k.report prior lowerdir steps).sweep := by
  have hstart : Tracks k lowerdir [] ⟨lowerdir, [], []⟩ :=
    ⟨by simp [lastServed], by simp [Extracted], by simp [KeepsExtracts, justified_nil]⟩
  exact tracks_foldl (r := ⟨_, [], false⟩) hkeep prior steps hstart rfl

/-- With `KEEP_SNAPSHOTS=1` a sweep keeps its extracts exactly if the configuration
quotes no `lowerdir`, or no entry that has to be downloaded follows one that was
downloaded to another target. -/
theorem sweep_keepsExtracts_iff (k : Knobs) (hkeep : k.keepSnapshots = "1")
    (prior : Benchmarks) (lowerdir : Option String) (steps : List Serving) :
    KeepsExtracts (k.report prior lowerdir steps).sweep ↔
      lowerdir = none ∨ Justified k.SparesLast (k.reached steps) :=
  (tracks_report hkeep prior lowerdir steps).keeps

end Knobs

/-- The defaults for Nethermind, with `KEEP_SNAPSHOTS=1`. -/
def keepingKnobs : Knobs where
  durations := ["5m", "60m"]
  snapBase := "/mnt/bigdata"
  snapLabel := "x35"
  snapAlias := "neth"
  snapSuffix := "-benchmark"
  dbSubdir := "mainnet"
  fetchSubdir := ""
  keepSnapshots := "1"
  skipFetch := "0"
  keepInfra := "1"
  label_noSlash := by decide
  alias_noSlash := by decide
  suffix_noSlash := by decide
  fetchSubdir_inside := by decide

/-- Everything succeeds. -/
def allWell : Outcome where
  targetFilled := false
  fetch := .exited "0"
  dbSubdirExists := true
  mainnetExists := true
  payloadsExist := true
  payloadsAtHead := true
  runs _ := ⟨true, .withPeak⟩

def block24358000 : Entry where
  url := "https://snapshots.ethpandaops.io/perf-devnet-3/nethermind/24358000/snapshot.tar.zst"

def block24600000 : Entry where
  url := "https://snapshots.ethpandaops.io/perf-devnet-3/nethermind/24600000/snapshot.tar.zst"

theorem block_block24358000 : Knobs.block block24358000 = "24358000" := by decide +kernel

theorem block_block24600000 : Knobs.block block24600000 = "24600000" := by decide +kernel

/-- Serving a snapshot of which everything succeeds. -/
def served (e : Entry) : Serving where
  entry := e
  outcome := allWell
  headKnown := true
  attempts _ := ⟨true, some .withPeak⟩

theorem stops_served (e : Entry) : keepingKnobs.stops (served e) = false := Bool.and_false _

theorem reached_served (first second : Entry) :
    keepingKnobs.reached [served first, served second] =
      [(first, allWell), (second, allWell)] := by
  rw [Knobs.reached, stops_served, if_neg Bool.false_ne_true, Knobs.reached, stops_served,
    if_neg Bool.false_ne_true]
  rfl

theorem lastServed_block24358000 :
    keepingKnobs.lastServed [(block24358000, allWell)] = some (block24358000, allWell) := by
  have hserves : keepingKnobs.serves (block24358000, allWell) = true := by
    rw [Knobs.serves, block_block24358000]
    decide
  rw [← List.nil_append [(block24358000, allWell)], Knobs.lastServed_concat, if_pos hserves]

/-- Listed twice, a snapshot is fetched again into its own directory. -/
theorem sameBlock_keepsExtracts :
    KeepsExtracts (keepingKnobs.report (fun _ => .missing)
      (some "/mnt/bigdata/neth-x35-24358000-benchmark/mainnet")
      [served block24358000, served block24358000]).sweep := by
  apply (Knobs.sweep_keepsExtracts_iff keepingKnobs rfl _ _ _).mpr
  right
  rw [reached_served]
  have hfirst : keepingKnobs.SparesLast [] (block24358000, allWell) := nofun
  have hsecond : keepingKnobs.SparesLast [(block24358000, allWell)] (block24358000, allWell) := by
    intro _ last hlast _ _
    obtain rfl := Option.some.inj (lastServed_block24358000.symm.trans hlast)
    rfl
  exact justified_snoc_iff.mpr ⟨justified_snoc_iff.mpr ⟨justified_nil, hfirst⟩, hsecond⟩

/-- The next snapshot's download removes the one before. -/
theorem nextBlock_not_keepsExtracts :
    keepingKnobs.keepSnapshots = "1" ∧
      ¬ KeepsExtracts (keepingKnobs.report (fun _ => .missing)
        (some "/mnt/bigdata/neth-x35-24358000-benchmark/mainnet")
        [served block24358000, served block24600000]).sweep := by
  refine ⟨rfl, fun h => ?_⟩
  have hspares : Justified keepingKnobs.SparesLast
      ([(block24358000, allWell)] ++ [(block24600000, allWell)]) := by
    have hjust := (Knobs.tracks_report rfl _ _ _).keeps.mp h
    rw [reached_served] at hjust
    exact hjust.resolve_left (by simp)
  have hdownloads : keepingKnobs.Downloads (block24600000, allWell) := by
    rw [Knobs.Downloads, block_block24600000]
    decide
  have hextracted : keepingKnobs.Extracted [(block24358000, allWell)]
      (keepingKnobs.target block24358000) := by
    refine ⟨_, List.mem_cons_self, ?_, rfl, rfl⟩
    rw [Knobs.Downloads, block_block24358000]
    decide
  have hguard : keepingKnobs.Removable block24600000
      (keepingKnobs.prevRoot (keepingKnobs.dbDir block24358000 allWell)) := by
    rw [Knobs.Removable, Knobs.dbDir, Knobs.target, Knobs.target, Knobs.dirName, Knobs.dirName,
      block_block24358000, block_block24600000]
    decide
  have hsame := (justified_snoc_iff.mp hspares).2 hdownloads (block24358000, allWell)
    lastServed_block24358000 hguard hextracted
  rw [Knobs.target, Knobs.target, Knobs.dirName, Knobs.dirName, block_block24358000,
    block_block24600000] at hsame
  exact absurd hsame (by decide)

end StateBenchmarks.Templates
