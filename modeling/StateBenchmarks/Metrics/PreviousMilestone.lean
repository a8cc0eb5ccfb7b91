/-
# Which run the aggregator compares with

`find_previous_milestone` reads the metrics files beside the current milestone
and takes the one with the greatest timestamp.  Where the aggregator wrote all
of them this is the run made last: timestamps are ordered as time is.

A file the aggregator did not write may hold anything.  Its timestamp is read
inside a `try`, one file at a time, and the candidates meet only in the sort
behind it.  A file without a timestamp takes part with the empty text, and a
timestamp that is no text has no order with one that is.
-/

import StateBenchmarks.Metrics.Baseline
import StateBenchmarks.Python.DateTime

namespace StateBenchmarks.Metrics

open Python Control

/-- The aggregator wrote the metrics file at a moment. -/
def WrittenAt (moment : UtcDateTime) (entry : TreeEntry) : Prop :=
  ∃ (run : LoadRun) (listing : Listing) (tree : Tree) (report : Report),
    mainLoad run listing tree = .ok report ∧ run.timestamp = moment.isoformat ∧
      entry.metrics = .holds (run.payload report)

/-- A directory with a run of the client, other than the current milestone's. -/
def IsOtherRun (milestone : String) (entry : TreeEntry) : Prop :=
  entry.name ≠ milestone ∧ entry.isDir = true ∧ entry.metrics ≠ .absent

/-- The benchmarks directory, and when each of its metrics files was written. -/
structure History where
  tree : Tree
  moment : String → UtcDateTime
  nodup : (tree.map (·.name)).Nodup
  written : ∀ entry ∈ tree, entry.metrics = .absent ∨ WrittenAt (moment entry.name) entry

namespace History

variable (history : History)

/-- When a run was made, its directory's name breaking ties. -/
def recency (entry : TreeEntry) : ℕ ×ₗ String :=
  toLex ((history.moment entry.name).instant, entry.name)

/-- A candidate that stands for a run. -/
def Represents (c : Candidate) (entry : TreeEntry) : Prop :=
  c.milestone = entry.name ∧ c.timestamp = .str (history.moment entry.name).isoformat ∧
    entry.metrics = .holds c.payload

/-- The run of another milestone that was made last. -/
def IsLatest (milestone : String) (latest : TreeEntry) : Prop :=
  latest ∈ history.tree ∧ IsOtherRun milestone latest ∧
    ∀ other ∈ history.tree, IsOtherRun milestone other →
      history.recency other ≤ history.recency latest

end History

theorem WrittenAt.written {moment : UtcDateTime} {entry : TreeEntry} (h : WrittenAt moment entry) :
    Written entry := by
  obtain ⟨run, listing, tree, report, hmain, -, hholds⟩ := h
  exact Or.inr ⟨run, listing, tree, report, hmain, hholds⟩

/-- A file written at a moment is a candidate with that moment's text. -/
theorem WrittenAt.candidate {moment : UtcDateTime} {entry : TreeEntry} {milestone : String}
    (h : WrittenAt moment entry) (hother : IsOtherRun milestone entry) :
    ∃ payload, entry.metrics = .holds payload ∧
      candidateOf milestone entry = some ⟨entry.name, .str moment.isoformat, payload⟩ := by
  obtain ⟨run, -, -, report, -, hmoment, hholds⟩ := h
  refine ⟨run.payload report, hholds, ?_⟩
  rw [candidateOf, if_neg hother.1, if_neg (by simp [hother.2.1]), hholds, ← hmoment]
  rfl

/-- Only another run is a candidate. -/
theorem isOtherRun_of_candidateOf {milestone : String} {entry : TreeEntry} {c : Candidate}
    (h : candidateOf milestone entry = some c) :
    IsOtherRun milestone entry ∧ c.milestone = entry.name := by
  rw [candidateOf] at h
  split_ifs at h with hname hdir
  cases hmetrics : entry.metrics with
  | absent => simp [hmetrics] at h
  | unreadable => simp [hmetrics] at h
  | holds payload =>
      refine ⟨⟨hname, by simpa using hdir, by simp [hmetrics]⟩, ?_⟩
      rw [hmetrics] at h
      dsimp only at h
      split at h
      · cases h
        rfl
      · cases h

namespace History

variable (history : History)

/-- Another run is a candidate with the text of its moment. -/
theorem exists_candidate {milestone : String} {entry : TreeEntry} (hentry : entry ∈ history.tree)
    (hother : IsOtherRun milestone entry) :
    ∃ c, candidateOf milestone entry = some c ∧ history.Represents c entry := by
  rcases history.written entry hentry with habsent | hwritten
  · exact absurd habsent hother.2.2
  · obtain ⟨payload, hholds, hcandidate⟩ := hwritten.candidate hother
    exact ⟨_, hcandidate, rfl, rfl, hholds⟩

variable {history} in
theorem Represents.unique {c d : Candidate} {entry : TreeEntry} (hc : history.Represents c entry)
    (hd : history.Represents d entry) : c = d := by
  have hpayload := JsonFile.holds.inj (hc.2.2.symm.trans hd.2.2)
  cases c
  cases d
  simp_all [Represents]

theorem texts (milestone : String) :
    ∀ c ∈ siblings milestone history.tree, ∃ s, c.timestamp = .str s :=
  texts_of_written fun entry hentry =>
    (history.written entry hentry).elim Or.inl WrittenAt.written

/-- The candidates are the other runs. -/
theorem siblings_eq_nil_iff (milestone : String) :
    siblings milestone history.tree = [] ↔
      ∀ entry ∈ history.tree, ¬ IsOtherRun milestone entry := by
  rw [siblings, List.filterMap_eq_nil_iff]
  apply forall₂_congr
  intro entry hentry
  apply Iff.intro
  · intro hnone hother
    obtain ⟨c, hc, -⟩ := history.exists_candidate hentry hother
    rw [hnone] at hc
    cases hc
  · intro hnot
    cases hc : candidateOf milestone entry with
    | none => rfl
    | some c => exact absurd (isOtherRun_of_candidateOf hc).1 hnot

variable {history} in
/-- Candidates are ordered by their texts as their runs are in time. -/
theorem Represents.recency_le_iff {a b : TreeEntry} {c d : Candidate}
    (hc : history.Represents c a) (hd : history.Represents d b) :
    Metrics.recency c ≤ Metrics.recency d ↔ history.recency a ≤ history.recency b := by
  rw [Metrics.recency, Metrics.recency, recency, recency, hc.2.1, hd.2.1, hc.1, hd.1,
    Prod.Lex.toLex_le_toLex, Prod.Lex.toLex_le_toLex]
  simp only [UtcDateTime.isoformat_lt_iff_instant_lt, UtcDateTime.isoformat_eq_iff_instant_eq]

variable {history} in
/-- At most one run is the latest: no two directories have one name. -/
theorem IsLatest.unique {milestone : String} {a b : TreeEntry}
    (ha : history.IsLatest milestone a) (hb : history.IsLatest milestone b) : a = b := by
  have heq := le_antisymm (hb.2.2 a ha.1 ha.2.1) (ha.2.2 b hb.1 hb.2.1)
  have hname : a.name = b.name := congrArg (fun key => (ofLex key).2) heq
  exact List.inj_on_of_nodup_map history.nodup ha.1 hb.1 hname

/-- Where there is another run, the latest one is selected. -/
theorem exists_latest {milestone : String} (hne : siblings milestone history.tree ≠ []) :
    ∃ latest c, history.IsLatest milestone latest ∧ history.Represents c latest ∧
      findPreviousMilestone milestone history.tree = .ok (some c) := by
  obtain ⟨c, hmem, hfound, hmax⟩ := findPreviousMilestone_of_compares
    (comparesBy_of_texts (history.texts milestone)) hne
  obtain ⟨latest, hlatest, hcandidate⟩ := List.mem_filterMap.mp hmem
  have hother := (isOtherRun_of_candidateOf hcandidate).1
  obtain ⟨c', hc', hrepresents⟩ := history.exists_candidate hlatest hother
  obtain rfl : c = c' := Option.some.inj (hcandidate.symm.trans hc')
  refine ⟨latest, c, ⟨hlatest, hother, ?_⟩, hrepresents, hfound⟩
  intro entry hentry hrun
  obtain ⟨d, hd, hentryRun⟩ := history.exists_candidate hentry hrun
  exact (hentryRun.recency_le_iff hrepresents).mp
    (hmax d (List.mem_filterMap.mpr ⟨entry, hentry, hd⟩))

/-- The selected candidate is that of the latest run. -/
theorem found_iff_latest (milestone : String) (c : Candidate) :
    findPreviousMilestone milestone history.tree = .ok (some c) ↔
      ∃ latest, history.IsLatest milestone latest ∧ history.Represents c latest := by
  apply Iff.intro
  · intro hfound
    have hne : siblings milestone history.tree ≠ [] := fun hnil => by
      rw [(findPreviousMilestone_eq_none_iff milestone history.tree).mpr hnil] at hfound
      cases hfound
    obtain ⟨latest, c', hlatest, hc', hfound'⟩ := history.exists_latest hne
    obtain rfl : c = c' := by simpa [hfound] using hfound'
    exact ⟨latest, hlatest, hc'⟩
  · rintro ⟨latest, hlatest, hc⟩
    have hne : siblings milestone history.tree ≠ [] := fun hnil =>
      (history.siblings_eq_nil_iff milestone).mp hnil latest hlatest.1 hlatest.2.1
    obtain ⟨latest', c', hlatest', hc', hfound⟩ := history.exists_latest hne
    obtain rfl := hlatest.unique hlatest'
    rw [hc.unique hc']
    exact hfound

theorem findPreviousMilestone_returns (milestone : String) :
    ∃ found, findPreviousMilestone milestone history.tree = .ok found := by
  by_cases hnil : siblings milestone history.tree = []
  · exact ⟨none, (findPreviousMilestone_eq_none_iff milestone history.tree).mpr hnil⟩
  · obtain ⟨-, c, -, -, hfound⟩ := history.exists_latest hnil
    exact ⟨some c, hfound⟩

/-- The same directory listed in another order. -/
def relist (listed : Tree) (h : history.tree.Perm listed) : History where
  tree := listed
  moment := history.moment
  nodup := (h.map (·.name)).nodup_iff.mp history.nodup
  written := fun entry hentry => history.written entry (h.mem_iff.mpr hentry)

theorem isLatest_relist {milestone : String} {listed : Tree} (h : history.tree.Perm listed)
    (latest : TreeEntry) :
    (history.relist listed h).IsLatest milestone latest ↔ history.IsLatest milestone latest := by
  simp only [IsLatest, relist, recency, h.mem_iff]

/-- The selection does not depend on the order of the listing. -/
theorem findPreviousMilestone_relist (milestone : String) {listed : Tree}
    (h : history.tree.Perm listed) :
    findPreviousMilestone milestone listed = findPreviousMilestone milestone history.tree := by
  obtain ⟨found, hfound⟩ := history.findPreviousMilestone_returns milestone
  rw [hfound]
  cases found with
  | none =>
      have hnil := (findPreviousMilestone_eq_none_iff milestone history.tree).mp hfound
      rw [findPreviousMilestone_eq_none_iff]
      have hperm : (siblings milestone history.tree).Perm (siblings milestone listed) :=
        h.filterMap (candidateOf milestone)
      rw [hnil] at hperm
      exact hperm.nil_eq.symm
  | some c =>
      obtain ⟨latest, hlatest, hc⟩ := (history.found_iff_latest milestone c).mp hfound
      exact ((history.relist listed h).found_iff_latest milestone c).mpr
        ⟨latest, (history.isLatest_relist h latest).mpr hlatest, hc⟩

end History

/-- Where the aggregator wrote every metrics file, it compares with the run made
last: `None` without another run, in any order of the listing, and timestamps
with and without a fraction are ordered as the instants they name. -/
theorem findPreviousMilestone_chronological (history : History) (milestone : String) :
    (∃ found, findPreviousMilestone milestone history.tree = .ok found) ∧
      (findPreviousMilestone milestone history.tree = .ok none ↔
        ∀ entry ∈ history.tree, ¬ IsOtherRun milestone entry) ∧
      (∀ c, findPreviousMilestone milestone history.tree = .ok (some c) ↔
        ∃ latest, history.IsLatest milestone latest ∧ history.Represents c latest) ∧
      (∀ listed, history.tree.Perm listed →
        findPreviousMilestone milestone listed = findPreviousMilestone milestone history.tree) ∧
      ∀ a b : UtcDateTime, a.isoformat < b.isoformat ↔ a.instant < b.instant :=
  ⟨history.findPreviousMilestone_returns milestone,
    (findPreviousMilestone_eq_none_iff milestone history.tree).trans
      (history.siblings_eq_nil_iff milestone),
    history.found_iff_latest milestone, fun _ => history.findPreviousMilestone_relist milestone,
    UtcDateTime.isoformat_lt_iff_instant_lt⟩

/-- The report of a run that nothing was measured of. -/
def bareReport : Report := ⟨.null, true, [], [], ⟨none, []⟩, [], []⟩

/-- The file of such a run. -/
def bareEntry (milestone : String) (moment : UtcDateTime) : TreeEntry :=
  ⟨milestone, true, .holds ((bareRun milestone moment.isoformat none).payload bareReport)⟩

theorem bareEntry_writtenAt (milestone : String) (moment : UtcDateTime) :
    WrittenAt moment (bareEntry milestone moment) :=
  ⟨bareRun milestone moment.isoformat none, asListed, [], bareReport, rfl, rfl, rfl⟩

/-- A moment of the first noon of 2026. -/
def noon (microsecond : ℕ) (h : microsecond < 1000000) : UtcDateTime :=
  ⟨2026, 1, 1, 12, 0, 0, microsecond, by decide, by decide, by decide, by decide, by decide,
    by decide, h⟩

/-- Two milestones that ran within a second, the first of them last, and one that has
not run. -/
def noonRuns : History where
  tree := [bareEntry "v1" (noon 500000 (by decide)), bareEntry "v2" (noon 0 (by decide)),
    ⟨"v3", true, .absent⟩]
  moment name := if name = "v1" then noon 500000 (by decide) else noon 0 (by decide)
  nodup := by decide
  written := by
    intro entry hentry
    simp only [List.mem_cons, List.not_mem_nil, or_false] at hentry
    rcases hentry with rfl | rfl | rfl
    · exact Or.inr (bareEntry_writtenAt "v1" _)
    · exact Or.inr (bareEntry_writtenAt "v2" _)
    · exact Or.inl rfl

/-- The third compares with the first, whose text has a fraction that the second's has
not. -/
theorem findPreviousMilestone_noonRuns :
    findPreviousMilestone "v3" noonRuns.tree =
      .ok (some ⟨"v1", .str "2026-01-01T12:00:00.500000+00:00",
        (bareRun "v1" "2026-01-01T12:00:00.500000+00:00" none).payload bareReport⟩) := by
  obtain ⟨-, -, hfound, -, -⟩ := findPreviousMilestone_chronological noonRuns "v3"
  have htext : (noon 500000 (by decide)).isoformat = "2026-01-01T12:00:00.500000+00:00" := by
    decide
  refine (hfound _).mpr ⟨bareEntry "v1" (noon 500000 (by decide)),
    ⟨List.mem_cons_self, ⟨by decide, rfl, nofun⟩, ?_⟩, rfl, ?_, ?_⟩
  · intro other hother hrun
    simp only [noonRuns, List.mem_cons, List.not_mem_nil, or_false] at hother
    rcases hother with rfl | rfl | rfl
    · exact le_rfl
    · exact Prod.Lex.toLex_le_toLex.mpr (Or.inl (by decide))
    · exact absurd rfl hrun.1
  · exact congrArg Json.str htext.symm
  · rw [bareEntry, htext]

/-- The benchmarks directory with any files in it. -/
structure Directory where
  tree : Tree
  nodup : (tree.map (·.name)).Nodup

namespace Candidate

/-- The file has a text for a timestamp. -/
def IsStamped (c : Candidate) : Prop := ∃ s, c.payload.item "timestamp" = .ok (.str s)

/-- The file has no timestamp at all. -/
def LacksTimestamp (c : Candidate) : Prop := ∀ v, c.payload.item "timestamp" ≠ .ok v

/-- The timestamp as a text. -/
def stamp (c : Candidate) : String := (ofLex (recency c)).1

end Candidate

/-- A malformed file does no harm: nothing is raised, only a file with a text for a
timestamp is selected, and where there is one the greatest is. -/
def Resilient (milestone : String) (tree : Tree) : Prop :=
  ∃ found, findPreviousMilestone milestone tree = .ok found ∧
    (∀ c, found = some c → c ∈ siblings milestone tree ∧ c.IsStamped ∧
      ∀ other ∈ siblings milestone tree, other.IsStamped → other.stamp ≤ c.stamp) ∧
    ((∃ c ∈ siblings milestone tree, c.IsStamped) → found ≠ none)

/-- Every file read as a JSON object without a text for a timestamp has none at all,
and a file with one is before it: its text is not empty, or its directory has the
greater name. -/
def Outranked (milestone : String) (tree : Tree) : Prop :=
  ∀ c ∈ siblings milestone tree, ¬ c.IsStamped →
    c.LacksTimestamp ∧ ∃ s ∈ siblings milestone tree, s.IsStamped ∧ recency c < recency s

/-- Where a candidate's timestamp comes from. -/
theorem timestamp_cases {milestone : String} {tree : Tree} {c : Candidate}
    (hc : c ∈ siblings milestone tree) :
    c.payload.item "timestamp" = .ok c.timestamp ∨ c.LacksTimestamp ∧ c.timestamp = .str "" := by
  obtain ⟨entry, -, hcandidate⟩ := List.mem_filterMap.mp hc
  rw [candidateOf] at hcandidate
  split_ifs at hcandidate
  split at hcandidate
  · rename_i payload hholds
    cases payload with
    | obj fields =>
        cases hcandidate
        cases hget : Dict.get? fields "timestamp" with
        | none => exact Or.inr ⟨fun v hv => by simp [Json.item, hget] at hv, rfl⟩
        | some value =>
            refine Or.inl ?_
            simp only [Json.item, hget, Option.getD_some]
    | _ => cases hcandidate
  · cases hcandidate

/-- A timestamp that is no text is not compared with one that is. -/
theorem separates_text : Separates candidateLt fun c => ∃ s, c.timestamp = .str s := by
  intro a b hkinds
  rw [candidateLt]
  cases ha : a.timestamp <;> cases hb : b.timestamp <;>
    simp_all [Json.pyEq, Json.pyLt, Json.number?]

/-- A file that holds a text for a timestamp is compared by it. -/
theorem Candidate.IsStamped.text {milestone : String} {tree : Tree} {c : Candidate}
    (h : c.IsStamped) (hc : c ∈ siblings milestone tree) : ∃ s, c.timestamp = .str s := by
  obtain ⟨s, hs⟩ := h
  rcases timestamp_cases hc with hitem | ⟨hlacks, -⟩
  · exact ⟨s, Except.ok.inj (hitem.symm.trans hs)⟩
  · exact absurd hs (hlacks _)

/-- A candidate compared by a text has it from its file, or its file has none. -/
theorem isStamped_or_lacks {milestone : String} {tree : Tree} {c : Candidate}
    (hc : c ∈ siblings milestone tree) (htext : ∃ s, c.timestamp = .str s) :
    c.IsStamped ∨ c.LacksTimestamp := by
  obtain ⟨s, hs⟩ := htext
  rcases timestamp_cases hc with hitem | ⟨hlacks, -⟩
  · exact Or.inl ⟨s, hs ▸ hitem⟩
  · exact Or.inr hlacks

theorem Directory.siblings_inj (dir : Directory) {milestone : String} {c d : Candidate}
    (hc : c ∈ siblings milestone dir.tree) (hd : d ∈ siblings milestone dir.tree)
    (h : c.milestone = d.milestone) : c = d := by
  obtain ⟨a, ha, hca⟩ := List.mem_filterMap.mp hc
  obtain ⟨b, hb, hdb⟩ := List.mem_filterMap.mp hd
  have hname : a.name = b.name :=
    ((isOtherRun_of_candidateOf hca).2.symm.trans h).trans (isOtherRun_of_candidateOf hdb).2
  obtain rfl := List.inj_on_of_nodup_map dir.nodup ha hb hname
  exact Option.some.inj (hca.symm.trans hdb)

/-- Candidates that were compared with a text have texts. -/
theorem texts_of_found {milestone : String} {tree : Tree} {found : Option Candidate}
    (hfound : findPreviousMilestone milestone tree = .ok found) {s : Candidate}
    (hs : s ∈ siblings milestone tree) (htext : ∃ t, s.timestamp = .str t) :
    ∀ c ∈ siblings milestone tree, ∃ t, c.timestamp = .str t := by
  intro c hc
  have hnonempty : (tree.filterMap (candidateOf milestone)).isEmpty = false :=
    List.isEmpty_eq_false_iff.mpr (List.ne_nil_of_mem hs)
  simp only [findPreviousMilestone, hnonempty, bind, Except.bind] at hfound
  cases hsort : sortM candidateLt (tree.filterMap (candidateOf milestone)) with
  | error e => simp [hsort] at hfound
  | ok zs => exact (separates_text.kind_iff_of_sortM hsort hs hc).mp htext

/-- What is selected among texts is the most recent candidate. -/
theorem recency_le_of_found {milestone : String} {tree : Tree} {last : Candidate}
    (htexts : ∀ c ∈ siblings milestone tree, ∃ t, c.timestamp = .str t)
    (hfound : findPreviousMilestone milestone tree = .ok (some last)) :
    ∀ c ∈ siblings milestone tree, recency c ≤ recency last := by
  intro c hc
  obtain ⟨last', -, hfound', hmax⟩ :=
    findPreviousMilestone_of_compares (comparesBy_of_texts htexts) (List.ne_nil_of_mem hc)
  obtain rfl : last = last' := by simpa [hfound] using hfound'
  exact hmax c hc

/-- Malformed files do no harm exactly where every object without a text for a
timestamp has none at all and is outranked by a file with one. -/
theorem findPreviousMilestone_resilient_iff (dir : Directory) (milestone : String) :
    Resilient milestone dir.tree ↔ Outranked milestone dir.tree := by
  apply Iff.intro
  · rintro ⟨found, hfound, hselected, -⟩ c hc hunstamped
    cases found with
    | none =>
        rw [(findPreviousMilestone_eq_none_iff milestone dir.tree).mp hfound] at hc
        cases hc
    | some last =>
        obtain ⟨hlast, hstamped, -⟩ := hselected last rfl
        have htexts := texts_of_found hfound hlast (hstamped.text hlast)
        refine ⟨(isStamped_or_lacks hc (htexts c hc)).resolve_left hunstamped, last, hlast,
          hstamped, lt_of_le_of_ne (recency_le_of_found htexts hfound c hc) fun heq => ?_⟩
        have hname : c.milestone = last.milestone := congrArg (fun key => (ofLex key).2) heq
        exact hunstamped (dir.siblings_inj hc hlast hname ▸ hstamped)
  · intro h
    by_cases hnil : siblings milestone dir.tree = []
    · refine ⟨none, (findPreviousMilestone_eq_none_iff milestone dir.tree).mpr hnil,
        fun c hc => ?_, fun ⟨c, hc, _⟩ => ?_⟩
      · cases hc
      · rw [hnil] at hc
        cases hc
    · have htexts : ∀ c ∈ siblings milestone dir.tree, ∃ t, c.timestamp = .str t := fun c hc => by
        by_cases hstamped : c.IsStamped
        · exact hstamped.text hc
        · rcases timestamp_cases hc with hitem | ⟨-, hempty⟩
          · exact absurd hitem ((h c hc hstamped).1 _)
          · exact ⟨"", hempty⟩
      obtain ⟨last, hlast, hfound, hmax⟩ :=
        findPreviousMilestone_of_compares (comparesBy_of_texts htexts) hnil
      have hstamped : last.IsStamped := by
        by_contra hunstamped
        obtain ⟨-, s, hs, -, hlt⟩ := h last hlast hunstamped
        exact absurd (hmax s hs) (not_le_of_gt hlt)
      refine ⟨some last, hfound, fun c hc => ?_, fun _ => Option.some_ne_none last⟩
      obtain rfl := Option.some.inj hc
      exact ⟨hlast, hstamped, fun other hother _ => Prod.Lex.monotone_fst _ _ (hmax other hother)⟩

/-- A file with a null timestamp beside one with a text. -/
def nullBesideText : Directory where
  tree := [⟨"block-1", true, .holds (.obj [("timestamp", .str "2026-07-27T00:00:00+00:00")])⟩,
    ⟨"block-2", true, .holds (.obj [("timestamp", .null)])⟩]
  nodup := by decide

/-- The sort raises on it. -/
theorem findPreviousMilestone_raises_on_null :
    findPreviousMilestone "block-3" nullBesideText.tree = .error .typeError ∧
      ¬ ∀ (dir : Directory) (milestone : String), Resilient milestone dir.tree := by
  have hraises : findPreviousMilestone "block-3" nullBesideText.tree = .error .typeError := by
    rfl
  refine ⟨hraises, fun hall => ?_⟩
  obtain ⟨found, hfound, -⟩ := hall nullBesideText "block-3"
  rw [hraises] at hfound
  cases hfound

end StateBenchmarks.Metrics
